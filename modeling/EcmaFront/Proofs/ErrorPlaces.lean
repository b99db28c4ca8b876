import EcmaFront.Program
import EcmaFront.Proofs.BlameStatement
import EcmaFront.Proofs.Termination
import EcmaFront.Proofs.TokenPlaces

/-!
Every error points into the source: to a token of it, or to a comment that is never closed, by the
line and column of its first unit. A fault of the lexer is told in its own words.
-/

set_option autoImplicit false

namespace EcmaFront

namespace ParseState

variable {x : Source}

theorem follows_entered (hx : x.WellFormed) (change : Scopes → Scopes) :
    ((initial x).onScopes change).next.Follows x :=
  @Follows.lex { (initial x).onScopes change with lastEnd := _ } x hx rfl x.comesTo_start
    (List.forall_mem_nil _)

end ParseState

namespace Parse

variable {B : NodeAlgebra} {r : Rules B} {c : ParseContext} {s : ParseState} {α : Type}

theorem blames_of_keeps {change : Scopes → Scopes} {f : Parse α} {e : ParseError}
    (hx : c.source.WellFormed) (h : ∀ s, Keeps c s f)
    (he : ((do modifyScopes change; next; f) c (.initial c.source)).1 = .error e) :
    c.source.Blames e := by
  have hk := h _ (ParseState.follows_entered hx change)
  rw [modifyScopes_bind, next_bind] at he
  generalize f c _ = result at hk he
  obtain ⟨_, s'⟩ := result
  cases he
  exact hk.2

theorem Keeps.finishProgram : Keeps c s finishProgram := by
  refine state_bind fun _ => ite (fun _ hs => ?_) fun _ => finishFunction
  exact ⟨hs, _, hs.shows.contains, .inl nofun, rfl⟩

theorem program_blames {options : ParseOptions} {e : ParseError} (hx : c.source.WellFormed)
    (hr : r.Keep c) (he : (program r options c (.initial c.source)).1 = .error e) :
    c.source.Blames e := by
  refine blames_of_keeps hx (fun _ => ?_) he
  exact .state_bind fun _ => (Keeps.body hr).bind fun _ _ => .spanFrom_bind
    (Keeps.finishProgram.bind fun _ _ => .done)

theorem soleFunction_blames {options : FunctionOptions} {e : ParseError} (hx : c.source.WellFormed)
    (hr : r.Keep c) (he : (soleFunction r options c (.initial c.source)).1 = .error e) :
    c.source.Blames e := by
  refine blames_of_keeps hx (fun _ => ?_) he
  refine .state_bind fun _ => (Keeps.functionParts hr).bind fun _ _ => .state_bind fun _ => ?_
  exact .ite (fun _ => .unexpected) fun _ => Keeps.recordFunction.bind fun _ _ => .done

end Parse

/-- The error tells the place of the token in the text, lines and columns from one on, and what its
fault is. -/
structure ParseError.PointsTo (e : ParseError) (s : Source) (text : List Char) (t : Sighting) :
    Prop where
  url : e.url = s.url
  line : e.line = nextLine^[(s.lineBreaksBefore text t.extent.start).length] s.startLine
  column : e.column = columnBehind
    (t.extent.start - s.lineBehind (s.lineBreaksBefore text t.extent.start))
  onLine : s.lineBehind (s.lineBreaksBefore text t.extent.start) ≤ t.extent.start
  inside : s.start ≤ t.extent.start ∧ t.extent.start ≤ s.stop
  comment : t.fault = some .unterminatedComment →
    s.view.code t.extent.start = 0x2F ∧ s.view.code (t.extent.start + 1) = 0x2A
  fault : e.cause.kind = .lexer →
    ∃ fault, t.fault = some fault ∧ t.token.kind = fault.kind ∧ e.cause.message = fault.message

namespace ParseError.PointsTo

variable {e : ParseError} {s : Source} {text : List Char} {t : Sighting}

theorem line_eq (h : e.PointsTo s text t)
    (hl : s.startLine + (s.lineBreaksBefore text t.extent.start).length < 0x100000000) :
    e.line = s.startLine + (s.lineBreaksBefore text t.extent.start).length :=
  h.line.trans (nextLine_iterate hl)

theorem column_eq (h : e.PointsTo s text t)
    (hc : t.extent.start - s.lineBehind (s.lineBreaksBefore text t.extent.start) + 1 <
      0x100000000) :
    e.column = t.extent.start - s.lineBehind (s.lineBreaksBefore text t.extent.start) + 1 :=
  h.column.trans (columnBehind_eq hc)

end ParseError.PointsTo

theorem Source.Blames.pointsTo {s : Source} {text : List Char} {e : ParseError} (ht : s.Spells text)
    (h : s.Blames e) : ∃ t, s.Contains t ∧ e.PointsTo s text t := by
  obtain ⟨t, ⟨requests, hm⟩, hfits, he⟩ := h
  have hplaced := Lexer.tokens_placed ht requests t hm
  obtain ⟨passed, hs, hline⟩ := hplaced.counts
  have hb : s.lineBreaksBefore text t.extent.start = passed := hs.lineBreaksBefore_eq
  have hstart : t.extent.lineStart = s.lineBehind passed := hs.lineStart
  refine ⟨t, ⟨requests, hm⟩, ?_⟩
  refine ⟨by rw [he]; rfl, ?_, ?_, ?_, ⟨?_, hs.le_limit ht⟩, hplaced.comment, fun hk => ?_⟩
  · rw [hb, ← hline, he]
    rfl
  · rw [hb, ← hstart, he]
    rfl
  · rw [hb, ← hstart]
    exact hs.lineStart_le
  · obtain ⟨k, -, ho, -⟩ := hs.character
    exact Nat.le.intro ho.symm
  · obtain hn | ⟨fault, hf, hc⟩ := hfits
    · exact absurd hk hn
    · have hfaults := Lexer.faults_of_mem hm
      rw [Sighting.Faults, hf] at hfaults
      exact ⟨fault, hf, hfaults, by rw [hc]; rfl⟩

/-- Wherever a parse fails, of a program or of one function, built as a tree or only checked, its
error points to a token of the source. -/
theorem errors_point_into_the_source {s : Source} {text : List Char} (ht : s.Spells text)
    (options : ParseOptions)
    (functionOptions : FunctionOptions) {e : ParseError}
    (he : (parseProgram s options).outcome = .error e ∨
      (checkProgram s options).outcome = .error e ∨
      (parseFunction s functionOptions).outcome = .error e) :
    ∃ t, s.Contains t ∧ e.PointsTo s text t := by
  refine Source.Blames.pointsTo ht ?_
  have program (hp : (parseProgram s options).outcome = .error e) : s.Blames e :=
    Parse.program_blames ⟨text, ht⟩ (.bounded .tree _ _) hp
  obtain hp | hp | hp := he
  · exact program hp
  · exact program (error_of_checkProgram hp)
  · exact Parse.soleFunction_blames ⟨text, ht⟩ (.bounded .tree _ _)
      ((outcome_parseFunction ..).symm.trans hp)

/-- A string that is never closed, in the second line of a source that begins with its third. -/
theorem errors_point_into_the_source_of_many_lines :
    let s := Source.ofBuffer (Buffer.ofString "é\n'b") "u.js" 3
    let e : ParseError := ⟨.lexical (some .unterminatedString), "u.js", 4, 1⟩
    (checkProgram s {}).outcome = .error e ∧ ∃ t, s.Contains t ∧ e.PointsTo s "é\n'b".toList t := by
  intro s e
  have he : (checkProgram s {}).outcome = .error e := by decide +kernel
  exact ⟨he, errors_point_into_the_source (Source.spells_utf8 _ _ _) {} {} (.inr (.inl he))⟩

end EcmaFront
