import EcmaFront.Proofs.CheckedProgram
import EcmaFront.Proofs.PrologueRestart
import EcmaFront.Proofs.Watched

/-!
Every parse comes to an end. The levels and rounds that the length of the text gives are always
enough, since what is nested or repeated without consuming a token has a lower rank, and a list of
statements is read again at most once.
-/

set_option autoImplicit false

namespace EcmaFront

namespace Parse

variable {c : ParseContext} {o : ParseState} {source : Source}

theorem stage_entered (source : Source) (options : ParseOptions) :
    (ParseState.entered source options).Stage (ParseState.entered source options).ground
      (.entered source options) :=
  ⟨ParseState.settled_lex _, .of_sight rfl, rfl, nofun⟩

/-- What a text that is entered may ask for, where this may be jumped to. -/
def Entry (k : Footing) (phrase : Phrase) (g : Ground) : Prop :=
  g.footing = k ∧ ∀ form, phrase = .pattern form → g.Admits form

theorem Asking.entered {source : Source} {options : ParseOptions} {recording : Bool}
    {r : Rules .tree}
    {K : Phrase → Ground → Prop}
    (h : ∀ {phrase t}, (ParseState.entered source options).Stage t.ground t → K phrase t.ground →
      2 * t.sight.rest + 8 ≤ roundsFor source.size →
      4 * t.sight.rest + phrase.rank < levelsFor source.size →
      Alike ⟨source, roundsFor source.size, recording⟩ t
        (Rules.ofSource .tree source phrase) (r phrase)) :
    Asking ⟨source, roundsFor source.size, recording⟩ (Rules.ofSource .tree source) r K 4
      (.entered source options) := by
  have hr := (ParseState.rest_entered source options).1
  refine .of_levels ?_ ?_ h
  · dsimp only [roundsFor]
    omega
  · unfold levelsFor
    omega

theorem asking_watched (source : Source) (options : ParseOptions) (recording : Bool) (k : Footing) :
    Asking ⟨source, roundsFor source.size, recording⟩ (Rules.ofSource .tree source)
      (Rules.watched .tree (levelsFor source.size) k) (Entry k) 4 (.entered source options) :=
  .entered fun ht hK hr hn => by
    obtain ⟨rfl, hf⟩ := hK
    exact bounded_alike_watched ht.here hf hr hn

section

variable {options : ParseOptions} {recording : Bool} {r : Rules .tree}

theorem program_alike
    (h : Asking ⟨source, roundsFor source.size, recording⟩
      (Rules.ofSource .tree source) r (Entry {}) 4
      (.entered source options)) :
    Alike ⟨source, roundsFor source.size, recording⟩ (.initial source)
      (program (Rules.ofSource .tree source) options) (program r options) := by
  refine .modifyScopes_bind (.next_bind (.state_bind (.bind ?_ fun _ _ _ =>
    .spanFrom_bind (.bind ?_ fun _ _ _ => .pure trivial))))
  · exact h.body (stage_entered source options) (.inr (by decide))
      (ParseState.inFunction_entered source options).1
      ⟨rfl, nofun⟩
  · exact .state_bind (.ite (fun _ => .fail nofun) fun _ => .ask)

theorem soleFunction_alike (options : FunctionOptions)
    (h : Asking ⟨source, roundsFor source.size, recording⟩ (Rules.ofSource .tree source) r
      (Entry .function) 4
      (.entered source { strict := options.strict, constructorKind := options.constructorKind })) :
    Alike ⟨source, roundsFor source.size, recording⟩ (.initial source)
      (soleFunction (Rules.ofSource .tree source) options) (soleFunction r options) := by
  have he : ((ParseState.initial source).onScopes
      (·.push (Frame.program .script options.strict options.constructorKind))).next =
      .entered source { strict := options.strict, constructorKind := options.constructorKind } := by
    rw [ParseState.entered, ParseOptions.startsStrict,
      show (Mode.script == Mode.module) = false from rfl, Bool.or_false]
  refine .modifyScopes_bind (.next_bind (he ▸ .state_bind (.bind ?_ fun _ _ _ => .state_bind ?_)))
  · exact h.functionParts (stage_entered source _) fun _ hp =>
      ⟨rfl, fun form hf hc => absurd (hc ▸ hf) hp⟩
  · exact .ite (fun _ => .unexpected) fun _ => Alike.recordFunction.bind fun _ _ _ => .pure trivial

end

/-! Lists that are read again. -/

section

variable {B : NodeAlgebra} {close : TokenKind} {s t t' : ParseState}

/-- The rounds that read a list of statements up to a state, of which so many began the list
again. -/
inductive BodyRun (r : Rules B) (close : TokenKind) (start : Checkpoint) (c : ParseContext)
    (s : ParseState) :
    Nat → BodyScan B.Statement → ParseState → Prop where
  | start : BodyRun r close start c s 0 ⟨[], true⟩ s
  | item {n scan scan' t t'} (h : BodyRun r close start c s n scan t)
    (hr : bodyRound r close start scan c t = (.ok (.again scan'), t')) (hb : scan'.body ≠ []) :
    BodyRun r close start c s n scan' t'
  | restart {n scan scan' t t'} (h : BodyRun r close start c s n scan t)
    (hr : bodyRound r close start scan c t = (.ok (.again scan'), t')) (hb : scan'.body = []) :
    BodyRun r close start c s (n + 1) scan' t'

theorem outline_item (φ : NodeAlgebra.Hom .tree B) {n : Nat} {a : B.Statement}
    (h : Rules.item (Rules.bounded B n) c t = (.ok a, t')) :
    t'.scopes.outline = t.scopes.outline := by
  have ha : Agree Invariant.anything 1 1 φ.ofStatement (Rules.item (Rules.bounded .tree n) c t)
      (Rules.item (Rules.bounded B n) c t) :=
    (RulesAgree.bounded φ .anything n).item.run (c := c) (s := t) (j := t.journal) trivial
      Nat.one_pos trivial
  rw [h] at ha
  generalize hx : Rules.item (Rules.bounded .tree n) c t = x at ha
  cases ha with
  | ok => exact ((bounded_reads .tree c n).item hx).bare.outline

theorem BodyRun.turns (φ : NodeAlgebra.Hom .tree B) {levels n : Nat} {scan : BodyScan B.Statement}
    (hs : s.InFunction) (h : BodyRun (Rules.bounded B levels) close s.checkpoint c s n scan t) :
    t.scopes.outline.length = s.scopes.outline.length ∧
    (n = 0 ∧ t.InFunction ∨ n = 1 ∧ t.strict = true) := by
  induction h with
  | start => exact ⟨rfl, .inl ⟨rfl, hs⟩⟩
  | item _ hr hb ih =>
    obtain ⟨-, -, a, t₁, ha, ⟨rfl, -⟩ | ⟨-, -, -, -, -, _, -, rfl, -⟩⟩ := bodyRound_again hr
    · have ho := outline_item φ ha
      refine ⟨(congrArg List.length ho).trans ih.1, ?_⟩
      obtain ⟨hn, hf⟩ | ⟨hn, hs⟩ := ih.2
      · exact .inl ⟨hn, Reading.inFunction ho hf⟩
      · exact .inr ⟨hn, (Scopes.strict_congr ho).trans hs⟩
    · exact absurd rfl hb
  | @restart n scan scan' t t' _ hr hb ih =>
    obtain ⟨-, -, a, t₁, ha, ⟨-, hn, -⟩ | ⟨-, -, -, -, hl, t₂, he, rfl, rfl⟩⟩ := bodyRound_again hr
    · simp [hn] at hb
    · have ho := outline_item φ ha
      obtain ⟨hn, hf⟩ := ih.2.resolve_right fun h =>
        nomatch ((Scopes.strict_congr ho).trans h.2).symm.trans hl
      obtain ⟨ht, hlen, -⟩ := strict_of_enableStrict he (Reading.inFunction ho hf)
      have hlen := hlen.trans ((congrArg List.length ho).trans ih.1)
      have hr : (t₂.restart t.token.extent.start s.checkpoint).scopes = t₂.scopes :=
        Scopes.truncate_of_outline hlen
      exact ⟨(congrArg (·.outline.length) hr).trans hlen,
        .inr ⟨by rw [hn], (congrArg Scopes.strict hr).trans ht⟩⟩

end

theorem Alike.cause_ne {α : Type} {p q : Parse α} {e : ParseError} {s : ParseState}
    (h : Alike c s p q) (he : (p c s).1 = .error e) : e.cause ≠ .exhausted := by
  have hg := h.gives
  generalize p c s = x at hg he
  obtain ⟨_, _⟩ := x
  cases he
  exact hg

end Parse

theorem check_alike {source : Source} {options : ParseOptions} {recording : Bool} {r : Rules .tree}
    {r' : Rules .check}
    (hr : RulesAgree .toClass .sameJournal r r')
    (h : Parse.Alike ⟨source, roundsFor source.size, recording⟩ (.initial source)
      (Parse.program (Rules.ofSource .tree source) options) (Parse.program r options)) :
    (Parse.program r' options).run source recording =
    runProgram .check source options recording := by
  have ha := (Agrees.program hr options fun h => h).run
    (c := ⟨source, roundsFor source.size, recording⟩)
    (s := .initial source) (j := (ParseState.initial source).journal) rfl rfl rfl
  exact ha.eq_of_sameJournal.trans
    (h.same ▸ (runProgram_sameJournal .toClass source options recording).eq_of_sameJournal.symm)

/-- What came of a parse is a result or a fault of the text, and not that a bound was too low. -/
def Report.IsDecided {α : Type} (report : Report α) : Prop :=
  ∀ e, report.outcome = .error e → e.cause ≠ .exhausted

theorem outcome_parseFunction (source : Source) (options : FunctionOptions) :
    (parseFunction source options).outcome =
      ((Parse.soleFunction (Rules.ofSource .tree source) options).run source false).1 := by
  unfold parseFunction
  generalize (Parse.soleFunction (Rules.ofSource .tree source) options).run source false = x
  rcases x with ⟨_ | _, _⟩ <;> rfl

/-- Every parse comes to an end with the levels and rounds that the length of its text gives. The
list of statements of a program or function is begun again at most once. -/
theorem parsing_terminates (source : Source) (options : ParseOptions)
    (functionOptions : FunctionOptions) :
    (parseProgram source options).IsDecided ∧ (checkProgram source options).IsDecided ∧
      (parseFunction source functionOptions).IsDecided ∧
      ∀ {B : NodeAlgebra} (_ : NodeAlgebra.Hom .tree B) {levels : Nat} {c : ParseContext}
        {close : TokenKind}
        {s t : ParseState} {n : Nat} {scan : Parse.BodyScan B.Statement}, s.InFunction →
        Parse.BodyRun (Rules.bounded B levels) close s.checkpoint c s n scan t → n ≤ 1 := by
  have hp (e : ParseError) : (runProgram .tree source options false).1 = .error e →
      e.cause ≠ .exhausted :=
    (Parse.program_alike (Parse.asking_watched source options false {})).cause_ne
  refine ⟨hp, fun e he => ?_, fun e he => ?_, fun φ _ _ _ _ _ _ _ hs h => ?_⟩
  · exact hp e (error_of_checkProgram he)
  · have hf := Parse.soleFunction_alike functionOptions
      (Parse.asking_watched source _ false .function)
    exact hf.cause_ne ((outcome_parseFunction ..).symm.trans he)
  · have hn := (h.turns φ hs).2
    omega

def Parse.Round.goesOnWithNothing {α : Type} :
    Except ParseError (Round (BodyScan α) (List α)) × ParseState → Bool
  | (.ok (.again scan), _) => scan.body.isEmpty
  | _ => false

theorem parsing_terminates_restarted :
    ∃ (n : Nat) (scan : Parse.BodyScan NodeAlgebra.tree.Statement) (t : ParseState),
      Parse.BodyRun (Rules.ofSource .tree (.ofString "'use strict';x" "")) .eof
        (ParseState.entered (.ofString "'use strict';x" "") {}).checkpoint
          ⟨.ofString "'use strict';x" "", 40, false⟩
        (.entered (.ofString "'use strict';x" "") {}) n scan t ∧ n ≠ 0 ∧ n ≤ 1 := by
  have h : Parse.Round.goesOnWithNothing
      (Parse.bodyRound (Rules.ofSource .tree (.ofString "'use strict';x" "")) .eof
        (ParseState.entered (.ofString "'use strict';x" "") {}).checkpoint ⟨[], true⟩
        ⟨.ofString "'use strict';x" "", 40, false⟩ (.entered (.ofString "'use strict';x" "") {})) =
          true := by
    decide +kernel
  unfold Parse.Round.goesOnWithNothing at h
  split at h
  · next scan t hr =>
    have hb := Parse.BodyRun.restart .start hr (List.isEmpty_iff.1 h)
    exact ⟨_, _, _, hb, by decide,
      (parsing_terminates (.ofString "" "") {} {}).2.2.2 (.refl _)
      (ParseState.inFunction_entered _ _).1 hb⟩
  · cases h

end EcmaFront
