import EcmaFront.Proofs.CheckedProgram
import EcmaFront.Proofs.StrictFlags

/-!
A program whose prologue makes it strict is read again from its first token. The directives read
before that leave nothing behind but events, so that the program is read as if its code had been
strict from the start.
-/

set_option autoImplicit false

namespace EcmaFront

namespace Parse

variable {α σ : Type} {c : ParseContext}

theorem repeatBounded_enough {round : σ → Parse (Round σ α)} (Good : ParseState → Prop)
    (left : ParseState → Nat)
    (h : ∀ {x y s s'}, Good s → round x c s = (.ok (.again y), s') → Good s' ∧ left s' < left s)
    {m n : Nat} {x : σ} {s : ParseState} (hs : Good s) (hm : left s < m) (hn : left s < n) :
    repeatBounded m round x c s = repeatBounded n round x c s := by
  induction m generalizing n x s with
  | zero => omega
  | succ m ih =>
    obtain ⟨n, rfl⟩ : ∃ k, n = k + 1 := ⟨n - 1, by omega⟩
    simp only [repeatBounded, bind]
    rcases hr : round x c s with ⟨e | ⟨y⟩ | a, s'⟩
    · rfl
    · obtain ⟨hs', hl⟩ := h hs hr
      exact ih hs' (by omega) (by omega)
    · rfl

variable {B : NodeAlgebra}

theorem body_run (r : Rules B) (close : TokenKind) (s : ParseState) :
    body r close c s = repeatBounded c.rounds (bodyRound r close s.checkpoint) ⟨[], true⟩ c s :=
  rfl

/-- The rounds of a sloppy list up to the one that makes it strict: what they leave of the list, and
the state in which it is read again. -/
def strictSwitch (r : Rules B) (close : TokenKind) (start : Checkpoint) (c : ParseContext) :
    Nat → BodyScan B.Statement → ParseState → Option (BodyScan B.Statement × ParseState)
  | 0, _, _ => none
  | n + 1, scan, s =>
    match bodyRound r close start scan c s with
    | (.ok (.again scan'), s') =>
      if s'.strict then some (scan', s')
      else if scan'.prologue then strictSwitch r close start c n scan' s'
      else none
    | _ => none

end Parse

/-- The rounds of a sloppy program up to the one that makes it strict. -/
def prologueSwitch (source : Source) (options : ParseOptions) :
    Option (Parse.BodyScan Stmt × ParseState) :=
  if options.startsStrict then none
  else
    let s := ParseState.entered source options
    Parse.strictSwitch (Rules.ofSource .tree source) .eof s.checkpoint
      ⟨source, roundsFor source.size, false⟩
      (roundsFor source.size) ⟨[], true⟩ s

namespace ParseState

/-- Some tokens have been consumed, and nothing else is different. -/
inductive Past (s : ParseState) : ParseState → Prop where
  | mk (lexer : Lexer) (token : Token) (tokenStart : Standing) (lastEnd : Position)
    (hv : lexer.view = s.lexer.view) : Past s { s with lexer, token, tokenStart, lastEnd }

namespace Past

variable {s t t' : ParseState}

theorem refl (s : ParseState) : s.Past s := .mk s.lexer s.token s.tokenStart s.lastEnd rfl

theorem next (h : s.Past t) : s.Past t.next := by
  cases h with
  | mk lexer token tokenStart lastEnd hv => exact .mk _ _ _ _ ((lexer.view_next _).trans hv)

theorem ends (h : s.Past t) (he : Parse.Ends t t') : s.Past t' := by
  cases he with
  | semicolon => exact h.next
  | omitted => exact h

theorem scopes (h : s.Past t) : t.scopes = s.scopes := by
  cases h
  rfl

end Past

variable {source : Source} {options : ParseOptions}

theorem view_entered (source : Source) (options : ParseOptions) :
    (entered source options).lexer.view = ⟨source.buffer, source.stop⟩ :=
  Lexer.view_next _ _

theorem rest_entered (source : Source) (options : ParseOptions) :
    (entered source options).sight.rest ≤ source.size ∧
      (0 < (entered source options).sight.rest → source.start ≤ source.stop) := by
  have hp : min source.start source.stop ≤ (entered source options).sight.position :=
    Sight.le_position_read (initial source).sight (Lexer.ofSource source) options.startsStrict
  have hv : (entered source options).sight.lexer.view.limit = source.stop :=
    congrArg View.limit (view_entered ..)
  rw [Sight.rest, Source.size, hv]
  constructor <;> omega

theorem start_entered (source : Source) (options options' : ParseOptions) :
    (entered source options).start = (entered source options').start :=
  Sight.start_next _ _ _

theorem checkpoint_entered (source : Source) (options options' : ParseOptions) :
    (entered source options).checkpoint = (entered source options').checkpoint := by
  simp only [checkpoint, entered, next, lex, onScopes]
  rfl

theorem restart_entered {c : ParseContext} {s s' : ParseState} {directive : Extent} {offset : Nat}
    (hl : source.start ≤ source.stop) (hp : (entered source options).Past s)
    (he : Parse.enableStrict directive c s = (.ok (), s')) :
    s'.restart offset (entered source options).checkpoint =
      (entered source { options with strict := true }).withJournal
        (s'.restart offset (entered source options).checkpoint).journal := by
  obtain ⟨-, hf⟩ | ⟨rfl, -⟩ := Parse.enableStrict_ok he
  · rw [hp.scopes] at hf
    exact absurd hf (Parse.InFunction.function? (inFunction_entered source options).1)
  · cases hp with
    | mk lexer token tokenStart lastEnd hv =>
      have hg : lexer.goTo (Lexer.ofSource source).standing = Lexer.ofSource source := by
        rw [Lexer.goTo, hv, view_entered]
        show ({
          view := _
          standing := { (Lexer.ofSource source).standing with
            offset := min source.start source.stop }
          fault := none } : Lexer) = _
        rw [Nat.min_eq_left hl]
        rfl
      simp only [restart, backtrack, rewind]
      rw [show ((entered source options).checkpoint).standing =
        (Lexer.ofSource source).standing from rfl]
      simp only [record, onScopes]
      rw [hg]
      rfl

end ParseState

namespace Parse

variable {c : ParseContext} {r : Rules .tree} {close : TokenKind}

theorem of_strictSwitch (hr : Reads c r) {s₀ s t : ParseState} {scan scan' : BodyScan Stmt}
    {n : Nat} (hf : s₀.InFunction) (hl : s₀.strict = false) (hp : s₀.Past s) (hs : s.sight.Settled)
    (h : strictSwitch r close s₀.checkpoint c n scan s = some (scan', t)) :
    scan' = ⟨[], true⟩ ∧
      (∃ s₁ s₂ directive, s₀.Past s₁ ∧ enableStrict directive c s₁ = (.ok (), s₂) ∧
        t = s₂.restart directive.start s₀.checkpoint) ∧
      ∃ k, 0 < k ∧ k ≤ s.sight.rest ∧ ∀ m,
      repeatBounded (m + k) (bodyRound r close s₀.checkpoint) scan c s =
        repeatBounded m (bodyRound r close s₀.checkpoint) scan' c t := by
  induction n generalizing s scan with
  | zero => cases h
  | succ n ih =>
    rw [strictSwitch] at h
    split at h
    case h_2 => cases h
    case h_1 scan₁ s₁ hb =>
    obtain ⟨hc, he, a, s₂, ha, hround⟩ := bodyRound_again hb
    have ha := hr.item ha
    have hx : s.Consumes s₂ := ha.consumes
    have hlt := hx.rest_lt hs
    have hrun (m : Nat) : repeatBounded (m + 1) (bodyRound r close s₀.checkpoint) scan c s =
        repeatBounded m (bodyRound r close s₀.checkpoint) scan₁ c s₁ := by
      simp only [repeatBounded, bind, hb]
    have hsl : s.strict = false := (congrArg Scopes.strict hp.scopes).trans hl
    have hl₂ : s₂.strict = false := ha.strict_item.trans hsl
    obtain ⟨rfl, hbody, hpro, -⟩ | ⟨hq, hk, hd, hu, -, s₃, hen, rfl, rfl⟩ := hround
    · rw [hl₂] at h
      simp only [Bool.false_eq_true, if_false] at h
      split at h
      case isFalse => cases h
      case isTrue hq =>
      simp only [hpro, Bool.and_eq_true, beq_iff_eq] at hq
      obtain ⟨-, hends, -⟩ | ⟨hn, -⟩ := ha.quotes_item hq.1.2
      · obtain ⟨hsc, hsw, k, hk, hkr, hm⟩ := ih (hp.next.ends hends) (hs.moves hx.moves) h
        refine ⟨hsc, hsw, k + 1, Nat.succ_pos k, by omega, fun m => ?_⟩
        rw [← hm m, ← Nat.add_assoc, hrun]
      · cases hn.symm.trans hq.2
    · obtain ⟨-, hends, -⟩ | ⟨hn, -⟩ := ha.quotes_item hk
      · have hp₂ := hp.next.ends hends
        obtain ⟨ht, hlen, -⟩ :=
          strict_of_enableStrict hen (Reading.inFunction (congrArg Scopes.outline hp₂.scopes) hf)
        have hsc : (s₃.restart s.token.extent.start s₀.checkpoint).scopes = s₃.scopes :=
          Scopes.truncate_of_outline
            (hlen.trans (congrArg (List.length ∘ Scopes.outline) hp₂.scopes))
        have ht : (s₃.restart s.token.extent.start s₀.checkpoint).strict = true :=
          (congrArg Scopes.strict hsc).trans ht
        rw [if_pos ht] at h
        cases h
        exact ⟨rfl, ⟨s₂, s₃, _, hp₂, hen, rfl⟩, 1, Nat.one_pos, by omega, hrun⟩
      · cases hn.symm.trans hd

theorem bodyRounds_enough (hr : Reads c r) {start : Checkpoint} {scan : BodyScan Stmt}
    {s : ParseState} {m n : Nat} (hs : s.sight.Settled) (ht : s.strict = true)
    (hm : s.sight.rest < m) (hn : s.sight.rest < n) :
    repeatBounded m (bodyRound r close start) scan c s =
    repeatBounded n (bodyRound r close start) scan c s := by
  refine repeatBounded_enough (fun s => s.sight.Settled ∧ s.strict = true) (·.sight.rest)
    (fun {x y s s'} hg hb => ?_)
    ⟨hs, ht⟩ hm hn
  obtain ⟨hs, ht⟩ := hg
  obtain ⟨-, -, a, s₁, ha, ⟨rfl, -⟩ | ⟨-, -, -, -, hl, -⟩⟩ := bodyRound_again hb
  · have ha := hr.item ha
    have hx : s.Consumes s' := ha.consumes
    exact ⟨⟨hs.moves hx.moves, ha.strict_item.trans ht⟩, hx.rest_lt hs⟩
  · cases ((hr.item ha).strict_item.trans ht).symm.trans hl

end Parse

theorem Parse.bodyRounds_agree (levels : Nat) {c : ParseContext} (close : TokenKind)
    (s₀ s : ParseState) (j : Journal) (n : Nat) (scan : BodyScan Stmt) :
    Agree Invariant.anything 1 1 (List.map id)
      (repeatBounded n (bodyRound (Rules.bounded .tree levels) close s₀.checkpoint) scan c s)
      (repeatBounded n (bodyRound (Rules.bounded .tree levels) close s₀.checkpoint) scan c
        (s.withJournal j)) := by
  have hg : Agrees.onScan (NodeAlgebra.Hom.refl .tree).ofStatement scan = scan := by
    simp [Agrees.onScan, NodeAlgebra.Hom.refl]
  have hr := RulesAgree.bounded (.refl .tree) .anything levels
  have h := Agree.repeatBounded (I := Invariant.anything) (c := c)
    (r := c.recording) (Nat.le_refl 1)
    (fun {x s j} hs => (Agrees.bodyRound hr close Nat.one_pos
      (show Invariant.anything.holds 1 s₀ s₀.journal from trivial)
      x).run trivial rfl hs) n scan (show Invariant.anything.holds 1 s j from trivial)
  rw [hg] at h
  exact h

theorem body_of_prologueSwitch {source : Source} {options : ParseOptions}
    {scan : Parse.BodyScan Stmt} {t : ParseState}
    (h : prologueSwitch source options = some (scan, t)) :
    scan = ⟨[], true⟩ ∧ t = (ParseState.entered source { options with strict := true }).withJournal
      t.journal ∧
      Agree Invariant.anything 1 1 (List.map id)
        (Parse.body (Rules.ofSource .tree source) .eof ⟨source, roundsFor source.size, false⟩
          (.entered source { options with strict := true }))
        (Parse.body (Rules.ofSource .tree source) .eof ⟨source, roundsFor source.size, false⟩
          (.entered source options)) := by
  unfold prologueSwitch at h
  split at h
  case isTrue => cases h
  case isFalse hl =>
  have hr := Parse.bounded_reads .tree ⟨source, roundsFor source.size, false⟩
    (levelsFor source.size)
  obtain ⟨hf, hq⟩ := ParseState.inFunction_entered source options
  obtain ⟨rfl, ⟨s₁, s₂, d, hp, he, ht⟩, k, hk, hkr, hm⟩ :=
    Parse.of_strictSwitch hr hf (hq.trans (by simpa using hl)) (.refl _)
      (ParseState.settled_lex _) h
  obtain ⟨hle, hin⟩ := ParseState.rest_entered source options
  obtain ⟨hle', -⟩ := ParseState.rest_entered source { options with strict := true }
  have ht : t = (ParseState.entered source { options with strict := true }).withJournal
      t.journal := by
    rw [ht]
    exact ParseState.restart_entered (hin (by omega)) hp he
  refine ⟨rfl, ht, ?_⟩
  obtain ⟨n, hn⟩ : ∃ n, n + k = roundsFor source.size :=
    ⟨roundsFor source.size - k, by simp only [roundsFor]; omega⟩
  have hrun := hm n
  rw [hn, ht] at hrun
  have hs : (ParseState.entered source { options with strict := true }).sight.Settled :=
    ParseState.settled_lex _
  have hrun' : Parse.repeatBounded (roundsFor source.size) (Parse.bodyRound _ .eof
      (ParseState.entered source options).checkpoint) ⟨[], true⟩ _ _ =
      Parse.repeatBounded n _ _ _ _ :=
    Parse.bodyRounds_enough hr hs
      (ParseState.inFunction_entered source { options with strict := true }).2
      (by simp only [roundsFor]; omega) (by simp only [roundsFor] at hn; omega)
  have ha := Parse.bodyRounds_agree (levelsFor source.size)
    (c := ⟨source, roundsFor source.size, false⟩) .eof
    (.entered source options) (.entered source { options with strict := true })
    t.journal n ⟨[], true⟩
  rw [← hrun', ← hrun] at ha
  rw [Parse.body_run, Parse.body_run, ParseState.checkpoint_entered source _ options]
  exact ha

/-- The end of a program that began at `start`, behind its statements. -/
def Parse.endProgram (B : NodeAlgebra) (mode : Mode) (start : Position) (body : List B.Statement) :
    Parse B.Program := do
  let span ← Parse.spanFrom start
  let scope ← Parse.finishProgram
  pure (B.program span mode body scope)

theorem runProgram_entered {B : NodeAlgebra} (source : Source) (options : ParseOptions)
    (recording : Bool) :
    runProgram B source options recording =
      (Parse.body (Rules.ofSource B source) .eof >>=
          Parse.endProgram B options.mode (ParseState.entered source options).start)
        ⟨source, roundsFor source.size, recording⟩ (.entered source options) :=
  rfl

theorem Agree.anywhere {α β : Type} {f : α → β} {d d' m n : Nat}
    {x : Except ParseError α × ParseState} {y : Except ParseError β × ParseState}
    (h : Agree Invariant.anything d d' f x y) :
    Agree Invariant.anything m n f x y := by
  cases h with
  | ok => exact .ok trivial
  | error => exact .error trivial

theorem Agrees.endProgram (mode : Mode) (start : Position) (body : List Stmt) :
    Agrees Invariant.anything Anywhere 1 0 id (Parse.endProgram .tree mode start body)
      (Parse.endProgram .tree mode start body) :=
  bind (spanFrom start) fun _ => bind finishProgram fun _ => pure rfl

/-- Where the prologue makes a sloppy program strict, parsing comes to what it comes to in strict
code: the same tree, or the same error. The list of statements is begun again, and its state is that
of a program whose code is strict from the start, apart from what was reported. -/
theorem restart_invisible {source : Source} {options : ParseOptions} {scan : Parse.BodyScan Stmt}
    {t : ParseState} (h : prologueSwitch source options = some (scan, t)) :
    (parseProgram source options).outcome =
    (parseProgram source { options with strict := true }).outcome ∧
      scan.body = [] ∧ scan.prologue = true ∧
      t = (ParseState.entered source { options with strict := true }).withJournal t.journal := by
  obtain ⟨rfl, ht, hb⟩ := body_of_prologueSwitch h
  refine ⟨?_, rfl, rfl, ht⟩
  have hx : Agree Invariant.anything 1 1 id
      (runProgram .tree source { options with strict := true } false)
      (runProgram .tree source options false) := by
    rw [runProgram_entered, runProgram_entered, ParseState.start_entered source _ options]
    refine hb.bind fun {body s j} _ => ?_
    rw [List.map_id]
    exact .anywhere (d := 0) ((Agrees.endProgram options.mode _ body).run trivial trivial trivial)
  show (runProgram .tree source options false).1 = (runProgram .tree source _ false).1
  generalize runProgram .tree source options false = x at hx ⊢
  generalize runProgram .tree source { options with strict := true } false = y at hx ⊢
  cases hx <;> rfl

theorem restart_invisible_behind_directive :
    ∃ scan t, prologueSwitch (.ofString "'a';'use strict';var x" "") {} = some (scan, t) ∧
      (parseProgram (.ofString "'a';'use strict';var x" "") {}).outcome =
        (parseProgram (.ofString "'a';'use strict';var x" "") { strict := true }).outcome := by
  have h : (prologueSwitch (.ofString "'a';'use strict';var x" "") {}).isSome =
      true := by decide +kernel
  obtain ⟨⟨scan, t⟩, ht⟩ := Option.isSome_iff_exists.1 h
  exact ⟨scan, t, ht, (restart_invisible ht).1⟩

end EcmaFront
