import EcmaFront.Proofs.LookingAhead
import EcmaFront.Proofs.Termination

/-!
A parse that traces its steps: wherever a phrase begins or ends, the steps of a reading must lead to
the state from the first token, or the parse breaks off. It never does. So the questions about
tokens ahead leave no trace in a parse.
-/

set_option autoImplicit false

namespace EcmaFront

open Parse (Alike Asking Reads Answers Lookahead)

/-- The phrase was read. Text that turned out to be no pattern was not, and the parse goes back over
it. -/
def Phrase.isRead {B : NodeAlgebra} : (phrase : Phrase) → phrase.Result B → Bool
  | .pattern _, a => a.isSome
  | .item, _ | .statement, _ | .assignment, _ => true

namespace Parse

variable {α : Type} {P : ParseState → Prop} {c : ParseContext} {s : ParseState}

open Classical in
noncomputable def demand (P : ParseState → Prop) : Parse Unit := do
  if P (← state) then pure () else fail .exhausted

/-- A step that breaks off where it begins in another state, or ends in one with a result that
counts. -/
noncomputable def within (P : ParseState → Prop) (counts : α → Bool) (p : Parse α) : Parse α := do
  demand P
  let a ← p
  if counts a then demand P
  pure a

theorem demand_run (hs : P s) : demand P c s = (.ok (), s) := by
  rw [demand, state_bind, if_pos hs]
  rfl

theorem bind_eq_self {p : Parse α} {f : α → Parse α}
    (h : ∀ a t, p c s = (.ok a, t) → f a c t = (.ok a, t)) :
    (p >>= f) c s = p c s := by
  simp only [Bind.bind]
  generalize p c s = x at h ⊢
  obtain ⟨e | a, t⟩ := x
  · rfl
  · exact h a t rfl

theorem within_eq {counts : α → Bool} {p : Parse α} (hs : P s)
    (ht : ∀ a t, p c s = (.ok a, t) → counts a = true → P t) : p.within P counts c s = p c s := by
  refine (bind_run (demand_run hs)).trans (bind_eq_self fun a t h => ?_)
  by_cases hc : counts a = true
  · rw [if_pos hc, bind_run (demand_run (ht a t h hc))]
    rfl
  · rw [if_neg hc]
    rfl

end Parse

/-- The rules of the grammar, which break off where a phrase begins in another state or was read up
to one. -/
noncomputable def Rules.traced (B : NodeAlgebra) (P : ParseState → Prop) : Nat → Rules B
  | 0, _ => Parse.fail .exhausted
  | n + 1, phrase => (step B (traced B P n) phrase).within P phrase.isRead

section

variable {P : ParseState → Prop} {c : ParseContext} {s t o : ParseState}

theorem Parse.Reads.moves {r : Rules .tree} (hr : Reads c r) {phrase : Phrase}
    {a : phrase.Result .tree} (hf : ∀ form, phrase = .pattern form → s.Admits form)
    (h : r phrase c s = (.ok a, t)) (ha : phrase.isRead a = true) :
    s.Moves t := by
  cases phrase with
  | item => exact (hr.item h).bare.moves
  | statement => exact (hr.statement h).bare.1.moves
  | assignment => exact (hr.assignment h).bare.moves
  | pattern form =>
    obtain ⟨a, rfl⟩ := Option.isSome_iff_exists.1 ha
    exact ((hr.pattern h).bare (hf form rfl)).moves

/-- By induction on the levels, as for rules that are watched: what holds behind every step holds
wherever a phrase begins. -/
theorem Parse.bounded_alike_traced (hP : ∀ {s t : ParseState}, P s → s.Moves t → P t) {n : Nat}
    {phrase : Phrase} (ho : P o) (hs : o.Stage o.ground o)
    (hf : ∀ form, phrase = .pattern form → o.ground.Admits form)
    (hr : 2 * o.sight.rest + 8 ≤ c.rounds) (hn : 4 * o.sight.rest + phrase.rank < n) :
    Alike c o (Rules.bounded .tree n phrase) (Rules.traced .tree P n phrase) := by
  induction n generalizing phrase o with
  | zero => cases hn
  | succ n ih =>
    have ha : Asking c (Rules.bounded .tree n) (Rules.traced .tree P n)
        (Ground.Follows o.ground.footing phrase o)
        phrase.rank o :=
      .of_levels hr (Nat.le_of_lt_succ hn) fun ht hK hr hn => ih (hP ho ht.moves)
        ht.here hK.admits hr hn
    have hstep := ha.step hs hf
    refine ⟨.trans ?_ hstep.same, hstep.gives⟩
    refine within_eq ho fun a t h hread => hP ho ?_
    exact (bounded_reads .tree c (n + 1)).moves (fun form hp => hs.admits (hf form hp))
      (hstep.same.symm.trans h) hread

end

section

variable {A B : NodeAlgebra} {I : Invariant} {D : Nat → Prop} {α β : Type} {f : α → β}
  {P : ParseState → Prop}

open Classical in
theorem Agrees.demand (hP : ∀ s j, P (s.withJournal j) ↔ P s) :
    Agrees I D 0 0 id (Parse.demand P) (Parse.demand P) :=
  state fun s j => by
    simp only [hP]
    exact ite (pure rfl) (fail _)

theorem Agrees.within (hP : ∀ s j, P (s.withJournal j) ↔ P s) {p : Parse α} {q : Parse β}
    {counts : α → Bool} {counts' : β → Bool} (hc : ∀ a, counts' (f a) = counts a)
    (h : Agrees I D 0 0 f p q) :
    Agrees I D 0 0 f (p.within P counts) (q.within P counts') :=
  bind (demand hP) fun _ => bind h fun a => by
    rw [hc]
    exact ite (bind (demand hP) fun _ => pure rfl) (pure rfl)

theorem RulesAgree.traced (φ : NodeAlgebra.Hom A B) (I : Invariant)
    (hP : ∀ s j, P (s.withJournal j) ↔ P s) (n : Nat) :
    RulesAgree φ I (Rules.traced A P n) (Rules.traced B P n) := by
  induction n with
  | zero => exact ⟨.fail _, .fail _, .fail _, fun _ => .fail _⟩
  | succ n ih =>
    constructor
    case item => exact .within hP (fun _ => rfl) (Agrees.item ih)
    case statement => exact .within hP (fun _ => rfl) (Agrees.statement ih)
    case assignment => exact .within hP (fun _ => rfl) (Agrees.assignmentExpression ih)
    case pattern =>
      exact fun form => .within hP (fun _ => Option.isSome_map) (Agrees.pattern ih form)

end

theorem Parse.asking_traced (source : Source) (options : ParseOptions) (recording : Bool)
    (k : Footing) :
    Asking ⟨source, roundsFor source.size, recording⟩ (Rules.ofSource .tree source)
      (Rules.traced .tree (ParseState.entered source options).Moves (levelsFor source.size))
      (Entry k) 4 (.entered source options) :=
  .entered fun ht hK hr hn => bounded_alike_traced .trans ht.moves ht.here hK.2 hr hn

/-- Looking ahead leaves no trace. In every state that the steps of a parse lead to in a well-formed
source, each of the questions about tokens ahead is answered and the whole state is what it was
before. So it is when the lexer looks for a colon, but that it forgets what was wrong with a token
that cannot be read. And every parse is made of such steps: it comes to the same if it breaks off
wherever a phrase begins in a state that they do not lead to, or was read up to one, and breaking
off is not what it comes to. -/
theorem lookahead_leaves_no_trace {source : Source} (hx : source.WellFormed)
    (options : ParseOptions) (functionOptions : FunctionOptions) (recording : Bool) :
    (∀ s, (ParseState.entered source options).Reaches s →
      (∀ (α : Type) (p : Parse α), Lookahead p →
        Answers ⟨source, roundsFor source.size, recording⟩ s p) ∧
      (∃ found, Parse.colonFollows ⟨source, roundsFor source.size, recording⟩ s =
        (.ok found, { s with lexer := { s.lexer with fault := none } })) ∧
      (s.kind.isError = false →
        Answers ⟨source, roundsFor source.size, recording⟩ s Parse.colonFollows)) ∧
    ((Parse.program (Rules.traced .tree (ParseState.entered source options).Moves
          (levelsFor source.size)) options).run source recording =
        runProgram .tree source options recording ∧
      (Parse.program (Rules.traced .check (ParseState.entered source options).Moves
          (levelsFor source.size)) options).run source recording =
        runProgram .check source options recording ∧
      (Parse.soleFunction (Rules.traced .tree (ParseState.entered source
          { strict := functionOptions.strict,
            constructorKind := functionOptions.constructorKind }).Moves
          (levelsFor source.size)) functionOptions).run source recording =
        (Parse.soleFunction (Rules.ofSource .tree source) functionOptions).run source recording) ∧
    ∀ e : ParseError, e.cause = .exhausted →
      (runProgram .tree source options recording).1 ≠ .error e ∧
      (runProgram .check source options recording).1 ≠ .error e ∧
      ((Parse.soleFunction (Rules.ofSource .tree source) functionOptions).run source
        recording).1 ≠ .error e := by
  have hp := Parse.program_alike (Parse.asking_traced source options recording {})
  have hf := Parse.soleFunction_alike functionOptions
    (Parse.asking_traced source _ recording .function)
  have hc := check_alike (.traced .toClass .sameJournal (fun _ _ => .rfl) _) hp
  refine ⟨fun s hm => ?_, ⟨hp.same, hc, hf.same⟩, fun e he => ⟨?_, ?_, ?_⟩⟩
  rotate_left
  · exact fun h => hp.cause_ne h he
  · exact fun h => hp.cause_ne (error_of_check h recording) he
  · exact fun h => hf.cause_ne h he
  have hs := hm.stands hx (ParseState.stands_entered source options)
  have hr : s.sight.rest < roundsFor source.size := by
    have h₁ := hm.rest_le (ParseState.settled_entered source options)
    have h₂ := (ParseState.rest_entered source options).1
    dsimp only [roundsFor]
    omega
  exact ⟨fun α p h => h.answered hx hs hr, ⟨_, Parse.colonFollows_run hx hs⟩,
    Parse.answers_colonFollows hx hs⟩

theorem lookahead_leaves_no_trace_at_arrow :
    (Source.ofString "(a)=>b" "").WellFormed ∧
      Parse.atArrowFunction ⟨.ofString "(a)=>b" "", 20, false⟩
        (.entered (.ofString "(a)=>b" "") {}) =
        (.ok true, .entered (.ofString "(a)=>b" "") {}) := by
  have hx : (Source.ofString "(a)=>b" "").WellFormed := ⟨_, Source.spells_utf8 _ "" 1⟩
  obtain ⟨found, h⟩ :=
    ((lookahead_leaves_no_trace hx {} {} false).1 _ (.inl (.of_sight rfl))).1 _ _ .atArrowFunction
  have ht : (Parse.atArrowFunction ⟨.ofString "(a)=>b" "", 20, false⟩
      (.entered (.ofString "(a)=>b" "") {})).1.toOption = some true := by decide +kernel
  refine ⟨hx, h.trans ?_⟩
  rw [show found = true from Option.some.inj ((congrArg (·.1.toOption) h).symm.trans ht)]

/-- Where a string has no end, that is forgotten when a colon is looked for. And between a regular
expression and the token after it, or where code has just turned strict, the current token is not
the one that is read again. -/
theorem looking_ahead_leaves_a_trace :
    (¬∀ source : Source, source.WellFormed → ∀ s, (ParseState.entered source {}).Reaches s →
      Answers ⟨source, roundsFor source.size, false⟩ s Parse.colonFollows) ∧
    ¬Answers ⟨.ofString "/a/" "", 20, false⟩ (ParseState.entered (.ofString "/a/" "") {}).readRegexp
      Parse.peekKind ∧
    ¬Answers ⟨.ofString "'use strict';010" "", 40, false⟩
      (Parse.enableStrict ⟨1, 0, 0, 12⟩ ⟨.ofString "'use strict';010" "", 40, false⟩
        (ParseState.entered (.ofString "'use strict';010" "") {}).next.next).2 Parse.peekKind := by
  refine ⟨fun h => ?_, fun h => ?_, fun h => ?_⟩
  · have h := h (.ofString "'abc" "") ⟨_, Source.spells_utf8 _ "" 1⟩ _ (.inl (.of_sight rfl))
    exact absurd (congrArg (·.lexer.fault) h.state) (by decide +kernel)
  · exact absurd (congrArg (·.token) h.state) (by decide +kernel)
  · exact absurd (congrArg (·.token) h.state) (by decide +kernel)

end EcmaFront
