import EcmaFront.Proofs.Alike
import EcmaFront.Proofs.Consumption
import EcmaFront.Proofs.Fault

/-!
The steps of the grammar that ask for no other phrase come to an end: those that bind names and
check what was read, and those that look ahead over some tokens.
-/

set_option autoImplicit false

namespace EcmaFront.Parse

variable {α : Type} {c : ParseContext} {s : ParseState}

namespace Alike

/-! Names. -/

theorem settle {result : Except Cause α} {extent : Extent}
    (h : ∀ cause, result = .error cause → cause ≠ .exhausted) :
    Alike c s (settle result extent) (Parse.settle result extent) := by
  cases result with
  | ok a => exact pure trivial
  | error cause => exact failAt (h cause rfl)

theorem declareBinding {form : BindingForm} {name : String} {extent : Extent} :
    Alike c s (declareBinding form name extent) (Parse.declareBinding form name extent) := by
  refine ask.bind fun conflicts s₁ _ => state_bind ?_
  split
  · next hf => exact failAt (isFault_of_bindingFault? hf).ne_exhausted
  · split
    · exact modify
    · exact pure trivial

theorem write {name : String} {extent : Extent} :
    Alike c s (write name extent) (Parse.write name extent) :=
  state_bind (ite (fun _ => failAt nofun) fun _ => modifyScopes)

theorem writeAll (writes : List (String × Extent)) :
    Alike c s (writeAll writes) (Parse.writeAll writes) := by
  induction writes generalizing s with
  | nil => exact pure trivial
  | cons w rest ih => exact write.bind fun _ _ _ => ih

theorem commitWrites {point : Checkpoint} :
    Alike c s (commitWrites point) (Parse.commitWrites point) :=
  ask_bind (writeAll _)

theorem noteAssignment {B : NodeAlgebra} {target : B.Expression} {extent : Extent} :
    Alike c s (noteAssignment B target extent) (Parse.noteAssignment B target extent) := by
  unfold Parse.noteAssignment
  split
  · exact write
  · exact pure trivial

theorem bindName {B : NodeAlgebra} {form : BindingForm} {name : String} {start : Position}
    {extent : Extent} :
    Alike c s (bindName B form name start extent) (Parse.bindName B form name start extent) := by
  refine spanFrom_bind ?_
  split
  · exact modifyScopes_bind (modify_bind (pure trivial))
  · exact declareBinding.bind fun _ _ _ => pure trivial

theorem bindingName {B : NodeAlgebra} {form : BindingForm} :
    Alike c s (bindingName B form) (Parse.bindingName B form) :=
  state_bind (ite (fun _ => next_bind bindName) fun _ => unexpected)

/-! Functions. -/

theorem checkParameters {E P : Type} {h : FunctionHeader} {ps : List (Parameter E P)} :
    Alike c s (checkParameters h ps) (Parse.checkParameters h ps) := by
  unfold Parse.checkParameters
  split
  · next hf => exact fail (isFault_of_arityFault? hf).ne_exhausted
  · exact state_bind (ite (fun _ => fail nofun) fun _ => pure trivial)

theorem consumeArrow : Alike c s consumeArrow Parse.consumeArrow :=
  state_bind (ite (fun _ => unexpected) fun _ => ite (fun _ => fail nofun) fun _ => modify)

theorem recordFunction {E S P : Type} {f : FunctionParts E S P} :
    Alike c s (recordFunction f) (Parse.recordFunction f) :=
  context_bind (ite (fun _ => emit_bind modify) fun _ => pure trivial)

theorem enableStrict {directive : Extent} :
    Alike c s (enableStrict directive) (Parse.enableStrict directive) := by
  refine state_bind ?_
  split
  · exact pure trivial
  · exact ite (fun _ => failAt nofun) fun _ => modifyScopes_bind
      (ite (fun _ => failAt nofun) fun _ => pure trivial)

/-! Jumps and operands. -/

theorem jump {B : NodeAlgebra} {labelFault? : String → Option Label → Option Cause}
    {allowed : Scopes → Bool} {outside : Cause} {make : Span → Option String → B.Statement}
    (hf : ∀ name label cause, labelFault? name label = some cause → cause ≠ .exhausted)
    (ho : outside ≠ .exhausted) :
    Alike c s (jump labelFault? allowed outside make)
      (Parse.jump labelFault? allowed outside make) := by
  refine state_bind (next_bind (state_bind ?_))
  have rest {t : ParseState} {label : Option String} : Alike c t
      (do
        Parse.consumeSemicolon
        let span ← Parse.spanFrom s.start
        Pure.pure (make span label))
      (do
        Parse.consumeSemicolon
        let span ← Parse.spanFrom s.start
        Pure.pure (make span label)) :=
          consumeSemicolon.bind fun _ _ _ => spanFrom_bind (pure trivial)
  extract_lets label
  cases label with
  | none => exact ite (fun _ => bind (failAt ho) fun _ _ _ => rest) fun _ => rest
  | some name =>
    dsimp only
    split
    · next hl => exact bind (fail (hf _ _ _ hl)) fun _ _ _ => rest
    · exact next_bind rest

theorem superExpression {B : NodeAlgebra} :
    Alike c s (superExpression (B := B)) Parse.superExpression := by
  refine state_bind (next_bind (state_bind ?_))
  extract_lets rest
  have hr {t : ParseState} : Alike c t (rest ()) (rest ()) := spanFrom_bind (pure trivial)
  split
  · exact ite (fun _ => modifyScopes_bind hr) fun _ => bind (failAt nofun) fun _ _ _ => hr
  · exact ite (fun _ => modifyScopes_bind hr) fun _ => bind (failAt nofun) fun _ _ _ => hr
  · exact ite (fun _ => modifyScopes_bind hr) fun _ => bind (failAt nofun) fun _ _ _ => hr
  · exact bind (failAt nofun) fun _ _ _ => hr

theorem newTarget {B : NodeAlgebra} {new : ParseState} :
    Alike c s (newTarget (B := B) new) (Parse.newTarget new) :=
  state_bind (ite (fun _ => unexpected) fun _ =>
    ite (fun _ => next_bind (spanFrom_bind (pure trivial))) fun _ => failAt nofun)

theorem applyAll {B : NodeAlgebra} {first : Extent} (operators : List Leading) {e : B.Expression} :
    Alike c s (applyAll first operators e) (Parse.applyAll first operators e) := by
  induction operators generalizing s e with
  | nil => exact pure trivial
  | cons operator rest ih =>
    refine bind (spanFrom_bind ?_) fun _ _ _ => ih
    split
    · exact ite (fun _ => noteAssignment.bind fun _ _ _ => pure trivial) fun _ => failAt nofun
    · exact state_bind (ite (fun _ => failAt nofun) fun _ => pure trivial)
    · exact failAt nofun

/-! Looking ahead. -/

theorem atLetDeclaration : Alike c s atLetDeclaration Parse.atLetDeclaration := by
  refine state_bind (ite (fun _ => pure trivial) fun _ => ask.bind fun kind s₁ _ => ?_)
  split <;> exact pure trivial

theorem accessor? : Alike c s accessor? Parse.accessor? := by
  refine state_bind ?_
  extract_lets kind?
  cases kind? with
  | none => exact pure trivial
  | some kind =>
    refine ask.bind fun kind s₁ _ => ?_
    split <;> exact pure trivial

theorem headKind? : Alike c s headKind? Parse.headKind? := by
  refine state_bind ?_
  split
  · exact pure trivial
  · exact pure trivial
  · exact atLetDeclaration.bind fun _ _ _ => pure trivial
  · exact pure trivial

variable {accept : ParseState → Bool}

theorem lowers_next {σ : Type} {t : ParseState} {x : σ} (hs : s.sight.Settled) (hc : s.Consumes t) :
    Lowers (α := α) (·.sight.Settled) s (.again x) t := ⟨hs.moves hc.moves, hc.rest_lt hs⟩

theorem skipBracketed {scan : BracketScan} (hs : s.sight.Settled) :
    Alike c s (skipBracketed accept scan) (Parse.skipBracketed accept scan)
      (Lowers (·.sight.Settled) s) := by
  refine state_bind ?_
  extract_lets skip
  have forward (depth : Nat) (hk : s.kind.isSolid = true) :
      Alike c s (skip depth) (skip depth) (Lowers (·.sight.Settled) s) :=
    state_bind (next_bind (pure (lowers_next hs (.of_kind rfl (.of_sight rfl) hk))))
  have close (hk : s.kind.isSolid = true) : Alike c s
      (if scan.depth ≤ 1 then do
        Parse.next
        let s ← state
        Pure.pure (Round.done (accept s))
      else skip (scan.depth - 1))
      (if scan.depth ≤ 1 then do
        Parse.next
        let s ← state
        Pure.pure (Round.done (accept s))
      else skip (scan.depth - 1)) (Lowers (·.sight.Settled) s) :=
    ite (fun _ => next_bind (state_bind (pure trivial))) fun _ => forward _ hk
  have slash (hk : s.kind = .slash ∨ s.kind = .slashEqual) : Alike c s
      (if endsOperand scan.previous then skip scan.depth else do
        Parse.modify .readRegexp
        if (← state).kind.isError then Pure.pure (Round.done false) else skip scan.depth)
      (if endsOperand scan.previous then skip scan.depth else do
        Parse.modify .readRegexp
        if (← state).kind.isError then Pure.pure (Round.done false) else skip scan.depth)
      (Lowers (·.sight.Settled) s) := by
    have hk' : s.kind.isSolid = true := by obtain hk | hk := hk <;> rw [hk] <;> rfl
    refine ite (fun _ => forward _ hk') fun _ => modify_bind
      (state_bind (ite (fun _ => pure trivial) fun _ => ?_))
    exact state_bind (next_bind (pure (lowers_next hs (.readRegexp hk))))
  split
  case h_1 | h_2 | h_3 => exact forward _ (by simp [*, TokenKind.isSolid, TokenKind.isError])
  case h_4 | h_5 | h_6 => exact close (by simp [*, TokenKind.isSolid, TokenKind.isError])
  case h_7 hk => exact slash (.inl hk)
  case h_8 hk => exact slash (.inr hk)
  case h_9 | h_10 | h_11 | h_12 => exact pure trivial
  case h_13 => exact forward _ (by simp_all [TokenKind.isSolid, TokenKind.isError])

theorem followsBrackets (hs : s.sight.Settled) (hr : s.sight.rest < c.rounds) :
    Alike c s (followsBrackets accept) (Parse.followsBrackets accept) :=
  state_bind ((repeatFrom (·.sight.Settled) hs hr fun _ _ hs => skipBracketed hs).bind fun _ _ _ =>
    modify_bind (pure trivial))

theorem atArrowFunction (hs : s.sight.Settled) (hr : s.sight.rest < c.rounds) :
    Alike c s atArrowFunction Parse.atArrowFunction := by
  refine state_bind ?_
  split
  · exact ask
  · exact followsBrackets hs hr
  · exact pure trivial

theorem labelRound (hs : s.sight.Settled) :
    Alike c s (labelRound ()) (Parse.labelRound ()) (Lowers (·.sight.Settled) s) := by
  refine state_bind (ite (fun _ => pure trivial) fun hk => ask.bind fun kind t hp =>
    ite (fun _ => pure trivial) fun hc => ?_)
  simp only [bne_iff_ne, ne_eq, not_not] at hk hc
  obtain ⟨hn, rfl⟩ : s.peekKind.1 = kind ∧ s.peekKind.2 = t := by simpa [peekKind] using hp
  have hg := (ParseState.peekKind_glances s).again
  exact next_bind (next_bind (pure (lowers_next hs (.of_again hk hg (.next _) rfl))))

theorem labelsLoop (hs : s.sight.Settled) (hr : s.sight.rest < c.rounds) :
    Alike c s labelsLoop Parse.labelsLoop :=
  state_bind ((repeatFrom (·.sight.Settled) hs hr fun _ _ hs => labelRound hs).bind fun _ _ _ =>
    modify_bind (pure trivial))

end Alike

end EcmaFront.Parse
