import EcmaFront.Program
import EcmaFront.Proofs.AgreeStatement

/-!
Checking a program and parsing it to a tree come to the same end: the same fault, or the same scope.
The digests that a check keeps are those that parsing would keep.
-/

set_option autoImplicit false

namespace EcmaFront

def Invariant.anything : Invariant where
  recordings _ _ := True
  holds _ _ _ := True
  broken _ _ _ := True
  breaks _ := trivial
  shallower _ := trivial
  quiet _ _ := trivial
  brokenQuiet _ _ := trivial
  rewind _ _ := trivial
  commit _ _ := trivial
  use _ _ := trivial
  write _ _ := trivial
  directSuper _ := trivial
  superBinding _ := trivial
  declare _ _ _ _ := trivial
  strict _ _ := trivial
  activate _ _ := trivial
  mark _ _ _ := trivial
  brokenMark _ _ _ := trivial
  pushBlock _ _ := trivial
  pushFunction _ _ _ := trivial
  finishBlock _ _ := trivial
  finishFunction _ := trivial
  backtrack _ _ := trivial
  restart _ _ _ := trivial
  firstAccessor _ _ := trivial
  keep _ _ _ := trivial

def Invariant.sameJournal : Invariant where
  recordings r r' := r = r'
  holds _ s j := j = s.journal
  broken _ s j := j = s.journal
  breaks h := h
  shallower h := h
  quiet h hs := h.trans hs.journal.symm
  brokenQuiet h hs := h.trans hs.journal.symm
  rewind _ h := h
  commit _ h := h
  use _ h := h
  write _ h := h
  directSuper h := h
  superBinding h := h
  declare _ _ _ h := h
  strict _ h := h
  activate _ h := h
  mark _ _ h := h
  brokenMark _ _ h := h
  pushBlock _ h := h
  pushFunction _ _ h := h
  finishBlock {d c s j} _ h := by
    unfold Parse.finishBlock
    rw [Parse.ask_run]
    cases s.scopes.top? <;> exact h
  finishFunction {d c s j} h := by
    unfold Parse.finishFunction
    rw [Parse.ask_run]
    cases s.scopes.top? <;> exact h
  backtrack _ h := by rw [h]; rfl
  restart _ _ h := by rw [h]; rfl
  firstAccessor _ h := by rw [h]; rfl
  keep digest hr h := by rw [h, hr]; rfl

namespace Agrees

open Parse

variable {A B : NodeAlgebra} {φ : NodeAlgebra.Hom A B} {I : Invariant} {r : Rules A} {r' : Rules B}

theorem finishProgram {D : Nat → Prop} : Agrees I D 1 0 id finishProgram finishProgram :=
  state fun _ _ => ite (fail _) finishFunction

theorem program (hr : RulesAgree φ I r r') (options : ParseOptions)
    (hpush : ∀ {s j}, I.holds 0 s j → I.holds 1
      (s.onScopes (·.push (Frame.program options.mode options.startsStrict
        options.constructorKind))) j) :
    Agrees I (· = 0) 0 0 φ.ofProgram (program r options) (program r' options) := by
  refine bind (k := 1) (scopes fun {d s j} hd hs => ?_) fun _ => bind next fun _ =>
    state fun t _ => ?_
  · subst hd
    exact hpush hs
  · refine bind (weaken (body (m := 0) hr _) fun _ => Nat.succ_pos _) fun body =>
      bind (spanFrom _) fun span => ?_
    exact bind finishProgram fun scope => pure (φ.program _ _ _ _)

end Agrees

theorem runProgram_agree {A B : NodeAlgebra} (φ : NodeAlgebra.Hom A B) (source : Source)
    (options : ParseOptions) (recording recording' : Bool) :
    Agree Invariant.anything 0 0 φ.ofProgram (runProgram A source options recording)
      (runProgram B source options recording') :=
  (Agrees.program (RulesAgree.bounded φ .anything _) options fun _ => trivial).run
    (c := ⟨source, roundsFor source.size, recording⟩) (s := .initial source)
    (j := (ParseState.initial source).journal) trivial rfl trivial

theorem runProgram_sameJournal {A B : NodeAlgebra} (φ : NodeAlgebra.Hom A B) (source : Source)
    (options : ParseOptions) (recording : Bool) :
    Agree Invariant.sameJournal 0 0 φ.ofProgram (runProgram A source options recording)
      (runProgram B source options recording) :=
  (Agrees.program (RulesAgree.bounded φ .sameJournal _) options fun h => h).run
    (c := ⟨source, roundsFor source.size, recording⟩) (s := .initial source)
    (j := (ParseState.initial source).journal) rfl rfl rfl

theorem Agree.eq_of_sameJournal {α β : Type} {f : α → β} {d d' : Nat}
    {x : Except ParseError α × ParseState} {y : Except ParseError β × ParseState}
    (h : Agree Invariant.sameJournal.toStillInvariant d d' f x y) :
    y = (x.1.map f, x.2) := by
  cases h with
  | ok h =>
    cases h
    rfl
  | error h =>
    cases h
    rfl

theorem outcome_check (source : Source) (options : ParseOptions) (recording recording' : Bool) :
    (runProgram .check source options recording).1 =
      (runProgram .tree source options recording').1.map (·.scope) := by
  have h := runProgram_agree .toClass source options recording' recording
  generalize runProgram .tree source options recording' = x at h ⊢
  generalize runProgram .check source options recording = y at h ⊢
  cases h <;> rfl

theorem error_of_check {source : Source} {options : ParseOptions} {recording : Bool}
    {e : ParseError} (h : (runProgram .check source options recording).1 = .error e)
    (recording' : Bool) :
    (runProgram .tree source options recording').1 = .error e := by
  have hc := (outcome_check source options recording recording').symm.trans h
  generalize (runProgram .tree source options recording').1 = y at hc ⊢
  cases y <;> cases hc
  rfl

theorem error_of_checkProgram {source : Source} {options : ParseOptions} {e : ParseError}
    (h : (checkProgram source options).outcome = .error e) :
    (parseProgram source options).outcome = .error e := by
  suffices hc : (runProgram .check source options true).1 = .error e from error_of_check hc false
  unfold checkProgram at h
  generalize runProgram .check source options true = x at h ⊢
  rcases x with ⟨_ | _, _⟩ <;> cases h
  rfl

theorem digests_check (source : Source) (options : ParseOptions) :
    (runProgram .check source options true).2.digests =
    (runProgram .tree source options true).2.digests := by
  have h := runProgram_sameJournal .toClass source options true
  generalize runProgram .tree source options true = x at h ⊢
  generalize runProgram .check source options true = y at h ⊢
  cases h with
  | ok h =>
    rw [h]
    rfl
  | error h =>
    rw [h]
    rfl

end EcmaFront
