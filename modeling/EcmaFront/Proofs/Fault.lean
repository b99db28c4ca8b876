import EcmaFront.Grammar.Statement
import Mathlib.Tactic.SplitIfs

/-!
The faults that rules of the grammar find in what was read. None of them is a fault of a token or of
the parser.
-/

set_option autoImplicit false

namespace EcmaFront

/-- The cause lies in what the tokens are, not in a fault of one of them and not in the parser. -/
def Cause.isRule : Cause → Bool
  | .lexical _ | .noScope | .notAFunction => false
  | _ => true

theorem Cause.kind_ne_lexer {cause : Cause} (h : cause.isRule = true) : cause.kind ≠ .lexer := by
  revert h
  cases cause <;> simp [isRule, kind]

/-- The text breaks a rule, and no bound was too low. -/
structure Cause.IsFault (cause : Cause) : Prop where
  isRule : cause.isRule = true
  ne_exhausted : cause ≠ .exhausted

namespace Parse

variable {name : String} {conflicts : Conflicts} {strict : Bool} {cause : Cause}

theorem isFault_of_bindingFault? {form : BindingForm}
    (h : bindingFault? form name conflicts strict = some cause) :
    cause.IsFault := by
  simp only [bindingFault?] at h
  split_ifs at h <;> cases h <;> exact ⟨rfl, nofun⟩

theorem isFault_of_functionNameFault? (h : functionNameFault? name conflicts strict = some cause) :
    cause.IsFault := by
  simp only [functionNameFault?] at h
  split_ifs at h <;> cases h <;> exact ⟨rfl, nofun⟩

theorem isFault_of_arityFault? {E P : Type} {mode : Mode} {ps : List (Parameter E P)}
    (h : arityFault? mode ps = some cause) : cause.IsFault := by
  unfold arityFault? at h
  split at h
  case h_2 =>
    split_ifs at h
    cases h
    exact ⟨rfl, nofun⟩
  all_goals cases h <;> exact ⟨rfl, nofun⟩

theorem isFault_of_eachFault? {B : NodeAlgebra} {list : DeclarationList B} {loop : EachLoop}
    (h : eachFault? list loop = some cause) : cause.IsFault := by
  simp only [eachFault?] at h
  split_ifs at h <;> cases h <;> exact ⟨rfl, nofun⟩

theorem isFault_of_addAccessorKey {E : Type} {names : PropertyNames} {key : PropertyKey E}
    {kind : PropertyKind} (h : names.addAccessorKey key kind = .error cause) : cause.IsFault := by
  unfold PropertyNames.addAccessorKey PropertyNames.addAccessor at h
  split at h
  · dsimp only at h
    split_ifs at h <;> cases h <;> exact ⟨rfl, nofun⟩
  · cases h

theorem isFault_of_addDataKey {E : Type} {names : PropertyNames} {key : PropertyKey E}
    (h : names.addDataKey key = .error cause) : cause.IsFault := by
  unfold PropertyNames.addDataKey PropertyNames.addData at h
  split at h
  · split at h
    · cases h
    · dsimp only at h
      split_ifs at h
      cases h
      exact ⟨rfl, nofun⟩
  · cases h

theorem isFault_of_continueFault? {label : Option Label}
    (h : continueFault? name label = some cause) :
    cause.IsFault := by
  unfold continueFault? at h
  split at h
  · cases h
    exact ⟨rfl, nofun⟩
  · split_ifs at h
    cases h
    exact ⟨rfl, nofun⟩

theorem isFault_of_breakFault? {label : Option Label} (h : breakFault? name label = some cause) :
    cause.IsFault := by
  unfold breakFault? at h
  split at h <;> cases h
  exact ⟨rfl, nofun⟩

end Parse

end EcmaFront
