/-!
What code a parse starts in.
-/

set_option autoImplicit false

namespace EcmaFront

/-- The kind of code that a function or a whole source is. -/
inductive Mode where
  | script
  /-- Module code is always strict. -/
  | module
  | plainFunction | getter | setter
  /-- A function in an object literal, written without `function`. -/
  | method
  | arrowFunction
  deriving DecidableEq, Repr, Inhabited

/-- Code that may name a property of `super`. -/
def Mode.isMethodLike : Mode → Bool
  | .getter | .setter | .method => true
  | _ => false

/-- How the body of a function is written; that of an arrow function may be one expression. -/
inductive FunctionForm where
  | normal | arrow
  deriving DecidableEq, Repr, Inhabited

/-- Whether a function constructs objects of a class, and whether the class extends another one. -/
inductive ConstructorKind where
  | none | base | derived
  deriving DecidableEq, Repr, Inhabited

structure ParseOptions where
  mode : Mode := .script
  strict : Bool := false
  constructorKind : ConstructorKind := .none
  deriving DecidableEq, Repr

namespace ParseOptions

def module : ParseOptions := ⟨.module, true, .none⟩

def startsStrict (o : ParseOptions) : Bool := o.strict || o.mode == .module

end ParseOptions

/-- How to parse one function from its parameters on. -/
structure FunctionOptions where
  mode : Mode := .plainFunction
  form : FunctionForm := .normal
  constructorKind : ConstructorKind := .none
  strict : Bool := false
  name : Option String := Option.none
  deriving DecidableEq, Repr

end EcmaFront
