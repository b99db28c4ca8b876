import EcmaFront.Number.Shortest
import EcmaFront.Options
import EcmaFront.Scope.Frame
import EcmaFront.Token.Location

/-!
The parts that nodes are put together from. They leave open what an expression, a statement or a
pattern is: a tree has its own, a mere check of the text has others.
-/

set_option autoImplicit false

namespace EcmaFront

/-- The key of a property in an object literal or pattern. -/
inductive PropertyKey (E : Type) where
  | ident (name : String)
  | string (value : String)
  | number (value : Binary64)
  | computed (key : E)

def PropertyKey.name? {E : Type} : PropertyKey E → Option String
  | .ident name | .string name => some name
  | .number value => some value.text
  | .computed _ => none

inductive PropertyKind where
  | value | shorthand | getter | setter | method
  deriving DecidableEq, Repr, Inhabited

structure Parameter (E P : Type) where
  span : Span
  pattern : P
  default : Option E
  isRest : Bool

/-- A body in braces, or the expression of an arrow function. -/
inductive FunctionBody (E S : Type) where
  | block (statements : List S)
  | expression (result : E)

structure FunctionParts (E S P : Type) where
  span : Span
  /-- The offset of the parameters. -/
  parametersStart : Nat
  bodySpan : Span
  name : Option String
  mode : Mode
  form : FunctionForm
  constructorKind : ConstructorKind
  parameters : List (Parameter E P)
  body : FunctionBody E S
  scope : ScopeSummary

structure Declarator (E P : Type) where
  span : Span
  target : P
  init : Option E

/-- A list of declarators with its keyword. -/
structure VariableDeclaration (E P : Type) where
  span : Span
  kind : VariableKind
  declarators : List (Declarator E P)

structure Block (S : Type) where
  span : Span
  body : List S
  scope : Environment

/-- The first part in the head of a `for` statement; `D` is a declaration. -/
inductive ForInit (D E : Type) where
  | declaration (declaration : D)
  | expression (expression : E)

/-- What a `for-in` or `for-of` statement assigns to. -/
inductive ForTarget (D E P : Type) where
  | declaration (declaration : D)
  | expression (target : E)
  | pattern (pattern : P)

structure SwitchClause (E S : Type) where
  span : Span
  /-- The `default` clause has no test. -/
  test : Option E
  body : List S

/-- The handler of a `try` statement; `B` is a block. -/
structure CatchClause (B P : Type) where
  span : Span
  parameter : P
  body : B

structure PatternElement (E P : Type) where
  span : Span
  target : P
  default : Option E

structure PatternProperty (E P : Type) where
  span : Span
  key : PropertyKey E
  target : P
  default : Option E
  shorthand : Bool

end EcmaFront
