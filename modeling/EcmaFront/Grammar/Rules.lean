import EcmaFront.Grammar.Parse
import EcmaFront.Tree.Algebra

/-!
The four phrases that the grammar nests without bound. Every other phrase is parsed by a plain
function of what parses these four, and every cycle of the grammar goes through one of them.
-/

set_option autoImplicit false

namespace EcmaFront

inductive BindingForm where
  | variable (kind : VariableKind)
  | parameter
  | catchParameter
  /-- Nothing is declared: the pattern assigns. -/
  | assignment
  deriving DecidableEq, Repr, Inhabited

inductive Phrase where
  /-- A statement or a declaration. -/
  | item
  /-- A statement where a declaration may not stand. -/
  | statement
  | assignment
  | pattern (form : BindingForm)
  deriving DecidableEq, Repr, Inhabited

/-- What a phrase is parsed to. Text may turn out to be no assignment pattern without being
rejected. -/
abbrev Phrase.Result (B : NodeAlgebra) : Phrase → Type
  | .item => B.Statement
  | .statement => B.Statement
  | .assignment => B.Expression
  | .pattern _ => Option B.Pattern

abbrev Rules (B : NodeAlgebra) : Type := (phrase : Phrase) → Parse (phrase.Result B)

namespace Rules

variable {B : NodeAlgebra}

def item (r : Rules B) : Parse B.Statement := r .item

def statement (r : Rules B) : Parse B.Statement := r .statement

def assignment (r : Rules B) : Parse B.Expression := r .assignment

def pattern (r : Rules B) (form : BindingForm) : Parse (Option B.Pattern) := r (.pattern form)

end Rules

end EcmaFront
