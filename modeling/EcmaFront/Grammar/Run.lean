import EcmaFront.Grammar.Statement

/-!
The grammar as a whole. Each phrase is parsed by parsers for phrases that may be nested one level
less, and the number of levels is taken from the length of the text: between four levels at least
one token is consumed, so that the levels never run out.
-/

set_option autoImplicit false

namespace EcmaFront

namespace Rules

variable (B : NodeAlgebra)

/-- The parser of each phrase in terms of parsers for the phrases inside. -/
def step (r : Rules B) : Rules B
  | .item => Parse.item r
  | .statement => Parse.statement r
  | .assignment => Parse.assignmentExpression r
  | .pattern form => Parse.pattern r form

/-- Parsers for phrases that are nested at most so many levels. -/
def bounded : Nat → (phrase : Phrase) → Parse (phrase.Result B)
  | 0, _ => Parse.fail .exhausted
  | n + 1, phrase => step B (bounded n) phrase

end Rules

def levelsFor (units : Nat) : Nat := 4 * units + 8

/-- Rounds enough for a text of so many units. A list that turns strict is read twice. -/
def roundsFor (units : Nat) : Nat := 2 * units + 8

end EcmaFront
