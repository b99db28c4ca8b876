import EcmaFront.Number.Binary64
import EcmaFront.Token.Kind
import EcmaFront.Token.Location

/-!
Tokens: a kind, what the text means, and where it stands.
-/

set_option autoImplicit false

namespace EcmaFront

inductive TokenValue where
  | none
  /-- A name, a reserved word, or the characters that a string literal stands for. -/
  | text (value : String)
  | number (value : Binary64)
  | regexp (pattern flags : String)
  deriving DecidableEq, Repr, Inhabited

structure Token where
  kind : TokenKind
  value : TokenValue
  extent : Extent
  deriving DecidableEq, Repr, Inhabited

namespace Token

/-- What stands in for a token before the first one is read. -/
def blank : Token := ⟨.eof, .none, ⟨0, 0, 0, 0⟩⟩

def text? (t : Token) : Option String :=
  match t.value with
  | .text value => some value
  | _ => none

def text (t : Token) : String := t.text?.getD ""

def name (t : Token) : String := t.text?.getD t.kind.text

def numberValue (t : Token) : Binary64 :=
  match t.value with
  | .number value => value
  | _ => .zero

end Token

end EcmaFront
