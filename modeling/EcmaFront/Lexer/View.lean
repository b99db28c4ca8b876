import EcmaFront.Text.Buffer
import EcmaFront.Token.Basic
import EcmaFront.Lexer.Fault

/-!
What a lexer may look at: the units of a buffer up to a limit. Beyond the limit every code point is
zero, which no token contains, so readers need not ask for the end at each step. Steps go over the
width of what was decoded and may end beyond the limit.
-/

set_option autoImplicit false

namespace EcmaFront

structure View where
  buffer : Buffer
  limit : Nat
  deriving DecidableEq, Repr

/-- A place to read on from, and the line it is on. -/
structure Place where
  offset : Nat
  line : Nat
  lineStart : Nat
  deriving DecidableEq, Repr, Inhabited

namespace View

def code (v : View) (i : Nat) : CodePoint := if i < v.limit then v.buffer.code i else 0

def after (v : View) (i : Nat) : Nat := i + v.buffer.width (v.code i)

def steps (v : View) (i : Nat) : Nat := v.limit - i + 1

def isEnd (v : View) (i : Nat) : Bool := v.limit ≤ i

/-- The place after the line terminator at `p`. A carriage return and a line feed are one. -/
def afterLine (v : View) (p : Place) : Place :=
  let offset := if v.code p.offset == 0x0D && v.code (p.offset + 1) == 0x0A then p.offset + 2
    else v.after p.offset
  ⟨offset, nextLine p.line, offset⟩

theorem lt_after (v : View) (i : Nat) : i < v.after i := by
  have := v.buffer.encoding.width_pos (v.code i)
  simp only [after, Buffer.width]; omega

end View

/-- What the reader of a token found, with the offset where it stopped. -/
abbrev Scan := Except LexFault (TokenKind × TokenValue) × Nat

end EcmaFront
