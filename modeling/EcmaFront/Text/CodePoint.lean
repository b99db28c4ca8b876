/-!
Code points as plain numbers. A unit buffer may hold what is no Unicode scalar value, a lone
surrogate or a six-byte sequence, so a code point is any number and `toChar` says what a reader of
it sees.
-/

set_option autoImplicit false

namespace EcmaFront

abbrev CodePoint := Nat

namespace CodePoint

/-- What no character can stand for is shown as the replacement character. -/
def toChar (code : CodePoint) : Char := if code.isValidChar then Char.ofNat code else '\uFFFD'

def isHighSurrogate (code : CodePoint) : Bool := 0xD800 ≤ code && code ≤ 0xDBFF

def isLowSurrogate (code : CodePoint) : Bool := 0xDC00 ≤ code && code ≤ 0xDFFF

def ofSurrogates (high low : CodePoint) : CodePoint :=
  (high - 0xD800) * 0x400 + (low - 0xDC00) + 0x10000

/-- The value of an ASCII digit or letter, when it is below the radix. -/
def digit? (radix : Nat) (code : CodePoint) : Option Nat :=
  let value :=
    if 0x30 ≤ code && code ≤ 0x39 then some (code - 0x30)
    else if 0x61 ≤ code && code ≤ 0x7A then some (code - 0x57)
    else if 0x41 ≤ code && code ≤ 0x5A then some (code - 0x37)
    else none
  value.filter (· < radix)

def isDecimalDigit (code : CodePoint) : Bool := 0x30 ≤ code && code ≤ 0x39

end CodePoint

end EcmaFront
