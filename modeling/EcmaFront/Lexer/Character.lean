import EcmaFront.Text.Alphabetic
import EcmaFront.Text.Numeric

/-!
The classes of characters that tokens are made of.
-/

set_option autoImplicit false

namespace EcmaFront.CodePoint

def isLineTerminator (code : CodePoint) : Bool :=
  code == 0x0A || code == 0x0D || code == 0x2028 || code == 0x2029

def isWhitespace (code : CodePoint) : Bool :=
  code == 0x20 || code == 0x09 || code == 0x0B || code == 0x0C || code == 0xA0 || code == 0xFEFF ||
    code == 0x1680 || (0x2000 ≤ code && code ≤ 0x200A) || code == 0x202F ||
    code == 0x205F || code == 0x3000

def isAsciiStart (code : CodePoint) : Bool :=
  (0x61 ≤ code && code ≤ 0x7A) || (0x41 ≤ code && code ≤ 0x5A) || code == 0x24 || code == 0x5F

def isIdentifierStart (code : CodePoint) : Bool :=
  if code < 0x80 then isAsciiStart code else Alphabetic.ranges.contains code

/-- Beyond ASCII these are the alphabetic and numeric characters and the two zero-width joiners. -/
def isIdentifierPart (code : CodePoint) : Bool :=
  if code < 0x80 then isAsciiStart code || isDecimalDigit code
  else code == 0x200C || code == 0x200D || Alphabetic.ranges.contains code ||
    Numeric.ranges.contains code

def isControl (code : CodePoint) : Bool := code < 0x20 || (0x7F ≤ code && code ≤ 0x9F)

theorem isIdentifierPart_of_start {code : CodePoint} (h : isIdentifierStart code = true) :
    isIdentifierPart code = true := by
  unfold isIdentifierStart at h
  unfold isIdentifierPart
  split <;> simp_all

end EcmaFront.CodePoint
