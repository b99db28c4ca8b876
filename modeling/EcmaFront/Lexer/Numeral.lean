import EcmaFront.Lexer.View

/-!
Numeric literals: decimal with a fraction and an exponent, the three prefixed radices, and in sloppy
code the two forms with a leading zero, octal when all digits are octal and decimal otherwise.
-/

set_option autoImplicit false

namespace EcmaFront.View

/-- The digits from `i` on, the last one first, and the offset after them. -/
def digitsFrom (v : View) (radix : Nat) : Nat → Nat → List Nat → List Nat × Nat
  | 0, i, digits => (digits, i)
  | n + 1, i, digits =>
    match (v.code i).digit? radix with
    | some d => v.digitsFrom radix n (i + 1) (d :: digits)
    | none => (digits, i)

def digits (v : View) (radix : Nat) (i : Nat) : List Nat × Nat :=
  let (digits, stop) := v.digitsFrom radix (v.steps i) i []
  (digits.reverse, stop)

def isLetter (v : View) (i : Nat) (letter : CodePoint) : Bool :=
  v.code i == letter || v.code i + 0x20 == letter

/-- The fraction and the exponent after the integer digits of a decimal literal. -/
def decimalTail (v : View) (whole : List Nat) (i : Nat) : Option Binary64 × Nat :=
  let (fraction, i) := if v.code i == 0x2E then v.digits 10 (i + 1) else ([], i)
  let value (exponent : Int) := Binary64.ofDecimal (whole ++ fraction) (exponent - fraction.length)
  if !v.isLetter i 0x65 then (some (value 0), i)
  else
    let negative := v.code (i + 1) == 0x2D
    let i := if negative || v.code (i + 1) == 0x2B then i + 2 else i + 1
    match v.digits 10 i with
    | ([], i) => (none, i)
    | (exponent, i) =>
      let exponent := Int.ofNat (exponent.foldl (fun acc d => acc * 10 + d) 0)
      (some (value (if negative then -exponent else exponent)), i)

/-- At least one digit of the radix, after the two characters that name it. -/
def radixLiteral (v : View) (radix : Nat) (i : Nat) : Option Binary64 × Nat :=
  match v.digits radix (i + 2) with
  | ([], stop) => (none, stop)
  | (digits, stop) => (some (Binary64.ofDigits radix digits), stop)

def endNumeral (v : View) : Option Binary64 × Nat → Scan
  | (none, i) => (.error .numericLiteral, i)
  | (some value, i) =>
    let after := v.code i
    if after.isIdentifierStart || after == 0x5C || after.isDecimalDigit then
      (.error .identifierAfterNumber, i)
    else (.ok (.number, .number value), i)

def numeral (v : View) (strict : Bool) (i : Nat) : Scan :=
  let zero := v.code i == 0x30
  if zero && v.isLetter (i + 1) 0x78 then v.endNumeral (v.radixLiteral 16 i)
  else if zero && v.isLetter (i + 1) 0x6F then v.endNumeral (v.radixLiteral 8 i)
  else if zero && v.isLetter (i + 1) 0x62 then v.endNumeral (v.radixLiteral 2 i)
  else
    let (digits, stop) := v.digits 10 i
    if zero && 1 < digits.length then
      let octal := digits.all (· < 8)
      if strict then (.error (if octal then .strictOctalLiteral else .strictLeadingZero), stop)
      else if octal then v.endNumeral (some (Binary64.ofDigits 8 digits), stop)
      else v.endNumeral (v.decimalTail digits stop)
    else v.endNumeral (v.decimalTail digits stop)

end EcmaFront.View
