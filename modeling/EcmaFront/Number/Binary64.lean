/-!
Binary64 numbers as their bits, and rounding to them in exact arithmetic. Only what literals need is
here: rounding a quotient of naturals, and reading digits in a radix one at a time.
-/

set_option autoImplicit false

namespace EcmaFront

structure Binary64 where
  bits : UInt64
  deriving DecidableEq, Repr, Inhabited

namespace Binary64

def zero : Binary64 := ⟨0⟩

def infinity : Binary64 := ⟨0x7FF0000000000000⟩

/-- The nearest integer to a quotient; a half goes to the even neighbour. -/
def roundDiv (num den : Nat) : Nat :=
  let q := num / den
  let r := num % den
  if 2 * r < den then q else if den < 2 * r then q + 1 else q + q % 2

/-- The greatest `e` with `2 ^ e * den ≤ num`, for positive arguments. -/
def ratioLog (num den : Nat) : Int :=
  let e : Int := Int.ofNat num.log2 - Int.ofNat den.log2
  let reached := if 0 ≤ e then den * Nat.pow 2 e.toNat ≤ num else den ≤ num * Nat.pow 2 (-e).toNat
  if reached then e else e - 1

/-- The nearest number to a quotient, half to even, infinity beyond the largest. The significand of
the result is an integer below `2 ^ 53` times `2 ^ q`; below the normal range `q` stays at its
least. -/
def ofRatio (num den : Nat) : Binary64 :=
  if num = 0 then zero else
    let q := max (ratioLog num den - 52) (-1074)
    let significand :=
      if 0 ≤ q then roundDiv num (den * Nat.pow 2 q.toNat)
      else roundDiv (num * Nat.pow 2 (-q).toNat) den
    let bits := (q + 1074).toNat * Nat.pow 2 52 + significand
    if bits < 0x7FF0000000000000 then ⟨UInt64.ofNat bits⟩ else infinity

def ofNat (n : Nat) : Binary64 := ofRatio n 1

def roundNat (n : Nat) : Nat :=
  if n < Nat.pow 2 53 then n else
    let unit := Nat.pow 2 (n.log2 - 52)
    roundDiv n unit * unit

/-- Digits read from the left, the value rounded after each product and after each sum. -/
def ofDigits (radix : Nat) (digits : List Nat) : Binary64 :=
  ofNat (digits.foldl (fun acc d => roundNat (roundNat (acc * radix) + d)) 0)

/-- The nearest number to `digits * 10 ^ exponent`. Out of range is told from the place of the
leading digit, so a large exponent costs nothing. -/
def ofDecimal (digits : List Nat) (exponent : Int) : Binary64 :=
  let digits := digits.dropWhile (· == 0)
  let place := Int.ofNat digits.length + exponent
  if digits.isEmpty || place < -330 then zero
  else if 310 < place then infinity
  else
    let value := digits.foldl (fun acc d => acc * 10 + d) 0
    if 0 ≤ exponent then ofNat (value * Nat.pow 10 exponent.toNat)
    else ofRatio value (Nat.pow 10 (-exponent).toNat)

def isNegative (x : Binary64) : Bool := Nat.pow 2 63 ≤ x.bits.toNat

def field (x : Binary64) : Nat := x.bits.toNat / Nat.pow 2 52 % Nat.pow 2 11

def fraction (x : Binary64) : Nat := x.bits.toNat % Nat.pow 2 52

end Binary64

end EcmaFront
