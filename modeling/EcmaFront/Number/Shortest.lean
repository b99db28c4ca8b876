import EcmaFront.Number.Binary64

/-!
The shortest decimal text that reads back as a given number. Of the decimals with the fewest digits
in the interval that rounds to the number, the nearest is taken, the greater one of two equally
near. The text never has an exponent.
-/

set_option autoImplicit false

namespace EcmaFront

namespace Shortest

/-- A positive number and the interval that rounds to it, all over one denominator. -/
structure Target where
  low : Nat
  value : Nat
  high : Nat
  den : Nat
  /-- Whether the ends of the interval round to the number. -/
  closed : Bool
  deriving DecidableEq, Repr

/-- The gap below a power of two is half the gap above it, except at the least normal number. -/
def Target.ofBinary64 (x : Binary64) : Target :=
  let significand := if x.field = 0 then x.fraction else x.fraction + Nat.pow 2 52
  let exponent : Int := max (Int.ofNat x.field) 1 - 1077
  let low := 4 * significand - (if x.fraction = 0 && 1 < x.field then 1 else 2)
  let scale := Nat.pow 2 exponent.toNat
  ⟨low * scale, 4 * significand * scale, (4 * significand + 2) * scale, Nat.pow 2 (-exponent).toNat,
    significand % 2 == 0⟩

structure Decimal where
  digits : Nat
  exponent : Int
  deriving DecidableEq, Repr

/-- The value `digits * 10 ^ exponent` over the target's denominator, as a quotient. -/
def Decimal.scaled (d : Decimal) (den : Nat) : Nat × Nat :=
  (d.digits * Nat.pow 10 d.exponent.toNat * den, Nat.pow 10 (-d.exponent).toNat)

def Target.contains (t : Target) (d : Decimal) : Bool :=
  let (num, den) := d.scaled t.den
  if t.closed then t.low * den ≤ num && num ≤ t.high * den
    else t.low * den < num && num < t.high * den

/-- The two neighbours of the number among the multiples of `10 ^ exponent`, and whether the upper
one is at least as near. -/
def Target.neighbours (t : Target) (exponent : Int) : Decimal × Decimal × Bool :=
  let num := t.value * Nat.pow 10 (-exponent).toNat
  let den := t.den * Nat.pow 10 exponent.toNat
  let floor := num / den
  (⟨floor, exponent⟩, ⟨floor + 1, exponent⟩, den ≤ 2 * (num % den))

/-- The multiple of `10 ^ exponent` to print, if one reads back. -/
def Target.pick? (t : Target) (exponent : Int) : Option Decimal :=
  let (below, above, upper) := t.neighbours exponent
  match t.contains below, t.contains above with
  | true, true => some (if upper then above else below)
  | true, false => some below
  | false, true => some above
  | false, false => none

/-- The first grid with a hit, from the coarsest; the last one is as fine as any number needs. -/
def Target.pick (t : Target) : Nat → Int → Decimal
  | 0, exponent => (t.neighbours exponent).1
  | n + 1, exponent => (t.pick? exponent).getD (t.pick n (exponent - 1))

/-- One less than the number of digits before the point; negative for a number below one. -/
def leadingPlace (num den : Nat) : Int :=
  if den ≤ num then Int.ofNat (Nat.toDigits 10 (num / den)).length - 1
  else -Int.ofNat (Nat.toDigits 10 ((den - 1) / num)).length

def Decimal.strip (d : Decimal) : Nat → Decimal
  | 0 => d
  | n + 1 => if d.digits % 10 = 0 then Decimal.strip ⟨d.digits / 10, d.exponent + 1⟩ n else d

def zeros (n : Nat) : List Char := List.replicate n '0'

def Decimal.text (d : Decimal) : List Char :=
  let digits := Nat.toDigits 10 d.digits
  if 0 ≤ d.exponent then digits ++ zeros d.exponent.toNat
  else
    let places := (-d.exponent).toNat
    let digits := zeros (places + 1 - digits.length) ++ digits
    digits.take (digits.length - places) ++ '.' :: digits.drop (digits.length - places)

end Shortest

namespace Binary64

/-- The shortest decimal that reads back as a positive finite number. -/
def shortest (x : Binary64) : Shortest.Decimal :=
  let target := Shortest.Target.ofBinary64 x
  (target.pick 17 (Shortest.leadingPlace target.value target.den)).strip 20

def text (x : Binary64) : String :=
  let sign := if x.isNegative then ['-'] else []
  if x.field = 2047 then
    if x.fraction = 0 then String.ofList (sign ++ ['i', 'n', 'f']) else "NaN"
  else if x.field = 0 && x.fraction = 0 then String.ofList (sign ++ ['0'])
  else String.ofList (sign ++ x.shortest.text)

end Binary64

end EcmaFront
