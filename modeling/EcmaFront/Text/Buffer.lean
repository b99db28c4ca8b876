import EcmaFront.Text.CodePoint

/-!
Frozen unit buffers in three encodings. Decoding is total: a unit that is not there reads as zero,
and a malformed sequence is decoded as far as its lead unit says. A code point begins at every
index; what begins where is decided by the reader, who steps over the width of what was decoded.
-/

set_option autoImplicit false

namespace EcmaFront

inductive Encoding where
  | ascii | utf8 | utf16
  deriving DecidableEq, Repr

inductive Buffer where
  | ascii (bytes : Array UInt8)
  | utf8 (bytes : Array UInt8)
  | utf16 (units : Array UInt16)
  deriving DecidableEq, Repr

def Encoding.width : Encoding → CodePoint → Nat
  | .ascii, _ => 1
  | .utf8, code =>
    if code < 0x80 then 1
    else if code < 0x800 then 2
    else if code < 0x10000 then 3
    else if code < 0x200000 then 4
    else if code < 0x4000000 then 5
    else 6
  | .utf16, code => if code < 0x10000 then 1 else 2

theorem Encoding.width_pos (e : Encoding) (code : CodePoint) : 0 < e.width code := by
  cases e <;> simp only [width] <;> repeat' split
  all_goals decide

namespace Buffer

def encoding : Buffer → Encoding
  | .ascii _ => .ascii
  | .utf8 _ => .utf8
  | .utf16 _ => .utf16

def size : Buffer → Nat
  | .ascii bytes | .utf8 bytes => bytes.size
  | .utf16 units => units.size

def isEmpty (b : Buffer) : Bool := b.size == 0

def unit : Buffer → Nat → Nat
  | .ascii bytes, i | .utf8 bytes, i => (bytes[i]?.map UInt8.toNat).getD 0
  | .utf16 units, i => (units[i]?.map UInt16.toNat).getD 0

/-- The lead byte says how many bytes follow; each of them gives its six low bits, whatever it is.
A byte that leads nothing stands for itself. -/
def decodeBytes (unit : Nat → Nat) (i : Nat) : CodePoint :=
  let lead := unit i
  let next (k : Nat) := unit (i + k) % 0x40
  if lead < 0xC0 then lead
  else if lead < 0xE0 then lead % 0x20 * 0x40 + next 1
  else if lead < 0xF0 then (lead % 0x10 * 0x40 + next 1) * 0x40 + next 2
  else if lead < 0xF8 then ((lead % 0x08 * 0x40 + next 1) * 0x40 + next 2) * 0x40 + next 3
  else if lead < 0xFC then
    (((lead % 0x04 * 0x40 + next 1) * 0x40 + next 2) * 0x40 + next 3) * 0x40 + next 4
  else if lead < 0xFE then
    ((((lead % 0x02 * 0x40 + next 1) * 0x40 + next 2) * 0x40 + next 3) * 0x40 + next 4) * 0x40 +
      next 5
  else lead

/-- A high surrogate joins a low one that follows it; any other unit stands for itself. -/
def decodePair (unit : Nat → Nat) (i : Nat) : CodePoint :=
  let high := unit i
  let low := unit (i + 1)
  if CodePoint.isHighSurrogate high && CodePoint.isLowSurrogate low then CodePoint.ofSurrogates high
    low
  else high

def code (b : Buffer) (i : Nat) : CodePoint :=
  match b with
  | .ascii _ => b.unit i
  | .utf8 _ => decodeBytes b.unit i
  | .utf16 _ => decodePair b.unit i

def char (b : Buffer) (i : Nat) : Char := CodePoint.toChar (b.code i)

def width (b : Buffer) (code : CodePoint) : Nat := b.encoding.width code

/-- The places that a reader comes to from an index on who steps over the width of what is decoded,
each with the code point that begins there; and the index at which it stops. -/
def walk (b : Buffer) (i : Nat) : List (Nat × CodePoint) × Nat :=
  if i < b.size then
    let (places, stop) := b.walk (i + b.width (b.code i))
    ((i, b.code i) :: places, stop)
  else ([], i)
termination_by b.size - i
decreasing_by
  have := b.encoding.width_pos (b.code i)
  simp only [width]
  omega

theorem walk_of_lt {b : Buffer} {i : Nat} (h : i < b.size) :
    b.walk i = ((i, b.code i) :: (b.walk (i + b.width (b.code i))).1,
      (b.walk (i + b.width (b.code i))).2) := by
  rw [walk, if_pos h]

theorem walk_of_le {b : Buffer} {i : Nat} (h : b.size ≤ i) : b.walk i = ([], i) := by
  rw [walk, if_neg (Nat.not_lt.2 h)]

/-- The characters that begin in `[start, stop)`, each found where the one before it ends. The first
argument bounds the number of steps. -/
def charsFrom (b : Buffer) : Nat → Nat → Nat → List Char
  | 0, _, _ => []
  | n + 1, i, stop =>
    if i < stop then b.char i :: b.charsFrom n (i + b.width (b.code i)) stop else []

def slice (b : Buffer) (start stop : Nat) : String :=
  let stop := min stop b.size
  String.ofList (b.charsFrom (stop - start) start stop)

def window {α : Type} (units : Array α) (offset length : Nat) : Array α :=
  let start := min offset units.size
  units.extract start (min (start + length) units.size)

def pairs : List UInt8 → List UInt16
  | low :: high :: rest => (low.toUInt16 ||| (high.toUInt16 <<< 8)) :: pairs rest
  | _ => []

def ofUnits (units : Array UInt16) (offset length : Nat) : Buffer :=
  .utf16 (window units offset length)

/-- A window on raw bytes. For `utf16` the bytes are pairs and the window counts pairs. -/
def ofBytes (bytes : Array UInt8) (offset length : Nat) : Encoding → Buffer
  | .ascii => .ascii (window bytes offset length)
  | .utf8 => .utf8 (window bytes offset length)
  | .utf16 => ofUnits (pairs bytes.toList).toArray offset length

def unitsOfChar (c : Char) : List UInt16 :=
  let code := c.toNat
  if code < 0x10000 then [UInt16.ofNat code]
  else [UInt16.ofNat (0xD800 + (code - 0x10000) / 0x400),
    UInt16.ofNat (0xDC00 + (code - 0x10000) % 0x400)]

def unitsOfString (text : String) : Array UInt16 := (text.toList.flatMap unitsOfChar).toArray

def bytesOfString (text : String) : Array UInt8 := text.toUTF8.data

def ofString (text : String) : Buffer := .utf8 (bytesOfString text)

end Buffer

end EcmaFront
