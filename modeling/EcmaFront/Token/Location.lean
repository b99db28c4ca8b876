/-!
Places in a source: a position has an offset, a line and a column, a span two positions. A token
keeps the offset of its line instead of columns, which are read off it.
-/

set_option autoImplicit false

namespace EcmaFront

/-- Offsets count units of the buffer from zero, lines and columns from one. -/
structure Position where
  offset : Nat
  line : Nat
  column : Nat
  deriving DecidableEq, Repr, Inhabited

/-- The part of a source from `start` up to `stop`. -/
structure Span where
  start : Position
  stop : Position
  deriving DecidableEq, Repr, Inhabited

/-- The units `[start, stop)` of a token, the line of the first one, and where that line begins. -/
structure Extent where
  line : Nat
  lineStart : Nat
  start : Nat
  stop : Nat
  deriving DecidableEq, Repr, Inhabited

def nextLine (line : Nat) : Nat := (line + 1) % 0x100000000

/-- Columns as well: this is the column, from one, behind some units of a line. -/
def columnBehind (units : Nat) : Nat := (units + 1) % 0x100000000

theorem columnBehind_eq {units : Nat} (h : units + 1 < 0x100000000) :
    columnBehind units = units + 1 :=
  Nat.mod_eq_of_lt h

namespace Extent

def column (e : Extent) : Nat := columnBehind (e.start - e.lineStart)

def position (e : Extent) : Position := ⟨e.start, e.line, e.column⟩

/-- The columns of the two ends from zero, where the line begins before them. -/
def columns? (e : Extent) : Option (Nat × Nat) :=
  if e.lineStart ≤ e.start ∧ e.lineStart ≤ e.stop then some (e.start - e.lineStart,
    e.stop - e.lineStart)
  else none

end Extent

end EcmaFront
