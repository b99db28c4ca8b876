import EcmaFront.Text.Buffer

/-!
A source is a view of a buffer: a range of units, the address that errors name, and the number of
its first line. A narrower view keeps the buffer, so offsets in it mean the same places.
-/

set_option autoImplicit false

namespace EcmaFront

structure Source where
  buffer : Buffer
  url : String
  startLine : Nat
  start : Nat
  stop : Nat
  deriving DecidableEq, Repr

namespace Source

def ofBuffer (buffer : Buffer) (url : String) (startLine : Nat) : Source :=
  ⟨buffer, url, startLine, 0, buffer.size⟩

def ofString (text : String) (url : String) : Source := ofBuffer (Buffer.ofString text) url 1

/-- The units `[start, stop)` of the same buffer, as far as there are any. -/
def narrow (s : Source) (start stop startLine : Nat) : Source :=
  let stop := min stop s.buffer.size
  { s with start := min start stop, stop, startLine }

def text (s : Source) : String := s.buffer.slice s.start s.stop

def size (s : Source) : Nat := s.stop - s.start

def displayUrl (s : Source) : String := if s.url.isEmpty then "<anonymous>" else s.url

end Source

end EcmaFront
