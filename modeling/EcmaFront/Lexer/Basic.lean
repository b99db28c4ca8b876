import EcmaFront.Text.Source
import EcmaFront.Lexer.Trivia
import EcmaFront.Lexer.Word
import EcmaFront.Lexer.Numeral
import EcmaFront.Lexer.Quote
import EcmaFront.Lexer.Regexp
import EcmaFront.Lexer.Punctuator

/-!
The lexer: a view, where it stands in it, and the fault of the last token if it was none. Its
standing can be kept and gone back to. Whether a slash begins a regular expression is for the reader
of tokens to say, who then asks for one to be read on from the slash token.
-/

set_option autoImplicit false

namespace EcmaFront

structure Standing where
  offset : Nat
  line : Nat
  lineStart : Nat
  /-- The line and the offset at which the last token ended. -/
  lastLine : Nat
  lastStop : Nat
  /-- A line terminator came before the last token. -/
  newline : Bool
  deriving DecidableEq, Repr, Inhabited

structure Lexer where
  view : View
  standing : Standing
  fault : Option LexFault
  deriving DecidableEq, Repr

namespace View

/-- The token at a place that trivia does not begin at. -/
def token (v : View) (strict : Bool) (p : Place) :
    Except LexFault (TokenKind × TokenValue) × Place :=
  let i := p.offset
  let code := v.code i
  let onLine (scan : Scan) := (scan.1, { p with offset := scan.2 })
  if v.isEnd i then (.ok (.eof, .none), p)
  else if code.isIdentifierStart || code == 0x5C then onLine (v.word strict i)
  else if code.isDecimalDigit || (code == 0x2E && (v.code (i + 1)).isDecimalDigit) then
    onLine (v.numeral strict i)
  else if code == 0x22 || code == 0x27 then v.string strict p
  else
    let char (k : Nat) := (v.code (i + k)).toChar
    match punctuator? (char 0) (char 1) (char 2) (char 3) with
    | some (kind, length) => (.ok (kind, .none), { p with offset := i + length })
    | none => (.error (.invalidCharacter code), p)

end View

namespace Lexer

def ofSource (s : Source) : Lexer :=
  ⟨⟨s.buffer, s.stop⟩, ⟨s.start, s.startLine, s.start, s.startLine, s.start, false⟩, none⟩

def place (l : Lexer) : Place := ⟨l.standing.offset, l.standing.line, l.standing.lineStart⟩

/-- Go to an offset, not beyond the view. Lines are left as they were counted. -/
def seek (l : Lexer) (offset : Nat) : Lexer :=
  { l with standing := { l.standing with offset := min offset l.view.limit }, fault := none }

def goTo (l : Lexer) (s : Standing) : Lexer :=
  { l with standing := { s with offset := min s.offset l.view.limit }, fault := none }

def peek (l : Lexer) (units : Nat) : CodePoint := l.view.code (l.standing.offset + units)

/-- Whether the next significant character is a colon. Asking leaves the lexer where it stands. -/
def colonFollows (l : Lexer) : Bool × Lexer :=
  let trivia := l.view.trivia l.place
  (trivia.unclosed.isNone && l.view.code trivia.place.offset == 0x3A, l.goTo l.standing)

def arrive (l : Lexer) (p : Place) (newline : Bool) (fault : Option LexFault) : Lexer :=
  let s := l.standing
  { l with standing := ⟨p.offset, p.line, p.lineStart, s.line, s.offset, newline⟩, fault }

/-- The next token. Strict code has fewer literals and escapes, and more reserved words. -/
def next (l : Lexer) (strict : Bool) : Token × Lexer :=
  let trivia := l.view.trivia l.place
  match trivia.unclosed with
  | some extent =>
    (⟨.unterminated, .none, extent⟩, l.arrive trivia.place trivia.newline
      (some .unterminatedComment))
  | none =>
    let start := trivia.place
    let (found, stop) := l.view.token strict start
    let extent : Extent := ⟨start.line, start.lineStart, start.offset, stop.offset⟩
    match found with
    | .ok (kind, value) => (⟨kind, value, extent⟩, l.arrive stop trivia.newline none)
    | .error fault => (⟨fault.kind, .none, extent⟩, l.arrive stop trivia.newline (some fault))

/-- Read a slash token on as a regular expression literal; `start` is what it took of the body. -/
def regexp (l : Lexer) (token : Token) (start : String) : Token × Lexer :=
  let (found, stop) := l.view.regexp start l.standing.offset
  let extent := { token.extent with stop }
  let l := { l with standing := { l.standing with offset := stop } }
  match found with
  | .ok (kind, value) => (⟨kind, value, extent⟩, { l with fault := none })
  | .error fault => (⟨fault.kind, .none, extent⟩, { l with fault := some fault })

end Lexer

end EcmaFront
