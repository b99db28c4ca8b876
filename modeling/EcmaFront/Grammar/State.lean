import EcmaFront.Digest
import EcmaFront.Event
import EcmaFront.Lexer.Basic
import EcmaFront.Scope.Stack

/-!
Where a parse stands: the current token, the lexer just after it, the frames around it, and what has
been found so far. A checkpoint is taken before the current token was read, so that going back reads
the token again; names used and declared meanwhile, digests and events stay.
-/

set_option autoImplicit false

namespace EcmaFront

/-- Statements, assignment expressions and patterns may be nested this deep. -/
def maxNesting : Nat := 256

structure ParseState where
  lexer : Lexer
  token : Token
  /-- Where the lexer stood before the current token was read. -/
  tokenStart : Standing
  /-- The end of the last token that was consumed. -/
  lastEnd : Position
  scopes : Scopes
  /-- The word `in` is an operator here. -/
  allowsIn : Bool := true
  nesting : Nat := 0
  /-- Names that a pattern not yet known to be one would assign to, the last one first. -/
  pendingWrites : List (String × Extent) := []
  /-- Names that the current declarators bind, the last one first. -/
  boundNames : List String := []
  /-- The current function has a default, a rest or a destructured parameter. -/
  richParameters : Bool := false
  digests : List FunctionDigest := []
  /-- The last event first. -/
  events : List Event := []
  deriving DecidableEq, Repr

structure Checkpoint where
  standing : Standing
  lastEnd : Position
  nesting : Nat
  depth : Nat
  allowsIn : Bool
  richParameters : Bool
  pendingWrites : Nat
  deriving DecidableEq, Repr

namespace ParseState

/-- Before the first token. -/
def initial (s : Source) : ParseState :=
  let lexer := Lexer.ofSource s
  { lexer
    token := .blank
    tokenStart := lexer.standing
    lastEnd := ⟨s.start, s.startLine, 1⟩
    scopes := .empty }

def kind (s : ParseState) : TokenKind := s.token.kind

def strict (s : ParseState) : Bool := s.scopes.strict

def newline (s : ParseState) : Bool := s.lexer.standing.newline

def start (s : ParseState) : Position := s.token.extent.position

def spanFrom (s : ParseState) (start : Position) : Span := ⟨start, s.lastEnd⟩

def atBindingName (s : ParseState) : Bool :=
  s.kind == .identifier || (s.kind == .kwLet && !s.strict)

def atWord (s : ParseState) (word : String) : Bool :=
  s.kind == .identifier && s.token.text? == some word

def eachLoop? (s : ParseState) : Option EachLoop :=
  if s.atWord "of" then some .forOf else if s.kind == .kwIn then some .forIn else none

def atBracket (s : ParseState) : Bool := s.kind == .leftBracket || s.kind == .leftBrace

def mayEnd (s : ParseState) : Bool :=
  s.kind == .semicolon || s.kind == .rightBrace || s.kind == .eof || s.newline

def lex (s : ParseState) : ParseState :=
  let (token, lexer) := s.lexer.next s.strict
  { s with token, lexer, tokenStart := s.lexer.standing }

def next (s : ParseState) : ParseState :=
  let stop := s.token.extent.stop
  let standing := s.lexer.standing
  ({ s with
    lastEnd := ⟨stop, standing.line, columnBehind (stop - standing.lineStart)⟩ } :
    ParseState).lex

def readRegexp (s : ParseState) : ParseState :=
  let (token, lexer) := s.lexer.regexp s.token (if s.kind == .slashEqual then "=" else "")
  { s with token, lexer }

def checkpoint (s : ParseState) : Checkpoint :=
  ⟨s.tokenStart, s.lastEnd, s.nesting, s.scopes.depth, s.allowsIn, s.richParameters,
    s.pendingWrites.length⟩

def rewind (s : ParseState) (c : Checkpoint) : ParseState :=
  ({ s with
    lexer := s.lexer.goTo c.standing
    lastEnd := c.lastEnd
    nesting := c.nesting
    scopes := s.scopes.truncate c.depth
    allowsIn := c.allowsIn
    richParameters := c.richParameters
    pendingWrites := s.pendingWrites.drop (s.pendingWrites.length - c.pendingWrites) } :
    ParseState).lex

def backtrack (s : ParseState) (c : Checkpoint) : ParseState :=
  ({ s with events := .wentBack c.standing.offset s.token.extent.start ::
    s.events } : ParseState).rewind c

def peekKind (s : ParseState) : TokenKind × ParseState :=
  let ahead := s.next
  (ahead.kind, ahead.rewind s.checkpoint)

def tokenText (s : ParseState) : String :=
  match s.kind with
  | .identifier | .reserved | .strictReserved => s.token.text
  | kind => kind.text

def unexpected (s : ParseState) : Cause :=
  match s.kind with
  | .invalid | .unterminated => .lexical s.lexer.fault
  | .eof => .unexpectedEnd
  | .identifier => .unexpectedIdentifier s.token.text
  | .string => .unexpectedString
  | .number => .unexpectedNumber
  | .strictReserved => .strictReservedWord s.token.text
  | .reserved => .reservedWord s.token.text
  | kind => .unexpectedToken kind

end ParseState

end EcmaFront
