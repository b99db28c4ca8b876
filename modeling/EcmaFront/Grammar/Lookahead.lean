import EcmaFront.Grammar.Parse
import EcmaFront.Tree.Parts

/-!
Questions about the tokens ahead. The answer is found by reading on; then the parse goes back to
where it was, and nothing that was read leaves a trace.
-/

set_option autoImplicit false

namespace EcmaFront.Parse

def peekKind : Parse TokenKind := ask ParseState.peekKind

/-- A slash after such a token divides; after any other it begins a regular expression. -/
def endsOperand : TokenKind → Bool
  | .identifier | .reserved | .strictReserved | .string | .number | .regexp | .kwThis | .kwNull
  | .kwTrue | .kwFalse | .kwSuper | .rightParen | .rightBracket | .rightBrace => true
  | _ => false

def atLetDeclaration : Parse Bool := do
  if (← state).strict then pure true
  else
    match ← peekKind with
    | .identifier | .leftBracket | .leftBrace => pure true
    | _ => pure false

/-- How many brackets are open, and the kind of the token before. -/
structure BracketScan where
  depth : Nat
  previous : TokenKind

/-- One token on the way to the bracket that closes the first one. -/
def skipBracketed (accept : ParseState → Bool) (scan : BracketScan) :
    Parse (Round BracketScan Bool) := do
  let s ← state
  let skip (depth : Nat) : Parse (Round BracketScan Bool) := do
    let previous := (← state).kind
    next
    pure (.again ⟨depth, previous⟩)
  match s.kind with
  | .leftParen | .leftBracket | .leftBrace => skip (scan.depth + 1)
  | .rightParen | .rightBracket | .rightBrace =>
    if scan.depth ≤ 1 then
      next
      pure (.done (accept (← state)))
    else skip (scan.depth - 1)
  | .slash | .slashEqual =>
    if endsOperand scan.previous then skip scan.depth
    else
      modify .readRegexp
      if (← state).kind.isError then pure (.done false) else skip scan.depth
  | .eof | .backQuote | .invalid | .unterminated => pure (.done false)
  | _ => skip scan.depth

/-- From an opening bracket, a test of the token after the bracket that closes it. -/
def followsBrackets (accept : ParseState → Bool) : Parse Bool := do
  let point := (← state).checkpoint
  let found ← repeatFrom ⟨0, .eof⟩ (skipBracketed accept)
  modify (·.rewind point)
  pure found

def atArrow (s : ParseState) : Bool := s.kind == .arrow && !s.newline

def atArrowFunction : Parse Bool := do
  match (← state).kind with
  | .identifier => ask fun s =>
    let ahead := s.next
    (atArrow ahead, ahead.rewind s.checkpoint)
  | .leftParen => followsBrackets atArrow
  | _ => pure false

/-- A name and a colon, which are skipped, or what comes after all labels. -/
def labelRound (_ : Unit) : Parse (Round Unit Bool) := do
  let kind := (← state).kind
  if kind != .identifier then pure (.done (kind == .kwFor || kind == .kwWhile || kind == .kwDo))
  else if (← peekKind) != .colon then pure (.done false)
  else
    next
    next
    pure (.again ())

def labelsLoop : Parse Bool := do
  let point := (← state).checkpoint
  let found ← repeatFrom () labelRound
  modify (·.rewind point)
  pure found

/-- The word `get` or `set` where it begins an accessor rather than names a property. -/
def accessor? : Parse (Option PropertyKind) := do
  let s ← state
  let kind? : Option PropertyKind :=
    if s.atWord "get" then some .getter else if s.atWord "set" then some .setter else none
  match kind? with
  | none => pure none
  | some kind =>
    match ← peekKind with
    | .colon | .leftParen | .comma | .rightBrace | .equal => pure none
    | _ => pure (some kind)

end EcmaFront.Parse
