import EcmaFront.Token.Kind

/-!
Punctuators, each the longest that the next four characters begin with.
-/

set_option autoImplicit false

namespace EcmaFront

def doubled (c₀ c₁ : Char) (single double assign : TokenKind) : TokenKind × Nat :=
  if c₁ = c₀ then (double, 2) else if c₁ = '=' then (assign, 2) else (single, 1)

def assigning (c₁ : Char) (single assign : TokenKind) : TokenKind × Nat :=
  if c₁ = '=' then (assign, 2) else (single, 1)

/-- The punctuator at the front of four characters, with its length. -/
def punctuator? (c₀ c₁ c₂ c₃ : Char) : Option (TokenKind × Nat) :=
  match c₀ with
  | '(' => some (.leftParen, 1)
  | ')' => some (.rightParen, 1)
  | '[' => some (.leftBracket, 1)
  | ']' => some (.rightBracket, 1)
  | '\x7b' => some (.leftBrace, 1)
  | '\x7d' => some (.rightBrace, 1)
  | ',' => some (.comma, 1)
  | ':' => some (.colon, 1)
  | '?' => some (.question, 1)
  | ';' => some (.semicolon, 1)
  | '~' => some (.tilde, 1)
  | '\x60' => some (.backQuote, 1)
  | '.' => some (if c₁ = '.' && c₂ = '.' then (.dotDotDot, 3) else (.dot, 1))
  | '!' =>
    some (if c₁ != '=' then (.bang, 1) else if c₂ = '=' then (.bangEqualEqual, 3) else
      (.bangEqual, 2))
  | '=' =>
    some (if c₁ = '=' then (if c₂ = '=' then (.equalEqualEqual, 3) else (.equalEqual, 2))
      else if c₁ = '>' then (.arrow, 2) else (.equal, 1))
  | '<' =>
    some (if c₁ = '<' then (if c₂ = '=' then (.lessLessEqual, 3) else (.lessLess, 2))
      else if c₁ = '=' then (.lessEqual, 2) else (.less, 1))
  | '>' =>
    some (if c₁ = '>' then
        (if c₂ = '>' then
          (if c₃ = '=' then (.greaterGreaterGreaterEqual, 4) else (.greaterGreaterGreater, 3))
        else if c₂ = '=' then (.greaterGreaterEqual, 3) else (.greaterGreater, 2))
      else if c₁ = '=' then (.greaterEqual, 2) else (.greater, 1))
  | '+' => some (doubled c₀ c₁ .plus .plusPlus .plusEqual)
  | '-' => some (doubled c₀ c₁ .minus .minusMinus .minusEqual)
  | '&' => some (doubled c₀ c₁ .ampersand .ampersandAmpersand .ampersandEqual)
  | '|' => some (doubled c₀ c₁ .pipe .pipePipe .pipeEqual)
  | '*' => some (assigning c₁ .star .starEqual)
  | '/' => some (assigning c₁ .slash .slashEqual)
  | '%' => some (assigning c₁ .percent .percentEqual)
  | '^' => some (assigning c₁ .caret .caretEqual)
  | _ => none

end EcmaFront
