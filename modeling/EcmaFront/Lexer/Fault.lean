import EcmaFront.Text.CodePoint
import EcmaFront.Lexer.Character
import EcmaFront.Token.Kind

/-!
Why text is no token.
-/

set_option autoImplicit false

namespace EcmaFront

inductive LexFault where
  | unterminatedComment | unterminatedString | unterminatedRegexp
  | invalidCharacter (code : CodePoint)
  | identifierEscape | identifierUnicodeEscape | escapedKeyword
  | strictOctalLiteral | strictLeadingZero | numericLiteral | identifierAfterNumber
  | hexEscape | unicodeEscape | strictOctalEscape | strictDigitEscape
  deriving DecidableEq, Repr

namespace LexFault

def isUnterminated : LexFault → Bool
  | .unterminatedComment | .unterminatedString | .unterminatedRegexp => true
  | _ => false

def kind (f : LexFault) : TokenKind := if f.isUnterminated then .unterminated else .invalid

def hexDigits (code : CodePoint) : List Char :=
  let digits := (Nat.toDigits 16 code).map Char.toUpper
  List.replicate (4 - digits.length) '0' ++ digits

def shown (code : CodePoint) : List Char :=
  if code.isValidChar && !code.isControl then [Char.ofNat code]
  else ['\\', 'u', '\x7b'] ++ hexDigits code ++ ['\x7d']

def message : LexFault → String
  | .unterminatedComment => "Unterminated multiline comment"
  | .unterminatedString => "Unterminated string literal"
  | .unterminatedRegexp => "Unterminated regular expression literal"
  | .invalidCharacter code => "Invalid character '" ++ String.ofList (shown code) ++ "'"
  | .identifierEscape => "Invalid escape in identifier"
  | .identifierUnicodeEscape => "Invalid unicode escape in identifier"
  | .escapedKeyword => "Keyword must not contain escaped characters"
  | .strictOctalLiteral => "Octal literals are not allowed in strict mode"
  | .strictLeadingZero =>
    "Decimal integer literals with a leading zero are forbidden in strict mode"
  | .numericLiteral => "Invalid numeric literal"
  | .identifierAfterNumber => "No identifiers allowed directly after numeric literal"
  | .hexEscape => "\\x can only be followed by a hex character sequence"
  | .unicodeEscape => "\\u can only be followed by a Unicode character sequence"
  | .strictOctalEscape => "Octal escape sequences are not allowed in strict mode"
  | .strictDigitEscape => "\\8 and \\9 are not allowed in strict mode"

end LexFault

end EcmaFront
