import EcmaFront.Lexer.Word

/-!
String literals and their escapes.
-/

set_option autoImplicit false

namespace EcmaFront.View

/-- The characters that single letters stand for after a backslash. -/
def letterEscape? (code : CodePoint) : Option Char :=
  if code == 0x6E then some '\n'
  else if code == 0x74 then some '\t'
  else if code == 0x72 then some '\r'
  else if code == 0x62 then some '\x08'
  else if code == 0x66 then some '\x0c'
  else if code == 0x76 then some '\x0b'
  else none

/-- Up to `n` octal digits from `i` on, as long as the value fits a byte. -/
def octalEscape (v : View) : Nat → Nat → Nat → CodePoint × Nat
  | 0, i, value => (value, i)
  | n + 1, i, value =>
    match (v.code i).digit? 8 with
    | some d => if value * 8 + d > 0xFF then (value, i) else v.octalEscape n (i + 1) (value * 8 + d)
    | none => (value, i)

/-- A Unicode escape from its `u` on; an escaped low surrogate joins the high one before it. -/
def stringUnicodeEscape (v : View) (i : Nat) : Option CodePoint × Nat :=
  match v.unicodeEscape i with
  | (none, i) => (none, i)
  | (some code, i) =>
    if code.isHighSurrogate && v.code i == 0x5C && v.code (i + 1) == 0x75 then
      match v.unicodeEscape (i + 1) with
      | (some low, j) =>
        if low.isLowSurrogate then (some (CodePoint.ofSurrogates code low), j) else (some code, i)
      | (none, _) => (some code, i)
    else (some code, i)

/-- The character that an escape stands for, from the offset after the backslash on. -/
def escape (v : View) (strict : Bool) (i : Nat) : Except LexFault Char × Nat :=
  let code := v.code i
  match letterEscape? code with
  | some c => (.ok c, i + 1)
  | none =>
    if code == 0x30 && !(v.code (i + 1)).isDecimalDigit then (.ok '\x00', i + 1)
    else if code == 0x78 then
      match (v.code (i + 1)).digit? 16, (v.code (i + 2)).digit? 16 with
      | some high, some low => (.ok (CodePoint.toChar (high * 16 + low)), i + 3)
      | _, _ => (.error .hexEscape, i)
    else if code == 0x75 then
      match v.stringUnicodeEscape i with
      | (some code, i) => (.ok code.toChar, i)
      | (none, i) => (.error .unicodeEscape, i)
    else if (code.digit? 8).isSome then
      if strict then (.error .strictOctalEscape, i)
      else
        let (value, i) := v.octalEscape 3 i 0
        (.ok value.toChar, i)
    else if strict && (code == 0x38 || code == 0x39) then (.error .strictDigitEscape, i)
    else (.ok code.toChar, v.after i)

/-- The rest of a string literal whose characters so far are in `chars`, the last one first. A
backslash before a line terminator leaves both out and goes on in the next line. -/
def stringFrom (v : View) (quote : CodePoint) (strict : Bool) :
    Nat → Place → List Char → Except LexFault (TokenKind × TokenValue) × Place
  | 0, p, _ => (.error .unterminatedString, p)
  | n + 1, p, chars =>
    let code := v.code p.offset
    if v.isEnd p.offset || code.isLineTerminator then (.error .unterminatedString, p)
    else if code == quote then
      (.ok (.string, .text (String.ofList chars.reverse)), { p with offset := p.offset + 1 })
    else if code != 0x5C then
      v.stringFrom quote strict n { p with offset := v.after p.offset } (code.toChar :: chars)
    else
      let p := { p with offset := p.offset + 1 }
      if v.isEnd p.offset then (.error .unterminatedString, p)
      else if (v.code p.offset).isLineTerminator then v.stringFrom quote strict n
        (v.afterLine p) chars
      else
        match v.escape strict p.offset with
        | (.ok c, offset) => v.stringFrom quote strict n { p with offset } (c :: chars)
        | (.error fault, offset) => (.error fault, { p with offset })

def string (v : View) (strict : Bool) (p : Place) :
    Except LexFault (TokenKind × TokenValue) × Place :=
  v.stringFrom (v.code p.offset) strict (v.steps p.offset) { p with offset := p.offset + 1 } []

end EcmaFront.View
