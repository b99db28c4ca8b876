import EcmaFront.Lexer.View

/-!
Identifiers and reserved words. A character of a name may be written as a Unicode escape, but then
the name must not be a reserved word.
-/

set_option autoImplicit false

namespace EcmaFront.View

def fixedHex (v : View) : Nat → Nat → Nat → Option CodePoint × Nat
  | 0, i, value => (some value, i)
  | n + 1, i, value =>
    match (v.code i).digit? 16 with
    | some d => v.fixedHex n (i + 1) (value * 16 + d)
    | none => (none, i)

/-- Hexadecimal digits up to a closing brace, at least one and within the range of code points. -/
def bracedHex (v : View) : Nat → Nat → Nat → Bool → Option CodePoint × Nat
  | 0, i, _, _ => (none, i)
  | n + 1, i, value, any =>
    match (v.code i).digit? 16 with
    | some d =>
      if value * 16 + d > 0x10FFFF then (none, i) else v.bracedHex n (i + 1) (value * 16 + d) true
    | none => if any && v.code i == 0x7D then (some value, i + 1) else (none, i)

/-- A Unicode escape from the offset of its `u` on, with the offset where reading stopped. -/
def unicodeEscape (v : View) (i : Nat) : Option CodePoint × Nat :=
  if v.code (i + 1) == 0x7B then v.bracedHex (v.steps i) (i + 2) 0 false else v.fixedHex 4 (i + 1) 0

/-- The kind of a whole word. An escaped word may be reserved in no mode. -/
def wordKind (strict escaped : Bool) (name : String) : Except LexFault TokenKind :=
  match TokenKind.ofWord? name with
  | none => .ok .identifier
  | some kind =>
    if escaped then .error .escapedKeyword
    else if kind == .strictReserved && !strict then .ok .identifier
    else .ok kind

/-- The rest of a name whose characters so far are in `name`, the last one first. -/
def wordFrom (v : View) (strict : Bool) : Nat → Nat → List Char → Bool → Scan
  | 0, i, _, _ => (.error .identifierEscape, i)
  | n + 1, i, name, escaped =>
    let code := v.code i
    if code == 0x5C then
      if v.code (i + 1) != 0x75 then (.error .identifierEscape, i)
      else
        match v.unicodeEscape (i + 1) with
        | (some decoded, j) =>
          if if name.isEmpty then decoded.isIdentifierStart else decoded.isIdentifierPart then
            v.wordFrom strict n j (decoded.toChar :: name) true
          else (.error .identifierUnicodeEscape, j)
        | (none, j) => (.error .identifierUnicodeEscape, j)
    else if code.isIdentifierPart then v.wordFrom strict n (v.after i) (code.toChar :: name) escaped
    else
      let name := String.ofList name.reverse
      ((wordKind strict escaped name).map (·, .text name), i)

def word (v : View) (strict : Bool) (i : Nat) : Scan := v.wordFrom strict (v.steps i) i [] false

end EcmaFront.View
