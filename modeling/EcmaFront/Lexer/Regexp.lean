import EcmaFront.Lexer.View

/-!
Regular expression literals, read on from a slash token. A slash inside a class in brackets or after
a backslash does not end the body.
-/

set_option autoImplicit false

namespace EcmaFront.View

/-- The body from `i` on, after the characters in `body`, the last one first. -/
def regexpBody (v : View) : Nat → Nat → Bool → List Char → Option (List Char) × Nat
  | 0, i, _, _ => (none, i)
  | n + 1, i, inClass, body =>
    let code := v.code i
    if v.isEnd i || code.isLineTerminator then (none, i)
    else if code == 0x2F && !inClass then (some body.reverse, i + 1)
    else if code == 0x5C then
      let escaped := v.code (i + 1)
      if v.isEnd (i + 1) || escaped.isLineTerminator then (none, i + 1)
      else v.regexpBody n (v.after (i + 1)) inClass (escaped.toChar :: code.toChar :: body)
    else
      let inClass := if code == 0x5B then true else if code == 0x5D then false else inClass
      v.regexpBody n (v.after i) inClass (code.toChar :: body)

def nameCharsFrom (v : View) : Nat → Nat → List Char → List Char × Nat
  | 0, i, chars => (chars.reverse, i)
  | n + 1, i, chars =>
    if (v.code i).isIdentifierPart then v.nameCharsFrom n (v.after i) ((v.code i).toChar :: chars)
    else (chars.reverse, i)

/-- The literal whose body goes on at `i`; `start` is what the slash token already took of it. -/
def regexp (v : View) (start : String) (i : Nat) : Scan :=
  match v.regexpBody (v.steps i) i false start.toList.reverse with
  | (none, i) => (.error .unterminatedRegexp, i)
  | (some body, i) =>
    let (flags, i) := v.nameCharsFrom (v.steps i) i []
    (.ok (.regexp, .regexp (String.ofList body) (String.ofList flags)), i)

end EcmaFront.View
