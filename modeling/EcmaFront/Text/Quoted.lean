import EcmaFront.Text.Unprintable

/-!
Text in double quotes, where quotes, backslashes and what cannot be shown are escaped.
-/

set_option autoImplicit false

namespace EcmaFront.Quoted

def escapeChar (c : Char) : List Char :=
  match c with
  | '\x00' => ['\\', '0']
  | '\t' => ['\\', 't']
  | '\n' => ['\\', 'n']
  | '\r' => ['\\', 'r']
  | '"' => ['\\', '"']
  | '\\' => ['\\', '\\']
  | c =>
    if Unprintable.ranges.contains c.toNat then
      ['\\', 'u', '\x7b'] ++ Nat.toDigits 16 c.toNat ++ ['\x7d']
    else [c]

def quote (text : String) : String :=
  String.ofList ('"' :: text.toList.flatMap escapeChar ++ ['"'])

def quoteOption : Option String → String
  | some text => "Some(" ++ quote text ++ ")"
  | none => "None"

end EcmaFront.Quoted
