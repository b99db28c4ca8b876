/-!
The kinds of tokens, what the grammar needs to know of each, and how each is spelled.
-/

set_option autoImplicit false

namespace EcmaFront

inductive TokenKind where
  /-- The end of the view. -/
  | eof
  /-- Text that is no token. -/
  | invalid
  /-- A literal or comment that runs into the end of its line or of the view. -/
  | unterminated
  | identifier
  /-- A word that is never an identifier and has no use (`enum`). -/
  | reserved
  /-- A word that is an identifier in sloppy code only. -/
  | strictReserved
  | string | number
  /-- Read only where the grammar asks for it, from a slash token on. -/
  | regexp
  | kwNull | kwTrue | kwFalse | kwBreak | kwCase | kwCatch | kwClass | kwConst | kwContinue
  | kwDebugger | kwDefault | kwDelete | kwDo | kwElse | kwExport | kwExtends | kwFinally | kwFor
  | kwFunction | kwIf | kwImport | kwIn | kwInstanceof | kwLet | kwNew | kwReturn | kwSuper
  | kwSwitch | kwThis | kwThrow | kwTry | kwTypeof | kwVar | kwVoid | kwWhile | kwWith
  | leftBrace | rightBrace | leftParen | rightParen | leftBracket | rightBracket | dot | dotDotDot
  | semicolon | comma | question | colon | arrow | backQuote
  | equal | plusEqual | minusEqual | starEqual | slashEqual | percentEqual | lessLessEqual
  | greaterGreaterEqual | greaterGreaterGreaterEqual | ampersandEqual | pipeEqual | caretEqual
  | plusPlus | minusMinus | bang | tilde
  | pipePipe | ampersandAmpersand | pipe | caret | ampersand | equalEqual | bangEqual
  | equalEqualEqual | bangEqualEqual | less | greater | lessEqual | greaterEqual | lessLess
  | greaterGreater | greaterGreaterGreater | plus | minus | star | slash | percent
  deriving DecidableEq, Repr, Inhabited

namespace TokenKind

/-- The spelling of a fixed token, a description of any other. -/
def text : TokenKind → String
  | .eof => "end of script"
  | .invalid | .unterminated => "invalid token"
  | .identifier => "identifier"
  | .reserved | .strictReserved => "reserved word"
  | .string => "string literal"
  | .number => "number literal"
  | .regexp => "regular expression"
  | .kwNull => "null"
  | .kwTrue => "true"
  | .kwFalse => "false"
  | .kwBreak => "break"
  | .kwCase => "case"
  | .kwCatch => "catch"
  | .kwClass => "class"
  | .kwConst => "const"
  | .kwContinue => "continue"
  | .kwDebugger => "debugger"
  | .kwDefault => "default"
  | .kwDelete => "delete"
  | .kwDo => "do"
  | .kwElse => "else"
  | .kwExport => "export"
  | .kwExtends => "extends"
  | .kwFinally => "finally"
  | .kwFor => "for"
  | .kwFunction => "function"
  | .kwIf => "if"
  | .kwImport => "import"
  | .kwIn => "in"
  | .kwInstanceof => "instanceof"
  | .kwLet => "let"
  | .kwNew => "new"
  | .kwReturn => "return"
  | .kwSuper => "super"
  | .kwSwitch => "switch"
  | .kwThis => "this"
  | .kwThrow => "throw"
  | .kwTry => "try"
  | .kwTypeof => "typeof"
  | .kwVar => "var"
  | .kwVoid => "void"
  | .kwWhile => "while"
  | .kwWith => "with"
  | .leftBrace => "\x7b"
  | .rightBrace => "\x7d"
  | .leftParen => "("
  | .rightParen => ")"
  | .leftBracket => "["
  | .rightBracket => "]"
  | .dot => "."
  | .dotDotDot => "..."
  | .semicolon => ";"
  | .comma => ","
  | .question => "?"
  | .colon => ":"
  | .arrow => "=>"
  | .backQuote => "\x60"
  | .equal => "="
  | .plusEqual => "+="
  | .minusEqual => "-="
  | .starEqual => "*="
  | .slashEqual => "/="
  | .percentEqual => "%="
  | .lessLessEqual => "<<="
  | .greaterGreaterEqual => ">>="
  | .greaterGreaterGreaterEqual => ">>>="
  | .ampersandEqual => "&="
  | .pipeEqual => "|="
  | .caretEqual => "^="
  | .plusPlus => "++"
  | .minusMinus => "--"
  | .bang => "!"
  | .tilde => "~"
  | .pipePipe => "||"
  | .ampersandAmpersand => "&&"
  | .pipe => "|"
  | .caret => "^"
  | .ampersand => "&"
  | .equalEqual => "=="
  | .bangEqual => "!="
  | .equalEqualEqual => "==="
  | .bangEqualEqual => "!=="
  | .less => "<"
  | .greater => ">"
  | .lessEqual => "<="
  | .greaterEqual => ">="
  | .lessLess => "<<"
  | .greaterGreater => ">>"
  | .greaterGreaterGreater => ">>>"
  | .plus => "+"
  | .minus => "-"
  | .star => "*"
  | .slash => "/"
  | .percent => "%"

def isKeyword : TokenKind → Bool
  | .kwNull | .kwTrue | .kwFalse | .kwBreak | .kwCase | .kwCatch | .kwClass | .kwConst | .kwContinue
  | .kwDebugger | .kwDefault | .kwDelete | .kwDo | .kwElse | .kwExport | .kwExtends | .kwFinally
  | .kwFor | .kwFunction | .kwIf | .kwImport | .kwIn | .kwInstanceof | .kwLet | .kwNew | .kwReturn
  | .kwSuper | .kwSwitch | .kwThis | .kwThrow | .kwTry | .kwTypeof | .kwVar | .kwVoid | .kwWhile
  | .kwWith => true
  | _ => false

def isUnary : TokenKind → Bool
  | .plusPlus | .minusMinus | .bang | .tilde | .plus | .minus | .kwTypeof | .kwVoid | .kwDelete =>
    true
  | _ => false

def isAssignment : TokenKind → Bool
  | .equal | .plusEqual | .minusEqual | .starEqual | .slashEqual | .percentEqual | .lessLessEqual
  | .greaterGreaterEqual | .greaterGreaterGreaterEqual | .ampersandEqual | .pipeEqual
  | .caretEqual => true
  | _ => false

/-- How tightly a binary operator binds; zero for what is none. `in` is one only where it is
allowed. -/
def precedence (allowsIn : Bool) : TokenKind → Nat
  | .pipePipe => 1
  | .ampersandAmpersand => 2
  | .pipe => 3
  | .caret => 4
  | .ampersand => 5
  | .equalEqual | .bangEqual | .equalEqualEqual | .bangEqualEqual => 6
  | .less | .greater | .lessEqual | .greaterEqual | .kwInstanceof => 7
  | .lessLess | .greaterGreater | .greaterGreaterGreater => 8
  | .plus | .minus => 9
  | .star | .slash | .percent => 10
  | .kwIn => if allowsIn then 7 else 0
  | _ => 0

def isError : TokenKind → Bool
  | .invalid | .unterminated => true
  | _ => false

def isUnterminated : TokenKind → Bool
  | .unterminated => true
  | _ => false

def isIdentifierName (kind : TokenKind) : Bool :=
  kind.isKeyword ||
    match kind with
    | .identifier | .reserved | .strictReserved => true
    | _ => false

def ofWord? : String → Option TokenKind
  | "null" => some .kwNull
  | "true" => some .kwTrue
  | "false" => some .kwFalse
  | "break" => some .kwBreak
  | "case" => some .kwCase
  | "catch" => some .kwCatch
  | "class" => some .kwClass
  | "const" => some .kwConst
  | "continue" => some .kwContinue
  | "debugger" => some .kwDebugger
  | "default" => some .kwDefault
  | "delete" => some .kwDelete
  | "do" => some .kwDo
  | "else" => some .kwElse
  | "export" => some .kwExport
  | "extends" => some .kwExtends
  | "finally" => some .kwFinally
  | "for" => some .kwFor
  | "function" => some .kwFunction
  | "if" => some .kwIf
  | "import" => some .kwImport
  | "in" => some .kwIn
  | "instanceof" => some .kwInstanceof
  | "let" => some .kwLet
  | "new" => some .kwNew
  | "return" => some .kwReturn
  | "super" => some .kwSuper
  | "switch" => some .kwSwitch
  | "this" => some .kwThis
  | "throw" => some .kwThrow
  | "try" => some .kwTry
  | "typeof" => some .kwTypeof
  | "var" => some .kwVar
  | "void" => some .kwVoid
  | "while" => some .kwWhile
  | "with" => some .kwWith
  | "enum" => some .reserved
  | "implements" | "interface" | "package" | "private" | "protected" | "public" | "static"
  | "yield" => some .strictReserved
  | _ => none

end TokenKind

end EcmaFront
