import EcmaFront.Lexer.View

/-!
White space, line terminators and comments between tokens.
-/

set_option autoImplicit false

namespace EcmaFront.View

def lineCommentEnd (v : View) : Nat → Nat → Nat
  | 0, i => i
  | n + 1, i =>
    if v.isEnd i || (v.code i).isLineTerminator then i else v.lineCommentEnd n (v.after i)

/-- Where the reader of a block comment stopped, whether it passed a line terminator, and whether
the comment was closed. -/
structure BlockComment where
  place : Place
  newline : Bool
  closed : Bool
  deriving DecidableEq, Repr

def blockComment (v : View) : Nat → Place → Bool → BlockComment
  | 0, p, newline => ⟨p, newline, false⟩
  | n + 1, p, newline =>
    if v.isEnd p.offset then ⟨p, newline, false⟩
    else if v.code p.offset == 0x2A && v.code (p.offset + 1) == 0x2F then
      ⟨{ p with offset := p.offset + 2 }, newline, true⟩
    else if (v.code p.offset).isLineTerminator then v.blockComment n (v.afterLine p) true
    else v.blockComment n { p with offset := v.after p.offset } newline

/-- Where the next token begins and whether a line terminator came before it; or the extent of a
comment that is never closed. -/
structure Trivia where
  place : Place
  newline : Bool
  unclosed : Option Extent
  deriving DecidableEq, Repr

def triviaFrom (v : View) : Nat → Place → Bool → Trivia
  | 0, p, newline => ⟨p, newline, none⟩
  | n + 1, p, newline =>
    let code := v.code p.offset
    if v.isEnd p.offset then ⟨p, newline, none⟩
    else if code.isLineTerminator then v.triviaFrom n (v.afterLine p) true
    else if code.isWhitespace then v.triviaFrom n { p with offset := v.after p.offset } newline
    else if code == 0x2F && v.code (p.offset + 1) == 0x2F then
      v.triviaFrom n { p with offset := v.lineCommentEnd (v.steps p.offset) p.offset } newline
    else if code == 0x2F && v.code (p.offset + 1) == 0x2A then
      let comment := v.blockComment (v.steps p.offset) { p with offset := p.offset + 2 } newline
      if comment.closed then v.triviaFrom n comment.place comment.newline
      else
        ⟨comment.place, comment.newline, some ⟨p.line, p.lineStart, p.offset, comment.place.offset⟩⟩
    else ⟨p, newline, none⟩

def trivia (v : View) (p : Place) : Trivia := v.triviaFrom (v.steps p.offset) p false

end EcmaFront.View
