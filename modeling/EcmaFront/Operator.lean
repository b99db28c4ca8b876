import EcmaFront.Token.Kind

/-!
Operators, the tokens that write them, and the words between the parts of a loop.
-/

set_option autoImplicit false

namespace EcmaFront

/-- The two loops over the members of an object. -/
inductive EachLoop where
  | forIn | forOf
  deriving DecidableEq, Repr, Inhabited

def EachLoop.word : EachLoop → String
  | .forIn => "in"
  | .forOf => "of"

inductive BinaryOp where
  | logicalOr | logicalAnd | bitOr | bitXor | bitAnd | eq | notEq | strictEq | strictNotEq
  | lt | gt | ltEq | gtEq | isIn | instanceOf | shl | shr | ushr | add | sub | mul | div | rem
  deriving DecidableEq, Repr, Inhabited

namespace BinaryOp

def ofToken? : TokenKind → Option BinaryOp
  | .pipePipe => some .logicalOr
  | .ampersandAmpersand => some .logicalAnd
  | .pipe => some .bitOr
  | .caret => some .bitXor
  | .ampersand => some .bitAnd
  | .equalEqual => some .eq
  | .bangEqual => some .notEq
  | .equalEqualEqual => some .strictEq
  | .bangEqualEqual => some .strictNotEq
  | .less => some .lt
  | .greater => some .gt
  | .lessEqual => some .ltEq
  | .greaterEqual => some .gtEq
  | .kwIn => some .isIn
  | .kwInstanceof => some .instanceOf
  | .lessLess => some .shl
  | .greaterGreater => some .shr
  | .greaterGreaterGreater => some .ushr
  | .plus => some .add
  | .minus => some .sub
  | .star => some .mul
  | .slash => some .div
  | .percent => some .rem
  | _ => none

/-- Evaluates its right operand only if the left one leaves it open. -/
def isLogical : BinaryOp → Bool
  | .logicalAnd | .logicalOr => true
  | _ => false

theorem isSome_ofToken? (kind : TokenKind) :
    (ofToken? kind).isSome = decide (0 < kind.precedence true) := by
  cases kind <;> rfl

end BinaryOp

inductive UnaryOp where
  | minus | plus | not | bitNot | typeOf | void | delete
  deriving DecidableEq, Repr, Inhabited

def UnaryOp.ofToken? : TokenKind → Option UnaryOp
  | .minus => some .minus
  | .plus => some .plus
  | .bang => some .not
  | .tilde => some .bitNot
  | .kwTypeof => some .typeOf
  | .kwVoid => some .void
  | .kwDelete => some .delete
  | _ => none

inductive UpdateOp where
  | increment | decrement
  deriving DecidableEq, Repr, Inhabited

def UpdateOp.ofToken? : TokenKind → Option UpdateOp
  | .plusPlus => some .increment
  | .minusMinus => some .decrement
  | _ => none

inductive AssignOp where
  | assign | add | sub | mul | div | rem | shl | shr | ushr | bitAnd | bitOr | bitXor
  deriving DecidableEq, Repr, Inhabited

def AssignOp.ofToken? : TokenKind → Option AssignOp
  | .equal => some .assign
  | .plusEqual => some .add
  | .minusEqual => some .sub
  | .starEqual => some .mul
  | .slashEqual => some .div
  | .percentEqual => some .rem
  | .lessLessEqual => some .shl
  | .greaterGreaterEqual => some .shr
  | .greaterGreaterGreaterEqual => some .ushr
  | .ampersandEqual => some .bitAnd
  | .pipeEqual => some .bitOr
  | .caretEqual => some .bitXor
  | _ => none

theorem AssignOp.isSome_ofToken? (kind : TokenKind) :
    (ofToken? kind).isSome = kind.isAssignment := by
  cases kind <;> rfl

theorem isSome_ofToken?_of_isUnary {kind : TokenKind} (h : kind.isUnary = true) :
    (UpdateOp.ofToken? kind).isSome ∨ (UnaryOp.ofToken? kind).isSome := by
  cases kind <;> simp_all [TokenKind.isUnary, UpdateOp.ofToken?, UnaryOp.ofToken?]

end EcmaFront
