import EcmaFront.Grammar.Destructuring

/-!
Operators, from the tightest to the loosest: postfix, prefix, binary by precedence, conditional and
assignment.
-/

set_option autoImplicit false

namespace EcmaFront.Parse

variable {B : NodeAlgebra} (r : Rules B)

/-- An operand with an update operator after it on the same line, if there is one. -/
def postfixExpression : Parse B.Expression := do
  let start ← state
  let operand ← leftHandSide r
  let s ← state
  match UpdateOp.ofToken? s.kind with
  | none => pure operand
  | some op =>
    if s.newline then pure operand
    else if B.isTarget operand then
      noteAssignment B operand start.token.extent
      next
      pure (B.update (← spanFrom start.start) op false operand)
    else failAt .postfixTarget start.token.extent

structure Leading where
  kind : TokenKind
  start : Position
  extent : Extent
  deriving DecidableEq, Repr

def leadingRound (operators : List Leading) : Parse (Round (List Leading) (List Leading)) := do
  let s ← state
  if s.kind.isUnary then
    next
    pure (.again (⟨s.kind, s.start, s.token.extent⟩ :: operators))
  else pure (.done operators)

/-- Apply an operator to what follows it; `first` is the first token after all such operators. -/
def applyLeading (first : Extent) (operand : B.Expression) (operator : Leading) :
    Parse B.Expression := do
  let span ← spanFrom operator.start
  match UpdateOp.ofToken? operator.kind, UnaryOp.ofToken? operator.kind with
  | some op, _ =>
    if B.isTarget operand then
      noteAssignment B operand first
      pure (B.update span op true operand)
    else failAt .prefixTarget first
  | none, some op =>
    if op == .delete && (← state).strict && (B.name? operand).isSome then
      failAt .deleteOfName operator.extent
    else pure (B.unary span op operand)
  | none, none => failAt .unexpectedOperator operator.extent

def applyAll (first : Extent) : List Leading → B.Expression → Parse B.Expression
  | [], operand => pure operand
  | operator :: rest, operand => do
    let operand ← applyLeading first operand operator
    applyAll first rest operand

def unaryExpression : Parse B.Expression := do
  let operators ← repeatFrom [] leadingRound
  let first := (← state).token.extent
  let operand ← postfixExpression r
  applyAll first operators operand

structure Placed (E : Type) where
  expression : E
  span : Span

/-- A left operand that waits for its right one. -/
structure Waiting (E : Type) where
  left : Placed E
  op : BinaryOp
  precedence : Nat

def Waiting.join (w : Waiting B.Expression) (right : Placed B.Expression) : Placed B.Expression :=
  let span := ⟨w.left.span.start, right.span.stop⟩
  ⟨B.binary span w.op w.left.expression right.expression, span⟩

/-- Join the operands whose operators bind at least as tightly as the one that follows. -/
def reduce (precedence : Nat) : List (Waiting B.Expression) → Placed B.Expression →
    List (Waiting B.Expression) × Placed B.Expression
  | [], operand => ([], operand)
  | w :: rest, operand =>
    if precedence ≤ w.precedence then reduce precedence rest (w.join operand)
      else (w :: rest, operand)

/-- The last operand, and those before it that wait, the last one first. -/
structure BinaryScan (E : Type) where
  waiting : List (Waiting E)
  operand : Placed E

def placedOperand : Parse (Placed B.Expression) := do
  let start := (← state).start
  let operand ← unaryExpression r
  pure ⟨operand, ← spanFrom start⟩

def binaryRound (scan : BinaryScan B.Expression) :
    Parse (Round (BinaryScan B.Expression) B.Expression) := do
  let s ← state
  let precedence := s.kind.precedence s.allowsIn
  match if precedence = 0 then none else BinaryOp.ofToken? s.kind with
  | none => pure (.done (reduce 0 scan.waiting scan.operand).2.expression)
  | some op =>
    next
    let (waiting, left) := reduce precedence scan.waiting scan.operand
    let operand ← placedOperand r
    pure (.again ⟨⟨left, op, precedence⟩ :: waiting, operand⟩)

def binaryExpression : Parse B.Expression := do
  let operand ← placedOperand r
  repeatFrom ⟨[], operand⟩ (binaryRound r)

def conditionalExpression : Parse B.Expression := do
  let start := (← state).start
  let test ← binaryExpression r
  if ← consume .question then
    let consequent ← allowingIn true r.assignment
    expect .colon
    let alternate ← r.assignment
    pure (B.conditional (← spanFrom start) test consequent alternate)
  else pure test

/-- An assignment to a name or member, or what stands in place of one. -/
def plainAssignment : Parse B.Expression := do
  let start ← state
  let target ← conditionalExpression r
  match AssignOp.ofToken? (← state).kind with
  | none => pure target
  | some op =>
    if B.isTarget target then
      noteAssignment B target start.token.extent
      next
      let value ← r.assignment
      pure (B.assign (← spanFrom start.start) op target value)
    else failAt .assignmentTarget start.token.extent

def assignmentExpression : Parse B.Expression :=
  nested do
    let start := (← state).start
    if ← atArrowFunction then arrowFunction r start
    else
      match ← assignmentPattern? r (·.kind == .equal) with
      | some target =>
        next
        let value ← r.assignment
        pure (B.assignPattern (← spanFrom start) target value)
      | none => plainAssignment r

end EcmaFront.Parse
