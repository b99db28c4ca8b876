import EcmaFront.Operator
import EcmaFront.Tree.Parts

/-!
What the grammar makes of the phrases that it recognises. The grammar reads back three facts only:
whether an expression is a plain name, whether it can be assigned to, and whether a statement is a
directive.
-/

set_option autoImplicit false

namespace EcmaFront

structure NodeAlgebra where
  Expression : Type
  Statement : Type
  Pattern : Type
  Property : Type
  Program : Type
  /-- The name of an expression that is one. -/
  name? : Expression → Option String
  /-- A name or a member, which can be assigned to. -/
  isTarget : Expression → Bool
  /-- A statement that consists of one string literal. -/
  isDirective : Statement → Bool
  null : Span → Expression
  bool : Span → Bool → Expression
  number : Span → Binary64 → Expression
  string : Span → String → Expression
  regexp : Span → String → String → Expression
  ident : Span → String → Expression
  self : Span → Expression
  array : Span → List (Option Expression) → Expression
  object : Span → List Property → Expression
  entry : Span → PropertyKey Expression → PropertyKind → Expression → Property
  spreadEntry : Span → Expression → Property
  function : FunctionParts Expression Statement Pattern → Expression
  unary : Span → UnaryOp → Expression → Expression
  /-- The operator stands before the operand or after it. -/
  update : Span → UpdateOp → Bool → Expression → Expression
  binary : Span → BinaryOp → Expression → Expression → Expression
  conditional : Span → Expression → Expression → Expression → Expression
  assign : Span → AssignOp → Expression → Expression → Expression
  assignPattern : Span → Pattern → Expression → Expression
  sequence : Span → List Expression → Expression
  member : Span → Expression → String → Expression
  index : Span → Expression → Expression → Expression
  call : Span → Expression → List Expression → Expression
  construct : Span → Expression → Option (List Expression) → Expression
  spread : Span → Expression → Expression
  super : Span → Expression
  newTarget : Span → Expression
  binding : Span → String → Pattern
  target : Expression → Pattern
  arrayPattern : Span → List (Option (PatternElement Expression Pattern)) → Option Pattern → Pattern
  objectPattern : Span → List (PatternProperty Expression Pattern) → Pattern
  block : Block Statement → Statement
  declaration : VariableDeclaration Expression Pattern → Statement
  functionDeclaration : FunctionParts Expression Statement Pattern → Statement
  expression : Span → Expression → Statement
  branch : Span → Expression → Statement → Option Statement → Statement
  loop : Span → Option (ForInit Statement Expression) → Option Expression → Option Expression →
    Statement → Environment → Statement
  loopEach : EachLoop → Span → ForTarget Statement Expression Pattern → Expression → Statement →
    Environment → Statement
  loopWhile : Span → Expression → Statement → Statement
  doWhile : Span → Statement → Expression → Statement
  switch : Span → Expression → List (SwitchClause Expression Statement) → Environment → Statement
  attempt : Span → Statement → Option (CatchClause Statement Pattern) → Option Statement → Statement
  leave : Span → Option Expression → Statement
  throw : Span → Expression → Statement
  breakTo : Span → Option String → Statement
  continueTo : Span → Option String → Statement
  labeled : Span → String → Statement → Statement
  debugger : Span → Statement
  withObject : Span → Expression → Statement → Statement
  empty : Span → Statement
  program : Span → Mode → List Statement → ScopeSummary → Program

end EcmaFront
