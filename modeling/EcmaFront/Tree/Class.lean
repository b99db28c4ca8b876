import EcmaFront.Tree.Algebra

/-!
What is left of a phrase when the text is only checked: the class that the grammar may ask for.
-/

set_option autoImplicit false

namespace EcmaFront

inductive ExpressionClass where
  | ident (name : String)
  | member | string | function | other
  deriving DecidableEq, Repr, Inhabited

namespace ExpressionClass

def name? : ExpressionClass → Option String
  | .ident name => some name
  | _ => none

def isTarget : ExpressionClass → Bool
  | .ident _ | .member => true
  | _ => false

end ExpressionClass

inductive StatementClass where
  | directive | other
  deriving DecidableEq, Repr, Inhabited

def StatementClass.ofExpression : ExpressionClass → StatementClass
  | .string => .directive
  | _ => .other

def NodeAlgebra.check : NodeAlgebra where
  Expression := ExpressionClass
  Statement := StatementClass
  Pattern := Unit
  Property := Unit
  Program := ScopeSummary
  name? := ExpressionClass.name?
  isTarget := ExpressionClass.isTarget
  isDirective s := s == .directive
  null _ := .other
  bool _ _ := .other
  number _ _ := .other
  string _ _ := .string
  regexp _ _ _ := .other
  ident _ name := .ident name
  self _ := .other
  array _ _ := .other
  object _ _ := .other
  entry _ _ _ _ := ()
  spreadEntry _ _ := ()
  function _ := .function
  unary _ _ _ := .other
  update _ _ _ _ := .other
  binary _ _ _ _ := .other
  conditional _ _ _ _ := .other
  assign _ _ _ _ := .other
  assignPattern _ _ _ := .other
  sequence _ _ := .other
  member _ _ _ := .member
  index _ _ _ := .member
  call _ _ _ := .other
  construct _ _ _ := .other
  spread _ _ := .other
  super _ := .other
  newTarget _ := .other
  binding _ _ := ()
  target _ := ()
  arrayPattern _ _ _ := ()
  objectPattern _ _ := ()
  block _ := .other
  declaration _ := .other
  functionDeclaration _ := .other
  expression _ e := .ofExpression e
  branch _ _ _ _ := .other
  loop _ _ _ _ _ _ := .other
  loopEach _ _ _ _ _ _ := .other
  loopWhile _ _ _ := .other
  doWhile _ _ _ := .other
  switch _ _ _ _ := .other
  attempt _ _ _ _ := .other
  leave _ _ := .other
  throw _ _ := .other
  breakTo _ _ := .other
  continueTo _ _ := .other
  labeled _ _ _ := .other
  debugger _ := .other
  withObject _ _ _ := .other
  empty _ := .other
  program _ _ _ scope := scope

end EcmaFront
