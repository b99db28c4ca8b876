import EcmaFront.Tree.Algebra
import EcmaFront.Tree.Basic

/-!
Syntax trees as what the grammar makes. Nearly every operation is a constructor; only where a tree
is more exact than the grammar, a statement is taken for the declaration or the block that it is.
-/

set_option autoImplicit false

namespace EcmaFront

namespace Expr

def name? : Expr → Option String
  | .ident _ name => some name
  | _ => none

def isTarget : Expr → Bool
  | .ident .. | .member .. | .index .. => true
  | _ => false

def isString : Expr → Bool
  | .string .. => true
  | _ => false

end Expr

def Stmt.isDirective : Stmt → Bool
  | .expression _ e => e.isString
  | _ => false

def ForInit.ofStmt : ForInit Stmt Expr → ForInit (VariableDeclaration Expr Pat) Expr
  | .declaration s => .declaration s.toDeclaration
  | .expression e => .expression e

def ForTarget.ofStmt : ForTarget Stmt Expr Pat → ForTarget (VariableDeclaration Expr Pat) Expr Pat
  | .declaration s => .declaration s.toDeclaration
  | .expression e => .expression e
  | .pattern p => .pattern p

def CatchClause.ofStmt (c : CatchClause Stmt Pat) : CatchClause (Block Stmt) Pat :=
  ⟨c.span, c.parameter, c.body.toBlock⟩

@[reducible] def NodeAlgebra.tree : NodeAlgebra where
  Expression := Expr
  Statement := Stmt
  Pattern := Pat
  Property := EcmaFront.Property
  Program := EcmaFront.Program
  name? := Expr.name?
  isTarget := Expr.isTarget
  isDirective := Stmt.isDirective
  null := .null
  bool := .bool
  number := .number
  string := .string
  regexp := .regexp
  ident := .ident
  self := .self
  array := .array
  object := .object
  entry := .entry
  spreadEntry := .spread
  function := .function
  unary := .unary
  update := .update
  binary := .binary
  conditional := .conditional
  assign := .assign
  assignPattern := .assignPattern
  sequence := .sequence
  member := .member
  index := .index
  call := .call
  construct := .construct
  spread := .spread
  super := .super
  newTarget := .newTarget
  binding := .binding
  target := .target
  arrayPattern := .array
  objectPattern := .object
  block := .block
  declaration := .declaration
  functionDeclaration := .function
  expression := .expression
  branch := .branch
  loop span init test update body scope :=
    .loop span (init.map ForInit.ofStmt) test update body scope
  loopEach loop span left right body scope := .loopEach loop span left.ofStmt right body scope
  loopWhile := .loopWhile
  doWhile := .doWhile
  switch := .switch
  attempt span block handler finalizer :=
    .attempt span block.toBlock (handler.map CatchClause.ofStmt) (finalizer.map Stmt.toBlock)
  leave := .leave
  throw := .throw
  breakTo := .breakTo
  continueTo := .continueTo
  labeled := .labeled
  debugger := .debugger
  withObject := .withObject
  empty := .empty
  program span mode body scope := ⟨span, mode == .module, body, scope⟩

end EcmaFront
