import EcmaFront.Operator
import EcmaFront.Tree.Parts

/-!
Syntax trees. Functions and programs carry the summary of their scope, blocks their lexical
variables.
-/

set_option autoImplicit false

namespace EcmaFront

mutual

inductive Expr where
  | null (span : Span)
  | bool (span : Span) (value : Bool)
  | number (span : Span) (value : Binary64)
  | string (span : Span) (value : String)
  | regexp (span : Span) (pattern flags : String)
  | ident (span : Span) (name : String)
  | self (span : Span)
  | array (span : Span) (elements : List (Option Expr))
  | object (span : Span) (properties : List Property)
  | function (parts : FunctionParts Expr Stmt Pat)
  | unary (span : Span) (op : UnaryOp) (argument : Expr)
  | update (span : Span) (op : UpdateOp) (before : Bool) (argument : Expr)
  | binary (span : Span) (op : BinaryOp) (left right : Expr)
  | conditional (span : Span) (test consequent alternate : Expr)
  | assign (span : Span) (op : AssignOp) (target value : Expr)
  | assignPattern (span : Span) (target : Pat) (value : Expr)
  | sequence (span : Span) (expressions : List Expr)
  | member (span : Span) (object : Expr) (name : String)
  | index (span : Span) (object key : Expr)
  | call (span : Span) (callee : Expr) (arguments : List Expr)
  | construct (span : Span) (callee : Expr) (arguments : Option (List Expr))
  | spread (span : Span) (argument : Expr)
  | super (span : Span)
  | newTarget (span : Span)

inductive Property where
  | entry (span : Span) (key : PropertyKey Expr) (kind : PropertyKind) (value : Expr)
  | spread (span : Span) (argument : Expr)

inductive Pat where
  | binding (span : Span) (name : String)
  | array (span : Span) (elements : List (Option (PatternElement Expr Pat))) (rest : Option Pat)
  | object (span : Span) (properties : List (PatternProperty Expr Pat))
  | target (target : Expr)

inductive Stmt where
  | block (block : Block Stmt)
  | declaration (declaration : VariableDeclaration Expr Pat)
  | function (parts : FunctionParts Expr Stmt Pat)
  | expression (span : Span) (expression : Expr)
  | branch (span : Span) (test : Expr) (consequent : Stmt) (alternate : Option Stmt)
  | loop (span : Span) (init : Option (ForInit (VariableDeclaration Expr Pat) Expr))
    (test update : Option Expr) (body : Stmt) (scope : Environment)
  | loopEach (loop : EachLoop) (span : Span)
    (left : ForTarget (VariableDeclaration Expr Pat) Expr Pat)
    (right : Expr) (body : Stmt) (scope : Environment)
  | loopWhile (span : Span) (test : Expr) (body : Stmt)
  | doWhile (span : Span) (body : Stmt) (test : Expr)
  | switch (span : Span) (discriminant : Expr) (clauses : List (SwitchClause Expr Stmt))
    (scope : Environment)
  | attempt (span : Span) (block : Block Stmt) (handler : Option (CatchClause (Block Stmt) Pat))
    (finalizer : Option (Block Stmt))
  | leave (span : Span) (argument : Option Expr)
  | throw (span : Span) (argument : Expr)
  | breakTo (span : Span) (label : Option String)
  | continueTo (span : Span) (label : Option String)
  | labeled (span : Span) (label : String) (body : Stmt)
  | debugger (span : Span)
  | withObject (span : Span) (object : Expr) (body : Stmt)
  | empty (span : Span)

end

/-- Every form of function: declaration, expression, arrow, method and accessor. -/
abbrev Function := FunctionParts Expr Stmt Pat

structure Program where
  span : Span
  isModule : Bool
  body : List Stmt
  scope : ScopeSummary

def Program.strict (p : Program) : Bool := p.scope.strict

def Expr.span : Expr → Span
  | .null s | .bool s _ | .number s _ | .string s _ | .regexp s _ _ | .ident s _ | .self s
  | .array s _ | .object s _ | .unary s _ _ | .update s _ _ _ | .binary s _ _ _
  | .conditional s _ _ _ | .assign s _ _ _ | .assignPattern s _ _ | .sequence s _ | .member s _ _
  | .index s _ _ | .call s _ _ | .construct s _ _ | .spread s _ | .super s | .newTarget s => s
  | .function parts => parts.span

def Pat.span : Pat → Span
  | .binding s _ | .array s _ _ | .object s _ => s
  | .target e => e.span

namespace Stmt

def span : Stmt → Span
  | .block b => b.span
  | .declaration d => d.span
  | .function parts => parts.span
  | .expression s _ | .branch s _ _ _ | .loop s _ _ _ _ _ | .loopEach _ s _ _ _ _
  | .loopWhile s _ _ | .doWhile s _ _ | .switch s _ _ _ | .attempt s _ _ _ | .leave s _ | .throw s _
  | .breakTo s _ | .continueTo s _ | .labeled s _ _ | .debugger s | .withObject s _ _ | .empty s =>
    s

/-- A statement where a declaration belongs; one of another kind declares nothing. -/
def toDeclaration : Stmt → VariableDeclaration Expr Pat
  | .declaration d => d
  | s => ⟨s.span, .var, []⟩

/-- A statement where a block belongs; one of another kind stands alone in a block. -/
def toBlock : Stmt → Block Stmt
  | .block b => b
  | s => ⟨s.span, [s], .empty⟩

end Stmt

end EcmaFront
