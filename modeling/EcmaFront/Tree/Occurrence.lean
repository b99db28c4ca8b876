import EcmaFront.Grammar.Rules
import EcmaFront.Tree.Build

/-!
What occurs in a tree. A collector says what an occurrence counts for and what is left of the
findings in a function, a block or an assignment pattern where it ends; the rest of the tree is only
walked through, in the order of the text.
-/

set_option autoImplicit false

namespace EcmaFront

inductive Occurrence where
  | reference (name : String)
  | binding (form : BindingForm) (name : String)
  /-- The name of a function declaration. -/
  | functionName (name : String)
  /-- A name in an assignment pattern. -/
  | target (name : String)
  /-- A name that an operator or a loop assigns to. -/
  | write (name : String)
  | withObject
  /-- A name is the operand of `delete`. -/
  | delete (name : String)
  /-- A function declaration is the body of another statement. -/
  | loneFunction
  deriving DecidableEq, Repr

/-- A function where it stands in a tree. -/
structure FunctionNode where
  parts : Function
  isDeclaration : Bool

def FunctionNode.ownName? (n : FunctionNode) : Option String :=
  if n.isDeclaration || n.parts.mode != .plainFunction then none else n.parts.name

structure Collector (α : Type) where
  leaf : Occurrence → List α
  function : FunctionNode → List α → List α
  /-- A block, a loop, a `switch` or a handler with its parameter, and the lexical variables of
  it. -/
  block : Environment → List α → List α
  /-- An assignment pattern. -/
  assigned : List α → List α

def Stmt.isFunction : Stmt → Bool
  | .function _ => true
  | _ => false

namespace Collector

variable {α : Type}

/-- What an expression that is a name counts for besides. -/
def named (c : Collector α) (occurrence : String → Occurrence) (e : Expr) : List α :=
  match e.name? with
  | some name => c.leaf (occurrence name)
  | none => []

def deleted (c : Collector α) (op : UnaryOp) (e : Expr) : List α :=
  if op = .delete then c.named .delete e else []

def lone (c : Collector α) (s : Stmt) : List α := if s.isFunction then c.leaf .loneFunction else []

def functionName (c : Collector α) (name? : Option String) : List α :=
  match name? with
  | some name => c.leaf (.functionName name)
  | none => []

mutual

def expr (c : Collector α) : Expr → List α
  | .ident _ name => c.leaf (.reference name)
  | .array _ es => c.elements es
  | .object _ ps => c.properties ps
  | .function ⟨span, start, bodySpan, name, mode, form, constructorKind, formals, body, scope⟩ =>
    c.function ⟨⟨span, start, bodySpan, name, mode, form, constructorKind, formals, body, scope⟩,
      false⟩
      (c.parameters formals ++ c.functionBody body)
  | .unary _ op e => c.expr e ++ c.deleted op e
  | .update _ _ _ e => c.expr e ++ c.named .write e
  | .member _ e _ | .spread _ e => c.expr e
  | .binary _ _ e f | .index _ e f => c.expr e ++ c.expr f
  | .conditional _ e f g => c.expr e ++ c.expr f ++ c.expr g
  | .assign _ _ e f => c.expr e ++ c.named .write e ++ c.expr f
  | .assignPattern _ p e => c.assigned (c.pat .assignment p) ++ c.expr e
  | .sequence _ es => c.exprs es
  | .call _ e es => c.expr e ++ c.exprs es
  | .construct _ e none => c.expr e
  | .construct _ e (some es) => c.expr e ++ c.exprs es
  | .null _ | .bool _ _ | .number _ _ | .string _ _ | .regexp _ _ _ | .self _ | .super _
  | .newTarget _ => []

def exprs (c : Collector α) : List Expr → List α
  | [] => []
  | e :: es => c.expr e ++ c.exprs es

def expr? (c : Collector α) : Option Expr → List α
  | none => []
  | some e => c.expr e

def elements (c : Collector α) : List (Option Expr) → List α
  | [] => []
  | e :: es => c.expr? e ++ c.elements es

def key (c : Collector α) : PropertyKey Expr → List α
  | .computed e => c.expr e
  | .ident _ | .string _ | .number _ => []

def property (c : Collector α) : Property → List α
  | .entry _ k _ e => c.key k ++ c.expr e
  | .spread _ e => c.expr e

def properties (c : Collector α) : List Property → List α
  | [] => []
  | p :: ps => c.property p ++ c.properties ps

def parameters (c : Collector α) : List (Parameter Expr Pat) → List α
  | [] => []
  | ⟨_, p, e, _⟩ :: ps => c.pat .parameter p ++ c.expr? e ++ c.parameters ps

def functionBody (c : Collector α) : FunctionBody Expr Stmt → List α
  | .block ss => c.stmts ss
  | .expression e => c.expr e

def pat (c : Collector α) (form : BindingForm) : Pat → List α
  | .binding _ name => c.leaf (.binding form name)
  | .array _ es rest => c.patElements form es ++ c.pat? form rest
  | .object _ ps => c.patProperties form ps
  | .target e => c.expr e ++ c.named .target e

def pat? (c : Collector α) (form : BindingForm) : Option Pat → List α
  | none => []
  | some p => c.pat form p

def patElements (c : Collector α) (form : BindingForm) :
    List (Option (PatternElement Expr Pat)) → List α
  | [] => []
  | none :: es => c.patElements form es
  | some ⟨_, p, e⟩ :: es => c.pat form p ++ c.expr? e ++ c.patElements form es

def patProperties (c : Collector α) (form : BindingForm) : List (PatternProperty Expr Pat) → List α
  | [] => []
  | ⟨_, k, p, e, _⟩ :: ps => c.key k ++ c.pat form p ++ c.expr? e ++ c.patProperties form ps

def stmt (c : Collector α) : Stmt → List α
  | .block ⟨_, ss, scope⟩ => c.block scope (c.stmts ss)
  | .declaration ⟨_, kind, ds⟩ => c.declarators kind ds
  | .function ⟨span, start, bodySpan, name, mode, form, constructorKind, formals, body, scope⟩ =>
    c.functionName name ++
      c.function ⟨⟨span, start, bodySpan, name, mode, form, constructorKind, formals, body, scope⟩,
        true⟩
        (c.parameters formals ++ c.functionBody body)
  | .expression _ e | .throw _ e => c.expr e
  | .branch _ e s t => c.expr e ++ c.lone s ++ c.stmt s ++ c.alternate? t
  | .loop _ init e f s scope =>
    c.block scope (c.init? init ++ c.expr? e ++ c.expr? f ++ c.lone s ++ c.stmt s)
  | .loopEach _ _ left e s scope =>
    c.block scope (c.loopTarget left ++ c.expr e ++ c.lone s ++ c.stmt s)
  | .loopWhile _ e s => c.expr e ++ c.lone s ++ c.stmt s
  | .doWhile _ s e => c.lone s ++ c.stmt s ++ c.expr e
  | .switch _ e cs scope => c.expr e ++ c.block scope (c.clauses cs)
  | .attempt _ ⟨_, ss, scope⟩ handler finalizer =>
    c.block scope (c.stmts ss) ++ c.handler? handler ++ c.block? finalizer
  | .leave _ e => c.expr? e
  | .labeled _ _ s => c.lone s ++ c.stmt s
  | .withObject _ e s => c.leaf .withObject ++ c.expr e ++ c.stmt s
  | .breakTo _ _ | .continueTo _ _ | .debugger _ | .empty _ => []

def stmts (c : Collector α) : List Stmt → List α
  | [] => []
  | s :: ss => c.stmt s ++ c.stmts ss

def alternate? (c : Collector α) : Option Stmt → List α
  | none => []
  | some s => c.lone s ++ c.stmt s

def declarators (c : Collector α) (kind : VariableKind) : List (Declarator Expr Pat) → List α
  | [] => []
  | ⟨_, p, e⟩ :: ds => c.pat (.variable kind) p ++ c.expr? e ++ c.declarators kind ds

def init? (c : Collector α) : Option (ForInit (VariableDeclaration Expr Pat) Expr) → List α
  | none => []
  | some (.declaration ⟨_, kind, ds⟩) => c.declarators kind ds
  | some (.expression e) => c.expr e

def loopTarget (c : Collector α) : ForTarget (VariableDeclaration Expr Pat) Expr Pat → List α
  | .declaration ⟨_, kind, ds⟩ => c.declarators kind ds
  | .expression e => c.expr e ++ c.named .write e
  | .pattern p => c.assigned (c.pat .assignment p)

def clauses (c : Collector α) : List (SwitchClause Expr Stmt) → List α
  | [] => []
  | ⟨_, e, ss⟩ :: rest => c.expr? e ++ c.stmts ss ++ c.clauses rest

def handler? (c : Collector α) : Option (CatchClause (Block Stmt) Pat) → List α
  | none => []
  | some ⟨_, p, ⟨_, ss, scope⟩⟩ => c.block scope (c.pat .catchParameter p ++ c.stmts ss)

def block? (c : Collector α) : Option (Block Stmt) → List α
  | none => []
  | some ⟨_, ss, scope⟩ => c.block scope (c.stmts ss)

end

/-- What occurs inside the parameters and the body of a function. -/
def inside (c : Collector α) (f : Function) : List α :=
  c.parameters f.parameters ++ c.functionBody f.body

end Collector

/-- A program, or a function in it, with what was found inside. -/
structure Enclosure (α : Type) where
  node? : Option FunctionNode
  scope : ScopeSummary
  found : List α

/-- Something found, or a function that the search came through. -/
inductive Finding (α : Type) where
  | item (a : α)
  | enclosure (e : Enclosure α)

namespace Finding

variable {α : Type}

def items (l : List (Finding α)) : List α :=
  l.filterMap fun
    | .item a => some a
    | .enclosure _ => none

def enclosures (l : List (Finding α)) : List (Enclosure α) :=
  l.filterMap fun
    | .item _ => none
    | .enclosure e => some e

@[simp] theorem items_append (l l' : List (Finding α)) : items (l ++ l') = items l ++ items l' :=
  List.filterMap_append

@[simp] theorem enclosures_append (l l' : List (Finding α)) :
    enclosures (l ++ l') = enclosures l ++ enclosures l' :=
  List.filterMap_append

theorem items_flatMap {β : Type} (xs : List β) (f : β → List (Finding α)) :
    items (xs.flatMap f) = xs.flatMap fun x => items (f x) := by
  induction xs with
  | nil => rfl
  | cons x xs ih => rw [List.flatMap_cons, items_append, ih, List.flatMap_cons]

@[simp] theorem items_map_item (l : List α) : items (l.map item) = l := by
  rw [items, List.filterMap_map]
  exact List.filterMap_some

@[simp] theorem items_map_enclosure (l : List (Enclosure α)) : items (l.map enclosure) = [] := by
  simp [items, List.filterMap_map]

@[simp] theorem enclosures_map_item (l : List α) : enclosures (l.map item) = [] := by
  simp [enclosures, List.filterMap_map]

@[simp] theorem enclosures_map_enclosure (l : List (Enclosure α)) :
    enclosures (l.map enclosure) = l := by
  rw [enclosures, List.filterMap_map]
  exact List.filterMap_some

@[simp] theorem items_nil : items ([] : List (Finding α)) = [] := rfl

@[simp] theorem enclosures_nil : enclosures ([] : List (Finding α)) = [] := rfl

end Finding

open Finding (items enclosures)

/-- A collector that keeps every function that it comes through, with what it finds inside. -/
def Collector.enclosing {α : Type} (c : Collector α) : Collector (Finding α) where
  leaf o := (c.leaf o).map .item
  function n l :=
    let own : Enclosure α := ⟨some n, n.parts.scope, items l⟩
    (c.function n (items l)).map .item ++ (enclosures l ++ [own]).map .enclosure
  block scope l := (c.block scope (items l)).map .item ++ (enclosures l).map .enclosure
  assigned l := (c.assigned (items l)).map .item ++ (enclosures l).map .enclosure

namespace Collector

variable {α : Type} (c : Collector α) (o : Occurrence) (n : FunctionNode) (scope : Environment)
  (l : List (Finding α))

@[simp] theorem items_leaf : items (c.enclosing.leaf o) = c.leaf o := by simp [enclosing]

@[simp] theorem enclosures_leaf : enclosures (c.enclosing.leaf o) = [] := by simp [enclosing]

@[simp] theorem items_function : items (c.enclosing.function n l) = c.function n (items l) := by
  rw [enclosing, Finding.items_append, Finding.items_map_item, Finding.items_map_enclosure,
    List.append_nil]

@[simp] theorem enclosures_function :
    enclosures (c.enclosing.function n l) = enclosures l ++ [⟨some n, n.parts.scope, items l⟩] := by
  rw [enclosing, Finding.enclosures_append, Finding.enclosures_map_item,
    Finding.enclosures_map_enclosure, List.nil_append]

@[simp] theorem items_block : items (c.enclosing.block scope l) = c.block scope (items l) := by
  simp [enclosing]

@[simp] theorem enclosures_block : enclosures (c.enclosing.block scope l) = enclosures l := by
  simp [enclosing]

@[simp] theorem items_assigned : items (c.enclosing.assigned l) = c.assigned (items l) := by
  simp [enclosing]

@[simp] theorem enclosures_assigned : enclosures (c.enclosing.assigned l) = enclosures l := by
  simp [enclosing]

end Collector

/-- The functions of a program and the program itself, with what a collector finds inside. -/
def Program.enclosures {α : Type} (p : Program) (c : Collector α) : List (Enclosure α) :=
  Finding.enclosures (c.enclosing.stmts p.body) ++
    [⟨none, p.scope, items (c.enclosing.stmts p.body)⟩]

end EcmaFront
