import Mathlib.Logic.Relation
import EcmaFront.Tree.Basic

/-!
The nodes of a syntax tree, whatever phrase they stand for, each with its place in the source and
the nodes directly inside it.
-/

set_option autoImplicit false

namespace EcmaFront

inductive Node where
  | statement (statement : Stmt)
  | declarator (declarator : Declarator Expr Pat)
  | clause (clause : SwitchClause Expr Stmt)
  | handler (handler : CatchClause (Block Stmt) Pat)
  /-- The braces of a function and what is in them. -/
  | body (span : Span) (statements : List Stmt)
  | expression (expression : Expr)
  | property (property : Property)
  | parameter (parameter : Parameter Expr Pat)
  | pattern (pattern : Pat)
  | element (element : PatternElement Expr Pat)
  | patternProperty (property : PatternProperty Expr Pat)

def Property.span : Property → Span
  | .entry s _ _ _ | .spread s _ => s

def PropertyKey.nodes : PropertyKey Expr → List Node
  | .computed e => [.expression e]
  | _ => []

/-- A body that stands at `span`. -/
def FunctionBody.nodes (span : Span) : FunctionBody Expr Stmt → List Node
  | .block statements => [.body span statements]
  | .expression e => [.expression e]

def FunctionParts.nodes (f : Function) : List Node :=
  f.parameters.map .parameter ++ f.body.nodes f.bodySpan

def ForInit.nodes : ForInit (VariableDeclaration Expr Pat) Expr → List Node
  | .declaration d => [.statement (.declaration d)]
  | .expression e => [.expression e]

def ForTarget.nodes : ForTarget (VariableDeclaration Expr Pat) Expr Pat → List Node
  | .declaration d => [.statement (.declaration d)]
  | .expression e => [.expression e]
  | .pattern p => [.pattern p]

def optional (e : Option Expr) : List Node := e.toList.map .expression

def Expr.nodes : Expr → List Node
  | .null _ | .bool _ _ | .number _ _ | .string _ _ | .regexp _ _ _ | .ident _ _ | .self _
  | .super _
  | .newTarget _ => []
  | .array _ es => es.filterMap (·.map .expression)
  | .object _ ps => ps.map .property
  | .function f => f.nodes
  | .unary _ _ e | .update _ _ _ e | .spread _ e | .member _ e _ => [.expression e]
  | .binary _ _ a b | .assign _ _ a b | .index _ a b => [.expression a, .expression b]
  | .conditional _ a b c => [.expression a, .expression b, .expression c]
  | .assignPattern _ p e => [.pattern p, .expression e]
  | .sequence _ es => es.map .expression
  | .call _ e es => .expression e :: es.map .expression
  | .construct _ e es => .expression e :: (es.getD []).map .expression

def Pat.nodes : Pat → List Node
  | .binding _ _ => []
  | .array _ es rest => es.filterMap (·.map .element) ++ rest.toList.map .pattern
  | .object _ ps => ps.map .patternProperty
  | .target e => [.expression e]

def Stmt.nodes : Stmt → List Node
  | .block b => b.body.map .statement
  | .declaration d => d.declarators.map .declarator
  | .function f => f.nodes
  | .expression _ e | .throw _ e => [.expression e]
  | .branch _ e s alternate => .expression e :: .statement s :: alternate.toList.map .statement
  | .loop _ init test update s _ =>
    init.elim [] ForInit.nodes ++ optional test ++ optional update ++ [.statement s]
  | .loopEach _ _ left e s _ => left.nodes ++ [.expression e, .statement s]
  | .loopWhile _ e s | .withObject _ e s => [.expression e, .statement s]
  | .doWhile _ s e => [.statement s, .expression e]
  | .switch _ e clauses _ => .expression e :: clauses.map .clause
  | .attempt _ b handler finalizer =>
    .statement (.block b) :: handler.toList.map .handler ++ finalizer.toList.map fun b =>
      .statement (.block b)
  | .leave _ e => optional e
  | .labeled _ _ s => [.statement s]
  | .breakTo _ _ | .continueTo _ _ | .debugger _ | .empty _ => []

namespace Node

def span : Node → Span
  | .statement s => s.span
  | .declarator d => d.span
  | .clause c => c.span
  | .handler c => c.span
  | .body span _ => span
  | .expression e => e.span
  | .property p => p.span
  | .parameter p => p.span
  | .pattern p => p.span
  | .element e => e.span
  | .patternProperty p => p.span

/-- The nodes directly inside a node, in the order of the text. -/
def children : Node → List Node
  | .statement s => s.nodes
  | .declarator d => .pattern d.target :: optional d.init
  | .clause c => optional c.test ++ c.body.map .statement
  | .handler c => [.pattern c.parameter, .statement (.block c.body)]
  | .body _ statements => statements.map .statement
  | .expression e => e.nodes
  | .property (.entry _ key _ value) => key.nodes ++ [.expression value]
  | .property (.spread _ e) => [.expression e]
  | .parameter p => .pattern p.pattern :: optional p.default
  | .pattern p => p.nodes
  | .element e => .pattern e.target :: optional e.default
  | .patternProperty p => p.key.nodes ++ .pattern p.target :: optional p.default

def isFunction : Node → Bool
  | .statement (.function _) | .expression (.function _) => true
  | _ => false

def Reaches : Node → Node → Prop := Relation.ReflTransGen fun n m => m ∈ n.children

namespace Reaches

variable {n m k : Node}

theorem refl (n : Node) : n.Reaches n := Relation.ReflTransGen.refl

theorem child (h : m ∈ n.children) (hm : m.Reaches k) : n.Reaches k := .head h hm

theorem iff : n.Reaches k ↔ n = k ∨ ∃ m ∈ n.children, m.Reaches k := by
  refine ⟨fun h => ?_, fun h => ?_⟩
  · obtain rfl | ⟨m, hm, hk⟩ := Relation.ReflTransGen.cases_head h
    · exact .inl rfl
    · exact .inr ⟨m, hm, hk⟩
  · obtain rfl | ⟨m, hm, hk⟩ := h
    · exact .refl _
    · exact child hm hk

end Reaches

end Node

def Program.Contains (p : Program) (n : Node) : Prop := ∃ s ∈ p.body, (Node.statement s).Reaches n

/-- A node of a program stands inside these nodes, the innermost first. -/
inductive Program.Places (p : Program) : List Node → Node → Prop where
  | item {a : Stmt} (h : a ∈ p.body) : Places p [] (.statement a)
  | child {around : List Node} {n m : Node} (h : Places p around n) (hm : m ∈ n.children) :
    Places p (n :: around) m

theorem Program.Contains.places {p : Program} {n : Node} (h : p.Contains n) :
    ∃ around, p.Places around n := by
  obtain ⟨a, ha, hr⟩ := h
  induction hr with
  | refl => exact ⟨[], .item ha⟩
  | tail _ hm ih =>
    obtain ⟨around, h⟩ := ih
    exact ⟨_, .child h hm⟩

end EcmaFront
