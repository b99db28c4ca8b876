import EcmaFront.Lexer.Basic
import EcmaFront.Tree.Build
import EcmaFront.Tree.Node

/-!
What the nodes of a tree must be like beyond the shape that their types give them.
-/

set_option autoImplicit false

namespace EcmaFront

namespace Pat

mutual

/-- The names and targets that a pattern is made of, in the order of the text. -/
def leaves : Pat → List Pat
  | .array _ es rest => elementLeaves es ++ restLeaves rest
  | .object _ ps => propertyLeaves ps
  | .binding span name => [.binding span name]
  | .target e => [.target e]

def elementLeaves : List (Option (PatternElement Expr Pat)) → List Pat
  | [] => []
  | none :: es => elementLeaves es
  | some ⟨_, p, _⟩ :: es => leaves p ++ elementLeaves es

def restLeaves : Option Pat → List Pat
  | none => []
  | some p => leaves p

def propertyLeaves : List (PatternProperty Expr Pat) → List Pat
  | [] => []
  | ⟨_, _, p, _, _⟩ :: ps => leaves p ++ propertyLeaves ps

end

def name? : Pat → Option String
  | .binding _ name => some name
  | _ => none

def names (p : Pat) : List String := p.leaves.filterMap name?

def isComposite : Pat → Bool
  | .array _ _ _ | .object _ _ => true
  | _ => false

def IsAssignable (p : Pat) : Prop := ∀ q ∈ p.leaves, ∃ e, q = .target e ∧ e.isTarget = true

end Pat

namespace VariableDeclaration

/-- A constant is given its value, and a pattern the value that it takes apart. -/
def IsInitialized (d : VariableDeclaration Expr Pat) : Prop :=
  ∀ x ∈ d.declarators, d.kind = .const ∨ x.target.isComposite = true → x.init ≠ none

def IsNamed (d : VariableDeclaration Expr Pat) : Prop :=
  d.kind ≠ .var → ∀ x ∈ d.declarators, "let" ∉ x.target.names

end VariableDeclaration

/-- What a loop over members assigns to can be assigned to. A declaration there has one declarator,
and no initializer. -/
def ForTarget.IsAssignable : ForTarget (VariableDeclaration Expr Pat) Expr Pat → Prop
  | .declaration d => ∃ x, d.declarators = [x] ∧ x.init = none
  | .expression e => e.isTarget = true
  | .pattern p => p.IsAssignable

namespace FunctionParts

/-- The names of the parameters, as often as they stand there. -/
def parameterNames (f : Function) : List String := f.parameters.flatMap (·.pattern.names)

def isRich (f : Function) : Bool :=
  f.parameters.any fun p => p.pattern.isComposite || p.default.isSome || p.isRest

structure IsWellFormed (f : Function) : Prop where
  getter : f.mode = .getter → f.parameters = []
  setter : f.mode = .setter → ∃ p, f.parameters = [p] ∧ p.isRest = false
  /-- Only the last parameter may take the rest. -/
  last : ∀ p ∈ f.parameters.dropLast, p.isRest = false
  /-- The rest has no default. -/
  rest : ∀ p ∈ f.parameters, p.isRest = true → p.default = none
  distinct : f.form = .arrow ∨ f.mode = .arrowFunction ∨ f.mode.isMethodLike = true ∨
    f.isRich = true →
    f.parameterNames.Nodup

end FunctionParts

/-- Behind the position the source goes on with a token of the kind. -/
def Source.Continues (source : Source) (position : Position) (kind : TokenKind) : Prop :=
  ∃ lexer : Lexer, lexer.view = (Lexer.ofSource source).view ∧
    lexer.standing.offset = position.offset ∧
    ∃ strict, (lexer.next strict).1.kind = kind

def Expr.IsProper (source : Source) : Expr → Prop
  | .update _ _ _ e | .assign _ _ e _ => e.isTarget = true
  | .assignPattern _ p _ =>
    p.IsAssignable ∧ p.isComposite = true ∧ source.Continues p.span.stop .equal
  | .function f => f.IsWellFormed
  | _ => True

def Stmt.IsProper : Stmt → Prop
  | .declaration d => d.IsNamed
  | .function f => f.IsWellFormed
  | .loopEach _ _ left _ _ _ => left.IsAssignable
  | .switch _ _ clauses _ => clauses.countP (·.test.isNone) ≤ 1
  | .attempt _ _ handler finalizer => handler ≠ none ∨ finalizer ≠ none
  | _ => True

namespace Node

/-- The nodes inside a node, except what a loop over members assigns to. -/
def parts : Node → List Node
  | .statement (.loopEach _ _ _ e s _) => [.expression e, .statement s]
  | n => n.children

def IsInitialized : Node → Prop
  | .statement (.declaration d) => d.IsInitialized
  | _ => True

def IsProper (source : Source) : Node → Prop
  | .statement a => a.IsProper
  | .expression e => e.IsProper source
  | _ => True

/-- Besides, declarations inside are initialized. -/
structure IsWellFormed (source : Source) (n : Node) : Prop where
  proper : n.IsProper source
  initialized : ∀ m ∈ n.parts, m.IsInitialized

def isReturn : Node → Bool
  | .statement (.leave _ _) => true
  | _ => false

end Node

structure Program.IsWellFormed (source : Source) (p : Program) : Prop where
  initialized : ∀ a ∈ p.body, (Node.statement a).IsInitialized
  nodes : ∀ n, p.Contains n → n.IsWellFormed source
  /-- `return` stands in functions only. -/
  returns : ∀ around n, p.Places around n → n.isReturn = true → around.any (·.isFunction) = true

end EcmaFront
