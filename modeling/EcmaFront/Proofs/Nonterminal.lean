import EcmaFront.Grammar.Run
import EcmaFront.Proofs.Outcome

/-!
The nonterminals of the grammar, and the facts about single states and tokens that its rules ask
for.
-/

set_option autoImplicit false

namespace EcmaFront

namespace ParseState

/-- The binary operator that the current token writes here. -/
def binaryOp? (s : ParseState) : Option BinaryOp :=
  if s.kind.precedence s.allowsIn = 0 then none else BinaryOp.ofToken? s.kind

def reference? (s : ParseState) : Option String :=
  if s.kind = .identifier then some s.token.text
  else if s.kind = .kwLet ∧ s.strict = false then some "let"
  else none

def enter (s : ParseState) (h : Parse.FunctionHeader) : ParseState :=
  { s with scopes := s.scopes.push (h.frame s.strict), richParameters := false, allowsIn := true }

def leaveTo (s outer : ParseState) : ParseState :=
  { s with richParameters := outer.richParameters, allowsIn := outer.allowsIn }

/-- The first accessor of an object literal is reported. -/
def noteAccessor (s : ParseState) (names : PropertyNames) : ParseState :=
  if names.isData then s.record (.firstAccessor s.token.extent.start) else s

/-- A name in an assignment pattern waits to be written. -/
def awaitWrite (s : ParseState) (name? : Option String) (extent : Extent) : ParseState :=
  match name? with
  | some name => { s with pendingWrites := (name, extent) :: s.pendingWrites }
  | none => s

/-- The writes that have come to wait since a checkpoint, in order. -/
def awaiting (s : ParseState) (point : Checkpoint) : List (String × Extent) :=
  (s.pendingWrites.take (s.pendingWrites.length - point.pendingWrites)).reverse

def commit (s : ParseState) (point : Checkpoint) : ParseState :=
  { s with pendingWrites := s.pendingWrites.drop (s.pendingWrites.length - point.pendingWrites) }

/-- The state in which a list that turned strict is read again. -/
def restart (s : ParseState) (directive : Nat) (start : Checkpoint) : ParseState :=
  (s.record (.strictDirective directive)).backtrack start

end ParseState

namespace Token

def literal? (B : NodeAlgebra) (t : Token) : Option (Span → B.Expression) :=
  match t.kind with
  | .kwThis => some B.self
  | .kwNull => some B.null
  | .kwTrue => some (B.bool · true)
  | .kwFalse => some (B.bool · false)
  | .number => some (B.number · t.numberValue)
  | .string => some (B.string · t.text)
  | _ => none

def key? {E : Type} (t : Token) : Option (PropertyKey E) :=
  match t.kind with
  | .string => some (.string t.text)
  | .number => some (.number t.numberValue)
  | kind => if kind.isIdentifierName then some (.ident t.name) else none

theorem key?_of_name {E : Type} {t : Token} (hs : t.kind ≠ .string) (hn : t.kind ≠ .number)
    (hk : t.kind.isIdentifierName = true) : t.key? (E := E) = some (.ident t.name) := by
  unfold key?
  split
  · contradiction
  · contradiction
  · simp [hk]

def regexpParts (t : Token) : String × String :=
  match t.value with
  | .regexp pattern flags => (pattern, flags)
  | _ => ("", "")

end Token

open Parse (BinaryScan MemberChain Placed Waiting FunctionHeader DeclarationList ArrayParts)

/-- A declarator in front of others; `missing` says that it lacks the initializer that its kind
requires. -/
def Parse.DeclarationList.cons {B : NodeAlgebra} (d : Declarator B.Expression B.Pattern)
    (missing : Option Extent) (list : DeclarationList B) : DeclarationList B where
  declarators := d :: list.declarators
  missing := missing <|> list.missing
  initialized := d.init.isSome || list.initialized

def Parse.ArrayParts.cons {B : NodeAlgebra}
    (element : Option (PatternElement B.Expression B.Pattern)) (parts : ArrayParts B) :
    ArrayParts B :=
  ⟨element :: parts.elements, parts.rest⟩

/-- What a rule of the grammar may read. -/
inductive Nonterminal (B : NodeAlgebra) where
  | item | statement | statementInside
  | functionDeclaration
  | variableStatement (kind : VariableKind)
  | declarators (kind : VariableKind) (inHead : Bool)
  | declarator (kind : VariableKind) (inHead : Bool)
  | declaratorTarget (kind : VariableKind)
  | block
  | itemsUntil (close : TokenKind → Bool)
  | condition | loopBody
  | forHead (start : Position)
  | declaringLoop (start : Position) (kind : VariableKind)
  | assigningLoop (start : Position)
  | expressionLoop (start : Position)
  | countedLoop (start : Position) (init : Option (ForInit B.Statement B.Expression))
  | eachLoop (start : Position) (left : ForTarget B.Statement B.Expression B.Pattern)
    (loop : EachLoop)
  | expressionBefore (close : TokenKind)
  | clauses (hasDefault : Bool)
  | clauseTest (hasDefault : Bool)
  | catchClause | catchParameter
  | body (close : TokenKind) (start : Checkpoint)
  /-- Directives none of which turns the list strict. -/
  | directives (close : TokenKind)
  | items (close : TokenKind) (prologue : Bool)
  | assignment | assignmentInside | plainAssignment | conditional
  | attempt (accept : ParseState → Bool)
  | binary
  | binaryRest (scan : BinaryScan B.Expression)
  | operand
  /-- An operand with the operators before it; `first` is the first token after them. -/
  | unary (first : Extent)
  | postfixed | leftHandSide
  | news (waiting : List Position)
  | head
  | members (start first : Position) (chain : MemberChain B.Expression)
  | primary
  | expression | moreExpressions
  | arguments | argumentList | spreadable | elements
  | properties (names : PropertyNames) (prototype : Bool)
  | property (names : PropertyNames) (prototype : Bool)
  | propertyValue (start : ParseState) (key : PropertyKey B.Expression) (prototype : Bool)
  | propertyKey
  /-- A function as an expression. -/
  | functionNode (start : Position) (header : FunctionHeader)
  | functionParts (start : Position) (header : FunctionHeader)
  | functionInside (start : Position) (header : FunctionHeader) (outerIn : Bool)
  | parameters (header : FunctionHeader)
  | formals | formal | parameterTarget
  | functionBody (header : FunctionHeader) (outerIn : Bool)
  | pattern (form : BindingForm)
  | patternInside (form : BindingForm)
  | patternElements (form : BindingForm)
  | patternElement (form : BindingForm)
  | patternDefault
  | patternProperties (form : BindingForm)
  | patternProperty (form : BindingForm)
  | patternKey
  | patternPropertyTarget (form : BindingForm) (start : ParseState) (name? : Option String)

/-- What the phrase is taken for. -/
@[reducible] def Nonterminal.Result {B : NodeAlgebra} : Nonterminal B → Type
  | .item | .statement | .statementInside | .functionDeclaration | .variableStatement _ | .block
  | .loopBody | .forHead _ | .declaringLoop _ _ | .assigningLoop _ | .expressionLoop _
  | .countedLoop _ _ | .eachLoop _ _ _ => B.Statement
  | .declarators _ _ => DeclarationList B
  | .declarator _ _ => Declarator B.Expression B.Pattern × Option Extent
  | .declaratorTarget _ | .catchParameter | .parameterTarget | .pattern _ | .patternInside _ =>
    B.Pattern
  | .itemsUntil _ | .body _ _ | .directives _ | .items _ _ => List B.Statement
  | .condition | .assignment | .assignmentInside | .plainAssignment | .conditional | .binary
  | .binaryRest _ | .unary _ | .postfixed | .leftHandSide | .head | .primary | .expression
  | .spreadable | .functionNode _ _ => B.Expression
  | .expressionBefore _ | .clauseTest _ | .patternDefault => Option B.Expression
  | .clauses _ => List (SwitchClause B.Expression B.Statement)
  | .catchClause => CatchClause B.Statement B.Pattern
  | .attempt _ => Option B.Pattern
  | .operand => Placed B.Expression
  | .news _ => List Position × Option B.Expression
  | .members _ _ _ => MemberChain B.Expression
  | .moreExpressions | .arguments | .argumentList => List B.Expression
  | .elements => List (Option B.Expression)
  | .properties _ _ => List B.Property
  | .property _ _ => B.Property × PropertyNames × Bool
  | .propertyValue _ _ _ => PropertyKind × B.Expression × Bool
  | .propertyKey => PropertyKey B.Expression
  | .functionParts _ _ | .functionInside _ _ _ => FunctionParts B.Expression B.Statement B.Pattern
  | .parameters _ | .formals => List (Parameter B.Expression B.Pattern)
  | .formal => Parameter B.Expression B.Pattern
  | .functionBody _ _ => FunctionBody B.Expression B.Statement × ScopeSummary
  | .patternElements _ => ArrayParts B
  | .patternElement _ => PatternElement B.Expression B.Pattern
  | .patternProperties _ => List (PatternProperty B.Expression B.Pattern)
  | .patternProperty _ => PatternProperty B.Expression B.Pattern
  | .patternKey => PropertyKey B.Expression × Option String
  | .patternPropertyTarget _ _ _ => B.Pattern × Bool

end EcmaFront
