import EcmaFront.Tree.Build
import EcmaFront.Tree.Class

/-!
What the grammar makes in one algebra, carried over to another. A homomorphism keeps every
operation, on what the grammar hands to it, and the facts that the grammar reads back. The class of
a tree is one.
-/

set_option autoImplicit false

namespace EcmaFront

section Parts

variable {E E' S S' P P' D D' : Type}

def PropertyKey.map (f : E → E') : PropertyKey E → PropertyKey E'
  | .ident name => .ident name
  | .string value => .string value
  | .number value => .number value
  | .computed key => .computed (f key)

def Parameter.map (f : E → E') (g : P → P') (p : Parameter E P) : Parameter E' P' :=
  ⟨p.span, g p.pattern, p.default.map f, p.isRest⟩

def FunctionBody.map (f : E → E') (g : S → S') : FunctionBody E S → FunctionBody E' S'
  | .block statements => .block (statements.map g)
  | .expression result => .expression (f result)

def FunctionParts.map (f : E → E') (g : S → S') (h : P → P') (p : FunctionParts E S P) :
    FunctionParts E' S' P' where
  span := p.span
  parametersStart := p.parametersStart
  bodySpan := p.bodySpan
  name := p.name
  mode := p.mode
  form := p.form
  constructorKind := p.constructorKind
  parameters := p.parameters.map (.map f h)
  body := p.body.map f g
  scope := p.scope

def Declarator.map (f : E → E') (g : P → P') (d : Declarator E P) : Declarator E' P' :=
  ⟨d.span, g d.target, d.init.map f⟩

def VariableDeclaration.map (f : E → E') (g : P → P') (d : VariableDeclaration E P) :
    VariableDeclaration E' P' :=
  ⟨d.span, d.kind, d.declarators.map (.map f g)⟩

def Block.map (f : S → S') (b : Block S) : Block S' := ⟨b.span, b.body.map f, b.scope⟩

def ForInit.map (f : D → D') (g : E → E') : ForInit D E → ForInit D' E'
  | .declaration d => .declaration (f d)
  | .expression e => .expression (g e)

def ForTarget.map (f : D → D') (g : E → E') (h : P → P') : ForTarget D E P → ForTarget D' E' P'
  | .declaration d => .declaration (f d)
  | .expression e => .expression (g e)
  | .pattern p => .pattern (h p)

def SwitchClause.map (f : E → E') (g : S → S') (c : SwitchClause E S) : SwitchClause E' S' :=
  ⟨c.span, c.test.map f, c.body.map g⟩

def CatchClause.map (f : S → S') (g : P → P') (c : CatchClause S P) : CatchClause S' P' :=
  ⟨c.span, g c.parameter, f c.body⟩

def PatternElement.map (f : E → E') (g : P → P') (e : PatternElement E P) : PatternElement E' P' :=
  ⟨e.span, g e.target, e.default.map f⟩

def PatternProperty.map (f : E → E') (g : P → P') (p : PatternProperty E P) :
    PatternProperty E' P' :=
  ⟨p.span, p.key.map f, g p.target, p.default.map f, p.shorthand⟩

@[simp] theorem PropertyKey.name?_map (f : E → E') (key : PropertyKey E) :
    (key.map f).name? = key.name? := by
  cases key <;> rfl

section Identity

variable {E S P D : Type}

@[simp] theorem PropertyKey.map_id (key : PropertyKey E) : key.map id = key := by cases key <;> rfl

@[simp] theorem Parameter.map_id : Parameter.map (E := E) (P := P) id id = id := by
  funext p
  simp [Parameter.map]

@[simp] theorem FunctionBody.map_id (body : FunctionBody E S) : body.map id id = body := by
  cases body <;> simp [FunctionBody.map]

@[simp] theorem FunctionParts.map_id (p : FunctionParts E S P) : p.map id id id = p := by
  simp [FunctionParts.map]

@[simp] theorem Declarator.map_id : Declarator.map (E := E) (P := P) id id = id := by
  funext d
  simp [Declarator.map]

@[simp] theorem VariableDeclaration.map_id (d : VariableDeclaration E P) : d.map id id = d := by
  simp [VariableDeclaration.map]

@[simp] theorem Block.map_id (b : Block S) : b.map id = b := by simp [Block.map]

@[simp] theorem ForInit.map_id : ForInit.map (D := D) (E := E) id id = id := by
  funext init
  cases init <;> rfl

@[simp] theorem ForTarget.map_id (target : ForTarget D E P) : target.map id id id = target := by
  cases target <;> rfl

@[simp] theorem SwitchClause.map_id : SwitchClause.map (E := E) (S := S) id id = id := by
  funext c
  simp [SwitchClause.map]

@[simp] theorem CatchClause.map_id : CatchClause.map (S := S) (P := P) id id = id := rfl

@[simp] theorem PatternElement.map_id : PatternElement.map (E := E) (P := P) id id = id := by
  funext e
  simp [PatternElement.map]

@[simp] theorem PatternProperty.map_id : PatternProperty.map (E := E) (P := P) id id = id := by
  funext p
  simp [PatternProperty.map]

end Identity

end Parts

def NodeAlgebra.IsDeclaration (A : NodeAlgebra) (a : A.Statement) : Prop := ∃ d, a = A.declaration d

def NodeAlgebra.IsBlock (A : NodeAlgebra) (a : A.Statement) : Prop := ∃ b, a = A.block b

/-- A map between what two algebras make. The grammar puts nothing but declarations into the head of
a loop and nothing but blocks into a `try` statement. -/
structure NodeAlgebra.Hom (A B : NodeAlgebra) where
  ofExpression : A.Expression → B.Expression
  ofStatement : A.Statement → B.Statement
  ofPattern : A.Pattern → B.Pattern
  ofProperty : A.Property → B.Property
  ofProgram : A.Program → B.Program
  name? : ∀ e, B.name? (ofExpression e) = A.name? e
  isTarget : ∀ e, B.isTarget (ofExpression e) = A.isTarget e
  isDirective : ∀ s, B.isDirective (ofStatement s) = A.isDirective s
  null : ∀ span, B.null span = ofExpression (A.null span)
  bool : ∀ span value, B.bool span value = ofExpression (A.bool span value)
  number : ∀ span value, B.number span value = ofExpression (A.number span value)
  string : ∀ span value, B.string span value = ofExpression (A.string span value)
  regexp : ∀ span pattern flags, B.regexp span pattern flags =
    ofExpression (A.regexp span pattern flags)
  ident : ∀ span name, B.ident span name = ofExpression (A.ident span name)
  self : ∀ span, B.self span = ofExpression (A.self span)
  array : ∀ span elements,
    B.array span (elements.map (Option.map ofExpression)) = ofExpression (A.array span elements)
  object : ∀ span properties,
    B.object span (properties.map ofProperty) = ofExpression (A.object span properties)
  entry : ∀ span key kind value,
    B.entry span (key.map ofExpression) kind (ofExpression value) =
    ofProperty (A.entry span key kind value)
  spreadEntry : ∀ span e, B.spreadEntry span (ofExpression e) = ofProperty (A.spreadEntry span e)
  function : ∀ parts,
    B.function (parts.map ofExpression ofStatement ofPattern) = ofExpression (A.function parts)
  unary : ∀ span op e, B.unary span op (ofExpression e) = ofExpression (A.unary span op e)
  update : ∀ span op before e,
    B.update span op before (ofExpression e) = ofExpression (A.update span op before e)
  binary : ∀ span op e e',
    B.binary span op (ofExpression e) (ofExpression e') = ofExpression (A.binary span op e e')
  conditional : ∀ span e e' e'',
    B.conditional span (ofExpression e) (ofExpression e') (ofExpression e'') =
    ofExpression (A.conditional span e e' e'')
  assign : ∀ span op e e',
    B.assign span op (ofExpression e) (ofExpression e') = ofExpression (A.assign span op e e')
  assignPattern : ∀ span p e,
    B.assignPattern span (ofPattern p) (ofExpression e) = ofExpression (A.assignPattern span p e)
  sequence : ∀ span es, B.sequence span (es.map ofExpression) = ofExpression (A.sequence span es)
  member : ∀ span e name, B.member span (ofExpression e) name = ofExpression (A.member span e name)
  index : ∀ span e e',
    B.index span (ofExpression e) (ofExpression e') = ofExpression (A.index span e e')
  call : ∀ span e es,
    B.call span (ofExpression e) (es.map ofExpression) = ofExpression (A.call span e es)
  construct : ∀ span e es, B.construct span (ofExpression e) (es.map (List.map ofExpression)) =
    ofExpression (A.construct span e es)
  spread : ∀ span e, B.spread span (ofExpression e) = ofExpression (A.spread span e)
  super : ∀ span, B.super span = ofExpression (A.super span)
  newTarget : ∀ span, B.newTarget span = ofExpression (A.newTarget span)
  binding : ∀ span name, B.binding span name = ofPattern (A.binding span name)
  target : ∀ e, B.target (ofExpression e) = ofPattern (A.target e)
  arrayPattern : ∀ span elements rest,
    B.arrayPattern span (elements.map (Option.map (.map ofExpression ofPattern)))
    (rest.map ofPattern) =
      ofPattern (A.arrayPattern span elements rest)
  objectPattern : ∀ span properties,
    B.objectPattern span (properties.map (.map ofExpression ofPattern)) =
      ofPattern (A.objectPattern span properties)
  block : ∀ b, B.block (b.map ofStatement) = ofStatement (A.block b)
  declaration : ∀ d, B.declaration (d.map ofExpression ofPattern) = ofStatement (A.declaration d)
  functionDeclaration : ∀ parts,
    B.functionDeclaration (parts.map ofExpression ofStatement ofPattern) =
      ofStatement (A.functionDeclaration parts)
  expression : ∀ span e, B.expression span (ofExpression e) = ofStatement (A.expression span e)
  branch : ∀ span e s s', B.branch span (ofExpression e) (ofStatement s) (s'.map ofStatement) =
    ofStatement (A.branch span e s s')
  loop : ∀ span init test update body scope,
    (∀ a, init = some (.declaration a) → A.IsDeclaration a) →
    B.loop span (init.map (.map ofStatement ofExpression)) (test.map ofExpression)
      (update.map ofExpression)
      (ofStatement body) scope = ofStatement (A.loop span init test update body scope)
  loopEach : ∀ loop span left right body scope, (∀ a, left = .declaration a → A.IsDeclaration a) →
    B.loopEach loop span (left.map ofStatement ofExpression ofPattern) (ofExpression right)
      (ofStatement body) scope = ofStatement (A.loopEach loop span left right body scope)
  loopWhile : ∀ span e s,
    B.loopWhile span (ofExpression e) (ofStatement s) = ofStatement (A.loopWhile span e s)
  doWhile : ∀ span s e, B.doWhile span (ofStatement s) (ofExpression e) =
    ofStatement (A.doWhile span s e)
  switch : ∀ span e clauses scope,
    B.switch span (ofExpression e) (clauses.map (.map ofExpression ofStatement)) scope =
      ofStatement (A.switch span e clauses scope)
  attempt : ∀ span s handler finalizer, A.IsBlock s → (∀ h, handler = some h → A.IsBlock h.body) →
    (∀ a, finalizer = some a → A.IsBlock a) →
    B.attempt span (ofStatement s) (handler.map (.map ofStatement ofPattern))
      (finalizer.map ofStatement) = ofStatement (A.attempt span s handler finalizer)
  leave : ∀ span e, B.leave span (e.map ofExpression) = ofStatement (A.leave span e)
  throw : ∀ span e, B.throw span (ofExpression e) = ofStatement (A.throw span e)
  breakTo : ∀ span label, B.breakTo span label = ofStatement (A.breakTo span label)
  continueTo : ∀ span label, B.continueTo span label = ofStatement (A.continueTo span label)
  labeled : ∀ span label s, B.labeled span label (ofStatement s) =
    ofStatement (A.labeled span label s)
  debugger : ∀ span, B.debugger span = ofStatement (A.debugger span)
  withObject : ∀ span e s,
    B.withObject span (ofExpression e) (ofStatement s) = ofStatement (A.withObject span e s)
  empty : ∀ span, B.empty span = ofStatement (A.empty span)
  program : ∀ span mode body scope,
    B.program span mode (body.map ofStatement) scope = ofProgram (A.program span mode body scope)

def Expr.class : Expr → ExpressionClass
  | .ident _ name => .ident name
  | .member .. | .index .. => .member
  | .string .. => .string
  | .function _ => .function
  | _ => .other

def Stmt.class : Stmt → StatementClass
  | .expression _ e => .ofExpression e.class
  | _ => .other

namespace NodeAlgebra.Hom

protected def refl (B : NodeAlgebra) : Hom B B where
  ofExpression := id
  ofStatement := id
  ofPattern := id
  ofProperty := id
  ofProgram := id
  name? _ := rfl
  isTarget _ := rfl
  isDirective _ := rfl
  null _ := rfl
  bool _ _ := rfl
  number _ _ := rfl
  string _ _ := rfl
  regexp _ _ _ := rfl
  ident _ _ := rfl
  self _ := rfl
  array := by simp
  object := by simp
  entry := by simp
  spreadEntry _ _ := rfl
  function := by simp
  unary _ _ _ := rfl
  update _ _ _ _ := rfl
  binary _ _ _ _ := rfl
  conditional _ _ _ _ := rfl
  assign _ _ _ _ := rfl
  assignPattern _ _ _ := rfl
  sequence := by simp
  member _ _ _ := rfl
  index _ _ _ := rfl
  call := by simp
  construct := by simp
  spread _ _ := rfl
  super _ := rfl
  newTarget _ := rfl
  binding _ _ := rfl
  target _ := rfl
  arrayPattern := by simp
  objectPattern := by simp
  block := by simp
  declaration := by simp
  functionDeclaration := by simp
  expression _ _ := rfl
  branch := by simp
  loop := by simp
  loopEach := by simp
  loopWhile _ _ _ := rfl
  doWhile _ _ _ := rfl
  switch := by simp
  attempt := by simp
  leave := by simp
  throw _ _ := rfl
  breakTo _ _ := rfl
  continueTo _ _ := rfl
  labeled _ _ _ := rfl
  debugger _ := rfl
  withObject _ _ _ := rfl
  empty _ := rfl
  program := by simp

def toClass : Hom .tree .check where
  ofExpression := Expr.class
  ofStatement := Stmt.class
  ofPattern _ := ()
  ofProperty _ := ()
  ofProgram p := p.scope
  name? e := by cases e <;> rfl
  isTarget e := by cases e <;> rfl
  isDirective s := by
    cases s with
    | expression _ e => cases e <;> rfl
    | _ => rfl
  null _ := rfl
  bool _ _ := rfl
  number _ _ := rfl
  string _ _ := rfl
  regexp _ _ _ := rfl
  ident _ _ := rfl
  self _ := rfl
  array _ _ := rfl
  object _ _ := rfl
  entry _ _ _ _ := rfl
  spreadEntry _ _ := rfl
  function _ := rfl
  unary _ _ _ := rfl
  update _ _ _ _ := rfl
  binary _ _ _ _ := rfl
  conditional _ _ _ _ := rfl
  assign _ _ _ _ := rfl
  assignPattern _ _ _ := rfl
  sequence _ _ := rfl
  member _ _ _ := rfl
  index _ _ _ := rfl
  call _ _ _ := rfl
  construct _ _ _ := rfl
  spread _ _ := rfl
  super _ := rfl
  newTarget _ := rfl
  binding _ _ := rfl
  target _ := rfl
  arrayPattern _ _ _ := rfl
  objectPattern _ _ := rfl
  block _ := rfl
  declaration _ := rfl
  functionDeclaration _ := rfl
  expression _ _ := rfl
  branch _ _ _ _ := rfl
  loop _ _ _ _ _ _ _ := rfl
  loopEach _ _ _ _ _ _ _ := rfl
  loopWhile _ _ _ := rfl
  doWhile _ _ _ := rfl
  switch _ _ _ _ := rfl
  attempt _ _ _ _ _ _ _ := rfl
  leave _ _ := rfl
  throw _ _ := rfl
  breakTo _ _ := rfl
  continueTo _ _ := rfl
  labeled _ _ _ := rfl
  debugger _ := rfl
  withObject _ _ _ := rfl
  empty _ := rfl
  program _ _ _ _ := rfl

end NodeAlgebra.Hom

end EcmaFront
