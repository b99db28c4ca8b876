import EcmaFront.Proofs.BalanceStatement
import EcmaFront.Proofs.OperatorTree
import EcmaFront.Proofs.Termination

/-!
The parser keeps its balance, routine by routine and over whole parses. What it gives up leaves no
trace, what waits is written or dropped, and it never fails by a fault of its own.
-/

set_option autoImplicit false

namespace EcmaFront

/-- What a routine does to the balance when it comes to its end. -/
structure Duty where
  /-- How many of the frames that were opened before it may have a mark of it when it fails. -/
  frames : Nat := 0
  /-- It leaves the frame that the one who asked for it has opened. -/
  leaves : Bool := false
  effect : Effect := {}

namespace Duty

/-- A statement works in the frame that it stands in. -/
def statement : Duty := { frames := 1 }

def leaving : Duty := { frames := 1, leaves := true }

def parameters : Duty := { effect := .parameters }

def pattern (form : BindingForm) : Duty := { effect := form.effect }

/-- The duty is done on the way from one balance to another. -/
def Done (duty : Duty) (g g' : Gauge) : Prop :=
  (if duty.leaves then g.leave else g).Leads duty.effect g'

end Duty

namespace Parse

/-- The routines of the grammar. -/
inductive Routine {B : NodeAlgebra} (r : Rules B) : {α : Type} → Parse α → Duty → Prop
  /- Looking ahead. -/
  | peekKind : Routine r peekKind {}
  | atLetDeclaration : Routine r atLetDeclaration {}
  | atArrowFunction : Routine r atArrowFunction {}
  | followsBrackets (accept : ParseState → Bool) : Routine r (followsBrackets accept) {}
  | accessor? : Routine r accessor? {}
  | labelsLoop : Routine r labelsLoop {}
  | headKind? : Routine r headKind? {}
  | colonFollows : Routine r colonFollows {}
  /- Statements. -/
  | item : Routine r (Parse.item r) .statement
  | statement : Routine r (Parse.statement r) .statement
  | items (close : TokenKind → Bool) : Routine r (itemsUntil r close) .statement
  | body (close : TokenKind) : Routine r (body r close) .statement
  | block : Routine r (block r) {}
  | variableStatement (kind : VariableKind) : Routine r (variableStatement r kind) {}
  | declarationList (kind : VariableKind) (inHead : Bool) :
    Routine r (declarationList r kind inHead) {}
  | declarator (kind : VariableKind) (inHead : Bool) (list : DeclarationList B) :
    Routine r (declarator r kind inHead list) {}
  | declaratorTarget (kind : VariableKind) : Routine r (declaratorTarget r kind) {}
  | loopBody : Routine r (loopBody r) .statement
  | condition : Routine r (condition r) {}
  | whileStatement : Routine r (whileStatement r) .statement
  | doWhileStatement : Routine r (doWhileStatement r) .statement
  | forStatement : Routine r (forStatement r) {}
  | declaringLoop (start : Position) (kind : VariableKind) :
    Routine r (declaringLoop r start kind) .leaving
  | assigningLoop (start : Position) : Routine r (assigningLoop r start) .leaving
  | expressionLoop (start : Position) : Routine r (expressionLoop r start) .leaving
  | countedStatement (start : Position) (init : Option (ForInit B.Statement B.Expression)) :
    Routine r (countedStatement r start init) .leaving
  | eachStatement (start : Position) (left : ForTarget B.Statement B.Expression B.Pattern)
    (loop : EachLoop) :
    Routine r (eachStatement r start left loop) .leaving
  | continueStatement : Routine r (continueStatement (B := B)) {}
  | breakStatement : Routine r (breakStatement (B := B)) {}
  | returnStatement : Routine r (returnStatement r) {}
  | throwStatement : Routine r (throwStatement r) {}
  | labeledStatement : Routine r (labeledStatement r) .statement
  | ifStatement : Routine r (ifStatement r) .statement
  | withStatement : Routine r (withStatement r) .statement
  | switchStatement : Routine r (switchStatement r) {}
  | clause (scan : SwitchScan B) : Routine r (clauseRound r scan) .statement
  | clauseTest (hasDefault : Bool) : Routine r (clauseTest r hasDefault) {}
  | tryStatement : Routine r (tryStatement r) {}
  | catchClause : Routine r (catchClause r) {}
  | catchParameter : Routine r (catchParameter r) {}
  | emptyStatement : Routine r (emptyStatement (B := B)) {}
  | debuggerStatement : Routine r (debuggerStatement (B := B)) {}
  | expressionStatement : Routine r (expressionStatement r) {}
  /- Functions. -/
  | functionDeclaration : Routine r (functionDeclaration r) {}
  | functionExpression : Routine r (functionExpression r) {}
  | functionNode (start : Position) (header : FunctionHeader) :
    Routine r (functionNode r start header) {}
  | functionParts (start : Position) (header : FunctionHeader) :
    Routine r (functionParts r start header) {}
  | functionInside (start : Position) (header : FunctionHeader) (outerIn : Bool) :
    Routine r (functionInside r start header outerIn)
      { frames := 1, leaves := true, effect := .parameters }
  | functionBody (header : FunctionHeader) (outerIn : Bool) :
    Routine r (functionBody r header outerIn) .leaving
  | parameters (header : FunctionHeader) : Routine r (parameters r header) .parameters
  | formalParameters : Routine r (formalParameters r) .parameters
  | parameterTarget : Routine r (parameterTarget r) .parameters
  /- Expressions. -/
  | expression : Routine r (expression r) {}
  | assignmentExpression : Routine r (assignmentExpression r) {}
  | assignmentPattern? (accept : ParseState → Bool) : Routine r (assignmentPattern? r accept) {}
  | plainAssignment : Routine r (plainAssignment r) {}
  | conditionalExpression : Routine r (conditionalExpression r) {}
  | binaryExpression : Routine r (binaryExpression r) {}
  | unaryExpression : Routine r (unaryExpression r) {}
  | postfixExpression : Routine r (postfixExpression r) {}
  | leftHandSide : Routine r (leftHandSide r) {}
  | member (start callee : Position) (chain : MemberChain B.Expression) :
    Routine r (memberRound r start callee chain) {}
  | arguments : Routine r (arguments r) {}
  | superExpression : Routine r (superExpression (B := B)) {}
  | newTarget (new : ParseState) : Routine r (newTarget (B := B) new) {}
  | primary : Routine r (primary r) {}
  | group : Routine r (group r) {}
  | arrayLiteral : Routine r (arrayLiteral r) {}
  | objectLiteral : Routine r (objectLiteral r) {}
  | property (scan : ObjectScan B.Property) : Routine r (property r scan) {}
  | propertyKey : Routine r (propertyKey r) {}
  | regexpLiteral : Routine r (regexpLiteral (B := B)) {}
  /- Patterns. -/
  | bindingName (form : BindingForm) : Routine r (bindingName B form) (.pattern form)
  | bindingPattern (form : BindingForm) : Routine r (bindingPattern r form) (.pattern form)
  | pattern (form : BindingForm) : Routine r (Parse.pattern r form) (.pattern form)
  | patternTarget (form : BindingForm) : Routine r (patternTarget r form) (.pattern form)
  | arrayPattern (form : BindingForm) : Routine r (arrayPattern r form) (.pattern form)
  | objectPattern (form : BindingForm) : Routine r (objectPattern r form) (.pattern form)
  | patternProperty (form : BindingForm)
    (properties : List (PatternProperty B.Expression B.Pattern)) :
    Routine r (patternProperty r form properties) (.pattern form)
  | patternKey (form : BindingForm) : Routine r (patternKey r form) {}

theorem Routine.lands {B : NodeAlgebra} {r : Rules B} {α : Type} {p : Parse α} {duty : Duty}
    (h : r.Balanced) (hp : Routine r p duty) (g : Gauge) : Lands duty.frames g p (duty.Done g) := by
  have leaving {α : Type} {p : Parse α} (hl : Lands 1 g p (· = g.leave)) :
      Lands 1 g p (Duty.leaving.Done g) :=
    hl.mono fun _ => .of_eq
  cases hp with
  | peekKind => exact Lands.lookahead .peekKind
  | atLetDeclaration => exact Lands.lookahead .atLetDeclaration
  | atArrowFunction => exact Lands.lookahead .atArrowFunction
  | followsBrackets accept => exact Lands.lookahead (.followsBrackets accept)
  | accessor? => exact Lands.lookahead .accessor?
  | labelsLoop => exact Lands.lookahead .labelsLoop
  | headKind? => exact Lands.headKind?
  | colonFollows => exact Lands.colonFollows
  | item => exact Lands.ofItem h
  | statement => exact Lands.ofStatement h
  | items close => exact Lands.itemsUntil h
  | body close => exact Lands.body h
  | block => exact Lands.block h
  | variableStatement kind => exact Lands.variableStatement h
  | declarationList kind inHead => exact Lands.declarationList h
  | declarator kind inHead list => exact Lands.declarator h
  | declaratorTarget kind => exact Lands.declaratorTarget h
  | loopBody => exact Lands.loopBody h
  | condition => exact Lands.condition h
  | whileStatement => exact Lands.whileStatement h
  | doWhileStatement => exact Lands.doWhileStatement h
  | forStatement => exact Lands.forStatement h
  | declaringLoop start kind => exact leaving (Lands.declaringLoop h)
  | assigningLoop start => exact leaving (Lands.assigningLoop h)
  | expressionLoop start => exact leaving (Lands.expressionLoop h)
  | countedStatement start init => exact leaving (Lands.countedStatement h)
  | eachStatement start left loop => exact leaving (Lands.eachStatement h)
  | continueStatement => exact Lands.continueStatement
  | breakStatement => exact Lands.breakStatement
  | returnStatement => exact Lands.returnStatement h
  | throwStatement => exact Lands.throwStatement h
  | labeledStatement => exact Lands.labeledStatement h
  | ifStatement => exact Lands.ifStatement h
  | withStatement => exact Lands.withStatement h
  | switchStatement => exact Lands.switchStatement h
  | clause scan => exact Lands.clauseRound h
  | clauseTest hasDefault => exact Lands.clauseTest h
  | tryStatement => exact Lands.tryStatement h
  | catchClause => exact Lands.catchClause h
  | catchParameter => exact Lands.catchParameter h
  | emptyStatement => exact Lands.emptyStatement
  | debuggerStatement => exact Lands.debuggerStatement
  | expressionStatement => exact Lands.expressionStatement h
  | functionDeclaration => exact Lands.functionDeclaration h
  | functionExpression => exact Lands.functionExpression h
  | functionNode start header => exact Lands.functionNode h
  | functionParts start header => exact Lands.functionParts h
  | functionInside start header outerIn => exact Lands.functionInside h
  | functionBody header outerIn => exact leaving (Lands.functionBody h)
  | parameters header => exact Lands.parameters h
  | formalParameters => exact Lands.formalParameters h
  | parameterTarget => exact Lands.parameterTarget h
  | expression => exact Lands.expression h
  | assignmentExpression => exact Lands.assignmentExpression h
  | assignmentPattern? accept => exact Lands.assignmentPattern? h
  | plainAssignment => exact Lands.plainAssignment h
  | conditionalExpression => exact Lands.conditionalExpression h
  | binaryExpression => exact Lands.binaryExpression h
  | unaryExpression => exact Lands.unaryExpression h
  | postfixExpression => exact Lands.postfixExpression h
  | leftHandSide => exact Lands.leftHandSide h
  | member start callee chain => exact Lands.memberRound h
  | arguments => exact Lands.arguments h
  | superExpression => exact Lands.superExpression
  | newTarget new => exact Lands.newTarget
  | primary => exact Lands.primary h
  | group => exact Lands.group h
  | arrayLiteral => exact Lands.arrayLiteral h
  | objectLiteral => exact Lands.objectLiteral h
  | property scan => exact Lands.property h
  | propertyKey => exact Lands.propertyKey h
  | regexpLiteral => exact Lands.regexpLiteral
  | bindingName form => exact Lands.bindingName
  | bindingPattern form => exact Lands.bindingPattern h
  | pattern form => exact Lands.ofPattern h
  | patternTarget form => exact Lands.patternTarget h
  | arrayPattern form => exact Lands.arrayPattern h
  | objectPattern form => exact Lands.objectPattern h
  | patternProperty form properties => exact Lands.patternProperty h
  | patternKey form => exact Lands.patternKey h

namespace Lands

variable {B : NodeAlgebra} {r : Rules B} {d : Nat} {g : Gauge}

theorem finishProgram (hg : g.frames ≠ []) : Lands d g finishProgram (· = g.leave) := by
  refine state_bind fun s hs => ite (fun hn => absurd ?_ hg) fun _ => finishFunction
  have hf : s.scopes.frames = [] := List.head?_eq_none_iff.1 (Option.isNone_iff_eq_none.1 hn)
  rw [← hs]
  simp [ParseState.gauge, Scopes.jumps, Scopes.stances, hf]

theorem program (h : r.Balanced) {options : ParseOptions} : Rests d g (program r options) :=
  pushing (fun _ => Scopes.jumps_push _ _) <| next.bind fun _ => state_bind fun _ _ =>
    (body h).bind fun _ =>
    spanFrom_bind fun _ => (finishProgram (List.cons_ne_nil _ _)).bindStill fun _ => .pure

theorem soleFunction (h : r.Balanced) {options : FunctionOptions} :
    Lands d g (soleFunction r options)
      (· = g.push (Frame.program .script options.strict options.constructorKind).stance.bare) := by
  refine entering (fun _ => Scopes.jumps_push _ _) (next.bind fun _ => state_bind fun _ _ => ?_)
  refine (functionParts h).bind fun _ => state_bind fun _ _ => ite (fun _ => unexpected) fun _ => ?_
  exact recordFunction.bind fun _ => pure rfl

end Lands

end Parse

/-- What is reported is not that the parser lost its frames, or that it built something else than it
should. -/
def Report.IsOfText {α : Type} (report : Report α) : Prop :=
  ∀ e, report.outcome = .error e → e.cause.isInternal = false

theorem Parse.LandsIn.not_isInternal {α : Type} {d : Nat} {g : Gauge} {Q : Gauge → Prop}
    {x : Except ParseError α × ParseState} {e : ParseError} (h : LandsIn d g Q x)
    (he : x.1 = .error e) :
    e.cause.isInternal = false := by
  obtain ⟨_, _⟩ := x
  cases he
  exact h.2

theorem Parse.LandsIn.duty {α : Type} {duty : Duty} {s : ParseState}
    {x : Except ParseError α × ParseState} (h : LandsIn duty.frames s.gauge (duty.Done s.gauge) x) :
    (∀ a s', x = (.ok a, s') → duty.Done s.gauge s'.gauge) ∧
    (∀ e s', x = (.error e, s') → e.cause.isInternal = false) ∧
    (duty.leaves = false → duty.frames = 0 ∨ x.1.isOk →
      (x.2.backtrack s.checkpoint).gauge = s.gauge) := by
  obtain ⟨e | a, s'⟩ := x
  · refine ⟨?_, ?_, fun _ hf => ParseState.gauge_backtrack
      (h.1.mono (hf.resolve_right Bool.false_ne_true).le)⟩
    · rintro _ _ ⟨⟩
    · rintro _ _ ⟨⟩
      exact h.2
  · refine ⟨?_, ?_, fun hn _ => ParseState.gauge_backtrack ?_⟩
    · rintro _ _ ⟨⟩
      exact h
    · rintro _ _ ⟨⟩
    · replace h : duty.Done s.gauge s'.gauge := h
      rw [Duty.Done, hn] at h
      exact .of_leads h (.refl 0 _)

/-- Whatever a routine is asked for, it keeps the balance but for its duty, also where it is given
up and the parse goes back. So no parse fails by a fault of its own, none leaves a name that waits
to be written, and no operator lacks its operands. -/
theorem parser_state_is_balanced :
    (∀ (B : NodeAlgebra) (n : Nat) {α : Type} {p : Parse α} {duty : Duty},
      Parse.Routine (Rules.bounded B n) p duty → ∀ (c : ParseContext) (s : ParseState),
        (∀ a s', p c s = (.ok a, s') → duty.Done s.gauge s'.gauge) ∧
        (∀ e s', p c s = (.error e, s') → e.cause.isInternal = false) ∧
        (duty.leaves = false → duty.frames = 0 ∨ (p c s).1.isOk →
          ((p c s).2.backtrack s.checkpoint).gauge = s.gauge)) ∧
    (∀ (source : Source) (options : ParseOptions),
      (parseProgram source options).IsOfText ∧ (checkProgram source options).IsOfText ∧
      ∀ {B : NodeAlgebra} {recording : Bool} {a : B.Program} {s : ParseState},
        runProgram B source options recording = (.ok a, s) →
          s.pendingWrites = [] ∧ s.gauge = (ParseState.initial source).gauge) ∧
    (∀ (source : Source) (options : FunctionOptions),
      (parseFunction source options).IsOfText ∧
      ∀ {parts : Function} {s : ParseState},
        (Parse.soleFunction (Rules.ofSource .tree source) options).run source false =
        (.ok parts, s) →
          s.pendingWrites = [] ∧ s.gauge = (ParseState.initial source).gauge.push
            (Frame.program .script options.strict options.constructorKind).stance.bare) ∧
    ∀ {B : NodeAlgebra} (r : Rules B), Parse.stackExpression r =
    some <$> Parse.binaryExpression r := by
  have program (B : NodeAlgebra) (source : Source) (options : ParseOptions) (recording : Bool) :
      Parse.LandsIn 0 (ParseState.initial source).gauge ((ParseState.initial source).gauge.Leads {})
        (runProgram B source options recording) := Parse.Lands.program (.bounded B _) _ _ rfl
  have sole (source : Source) (options : FunctionOptions) :
      Parse.LandsIn 0 (ParseState.initial source).gauge
        (· = (ParseState.initial source).gauge.push
          (Frame.program .script options.strict options.constructorKind).stance.bare)
        ((Parse.soleFunction (Rules.ofSource .tree source) options).run source false) :=
    Parse.Lands.soleFunction (.bounded .tree _) _ _ rfl
  refine ⟨fun B n _ p duty hp c s => ?_, fun source options => ⟨fun e he => ?_, fun e he => ?_, ?_⟩,
    fun source options => ⟨fun e he => ?_, ?_⟩, Parse.stackExpression_eq⟩
  · exact Parse.LandsIn.duty (hp.lands (.bounded B n) s.gauge c s rfl)
  · exact (program .tree source options false).not_isInternal he
  · exact (program .tree source options false).not_isInternal (error_of_checkProgram he)
  · intro B recording a s hr
    have hl := program B source options recording
    rw [hr] at hl
    exact ⟨congrArg Gauge.waiting hl.eq, hl.eq⟩
  · exact (sole source options).not_isInternal
      ((outcome_parseFunction source options).symm.trans he)
  · intro parts s hr
    have hl := sole source options
    rw [hr] at hl
    exact ⟨congrArg Gauge.waiting hl, hl⟩

/-- A pattern breaks off in a block of a function, and then nothing is left of the frames that were
opened. -/
theorem parser_state_is_balanced_after_broken_pattern :
    let source := Source.ofString "[a, b = function () { { a b } }" ""
    let s := ParseState.entered source {}
    let x := Parse.pattern (Rules.ofSource .tree source) .assignment ⟨source, 40, false⟩ s
    x.1.isOk = false ∧ s.scopes.depth < x.2.scopes.depth ∧
    (x.2.backtrack s.checkpoint).gauge = s.gauge := by
  intro source s x
  have hx : x.1.isOk = false ∧ s.scopes.depth < x.2.scopes.depth := by decide +kernel
  have hb := parser_state_is_balanced.1 .tree (levelsFor source.size) (.pattern .assignment)
    ⟨source, 40, false⟩ s
  exact ⟨hx.1, hx.2, hb.2.2 rfl (.inl rfl)⟩

/-- Parameters with a default are noted for their function, so not every routine leaves that as it
was. -/
theorem parameters_change_the_function :
    ¬∀ (B : NodeAlgebra) (n : Nat) {α : Type} {p : Parse α} {duty : Duty},
      Parse.Routine (Rules.bounded B n) p duty →
      ∀ (c : ParseContext) (s : ParseState) (a : α) (s' : ParseState),
        p c s = (.ok a, s') → s'.richParameters = s.richParameters := by
  intro h
  have refuted {c : ParseContext} {s : ParseState} {x : Except ParseError _ × ParseState}
      (hp : Parse.formalParameters (Rules.bounded .tree 4) c s = x)
      (hx : (x.1.isOk && x.2.richParameters) = true ∧ s.richParameters = false) : False := by
    obtain ⟨hx, hs⟩ := hx
    obtain ⟨_ | a, s'⟩ := x
    · cases hx
    · exact nomatch hx.symm.trans ((h .tree 4 .formalParameters c s a s' hp).trans hs)
  let source := Source.ofString "a = 1)" ""
  exact refuted (c := ⟨source, 20, false⟩) (s := .entered source {}) rfl (by decide +kernel)

end EcmaFront
