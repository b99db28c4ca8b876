import EcmaFront.Proofs.BalanceOperand

/-!
Operations and statements keep the balance. A pattern that was tried and given up leaves no trace, a
loop and a label are counted only for their body, and the frame of a `for` statement, of a `switch`
and of a handler is left with it.
-/

set_option autoImplicit false

namespace EcmaFront

open EcmaFront.Frame (Stance)

namespace Parse.Lands

variable {B : NodeAlgebra} {r : Rules B} {d : Nat} {g : Gauge}

theorem commitWrites {α : Type} {a : α} {c : ParseContext} {s t : ParseState}
    (ht : s.gauge.Leads (BindingForm.effect .assignment) t.gauge) :
    LandsIn d s.gauge (s.gauge.Leads {})
      ((do Parse.commitWrites s.checkpoint; Pure.pure a) c t) := by
  have hg : (t.commit s.checkpoint).gauge = s.gauge := by
    obtain ⟨hf, hn, ha, hr | ⟨⟨⟩, -⟩, more, hw, -⟩ := ht
    have hq : t.pendingWrites.drop (t.pendingWrites.length - s.pendingWrites.length) =
        s.pendingWrites := by
      rw [show t.pendingWrites = more ++ s.pendingWrites from hw, List.length_append,
        Nat.add_sub_cancel, List.drop_left]
    show Gauge.mk t.gauge.frames t.gauge.nesting t.gauge.allowsIn t.gauge.richParameters
      (t.pendingWrites.drop (t.pendingWrites.length - s.pendingWrites.length)) = s.gauge
    rw [hf, hn, ha, hr, hq]
    rfl
  exact writeAll.bind (fun _ => done) c (t.commit s.checkpoint) hg

theorem jump {labelFault? : String → Option Label → Option Cause} {allowed : Scopes → Bool}
    {outside : Cause} {make : Span → Option String → B.Statement}
    (hf : ∀ name label cause, labelFault? name label = some cause → cause.isRule = true)
    (ho : outside.isRule = true) :
    Rests d g (jump labelFault? allowed outside make) := by
  refine state_bind fun s _ => next.bind fun _ => state_bind fun _ _ => ?_
  have rest {label : Option String} : Rests d g (do
      Parse.consumeSemicolon
      let span ← Parse.spanFrom s.start
      Pure.pure (make span label)) := consumeSemicolon.bind fun _ => spanFrom_bind fun _ => done
  dsimp only
  split
  · split
    · next hl => exact bind (fail (hf _ _ _ hl)) fun _ => rest
    · exact next.bind fun _ => rest
  · exact ite (fun _ => bind (failAt ho) fun _ => rest) fun _ => rest

theorem continueStatement : Rests d g (continueStatement (B := B)) :=
  jump (fun _ _ _ h => (isFault_of_continueFault? h).isRule) rfl

theorem breakStatement : Rests d g (breakStatement (B := B)) :=
  jump (fun _ _ _ h => (isFault_of_breakFault? h).isRule) rfl

theorem emptyStatement : Rests d g (emptyStatement (B := B)) :=
  state_bind fun _ _ => next.bind fun _ => spanFrom_bind fun _ => done

theorem debuggerStatement : Rests d g (debuggerStatement (B := B)) :=
  state_bind fun _ _ => next.bind fun _ => consumeSemicolon.bind fun _ =>
    spanFrom_bind fun _ => done

theorem leadingRound {operators : List Leading} : Rests d g (leadingRound operators) :=
  state_bind fun _ _ => ite (fun _ => next.bind fun _ => done) fun _ => done

theorem applyAll {first : Extent} {operators : List Leading} {operand : B.Expression} :
    Rests d g (applyAll first operators operand) := by
  induction operators generalizing operand with
  | nil => exact done
  | cons operator rest ih =>
    refine bind (spanFrom_bind fun _ => ?_) fun _ => ih
    split
    · exact ite (fun _ => noteAssignment.bind fun _ => done) fun _ => failAt rfl
    · exact state_bind fun _ _ => ite (fun _ => failAt rfl) fun _ => done
    · exact failAt rfl

variable (h : r.Balanced)

include h

/-! Operations. -/

theorem assignmentPattern? {accept : ParseState → Bool} :
    Rests d g (assignmentPattern? r accept) := by
  refine state_bind fun _ _ => ite (fun _ => done) fun _ =>
    (lookahead (.followsBrackets _)).bind fun _ =>
    ite (fun _ => done) fun _ => ?_
  refine state_bind fun s hs => ?_
  subst hs
  have givenUp {t : ParseState} (hb : s.gauge.Broken 0 t.gauge) :
      s.gauge.Leads {} (t.backtrack s.checkpoint).gauge :=
    .of_eq (ParseState.gauge_backtrack hb)
  refine attempt_bind h.pattern (fun _ _ hb => givenUp hb) fun found c t hl => ?_
  simp only [Parse.state_bind, Option.isSome_some, Bool.true_and]
  split
  · exact commitWrites hl
  · exact givenUp (.of_leads hl (.refl _ _))

theorem postfixExpression : Rests d g (postfixExpression r) := by
  refine state_bind fun _ _ => (leftHandSide h).bind fun _ => state_bind fun _ _ => ?_
  split
  · exact done
  · refine ite (fun _ => done) fun _ => ite (fun _ => noteAssignment.bind fun _ => ?_)
      fun _ => failAt rfl
    exact next.bind fun _ => spanFrom_bind fun _ => done

theorem unaryExpression : Rests d g (unaryExpression r) :=
  (repeatFrom fun _ _ => leadingRound).bind fun _ => state_bind fun _ _ =>
    (postfixExpression h).bind fun _ => applyAll

theorem placedOperand : Rests d g (placedOperand r) :=
  state_bind fun _ _ => (unaryExpression h).bind fun _ => spanFrom_bind fun _ => done

theorem binaryRound {scan : BinaryScan B.Expression} : Rests d g (binaryRound r scan) := by
  refine state_bind fun _ _ => ?_
  dsimp only
  split
  · exact done
  · exact next.bind fun _ => (placedOperand h).bind fun _ => done

theorem binaryExpression : Rests d g (binaryExpression r) :=
  (placedOperand h).bind fun _ => repeatFrom fun _ _ => binaryRound h

theorem conditionalExpression : Rests d g (conditionalExpression r) := by
  refine state_bind fun _ _ => (binaryExpression h).bind fun _ => consume.bind fun _ =>
    ite (fun _ => ?_) fun _ => done
  refine (allowingIn h.assignment).bind fun _ => expect.bind fun _ => ?_
  exact h.assignment.bind fun _ => spanFrom_bind fun _ => done

theorem plainAssignment : Rests d g (plainAssignment r) := by
  refine state_bind fun _ _ => (conditionalExpression h).bind fun _ => state_bind fun _ _ => ?_
  split
  · exact done
  · refine ite (fun _ => noteAssignment.bind fun _ => ?_) fun _ => failAt rfl
    exact next.bind fun _ => h.assignment.bind fun _ => spanFrom_bind fun _ => done

theorem assignmentExpression : Rests d g (assignmentExpression r) := by
  refine nested (state_bind fun _ _ => (lookahead .atArrowFunction).bind fun _ =>
    ite (fun _ => functionNode h) fun _ => ?_)
  refine (assignmentPattern? h).bind fun found => ?_
  cases found with
  | none => exact plainAssignment h
  | some target => exact next.bind fun _ => h.assignment.bind fun _ => spanFrom_bind fun _ => done

/-! Variable declarations. -/

theorem declaratorTarget {kind : VariableKind} : Rests d g (declaratorTarget r kind) :=
  state_bind fun _ _ => ite (fun _ => bindingPattern h) fun _ => bindingName

theorem declarator {kind : VariableKind} {inHead : Bool} {list : DeclarationList B} :
    Rests d g (declarator r kind inHead list) := by
  refine state_bind fun _ _ => (declaratorTarget h).bind fun _ => takeBoundNames.bind fun names =>
    consume.bind fun _ =>
    ite (fun _ => ?_) fun _ => ite (fun _ => fail rfl) fun _ => spanFrom_bind fun _ => done
  refine bind (modifyScopes fun s => Scopes.jumps_writeNames s names) fun _ => ?_
  exact h.assignment.bind fun _ => spanFrom_bind fun _ => done

theorem declarationList {kind : VariableKind} {inHead : Bool} :
    Rests d g (declarationList r kind inHead) :=
  repeatFrom fun _ _ => (declarator h).bind fun _ => comma

theorem variableStatement {kind : VariableKind} : Rests d g (variableStatement r kind) :=
  state_bind fun _ _ => next.bind fun _ => (declarationList h).bind fun _ =>
    consumeSemicolon.bind fun _ => spanFrom_bind fun _ => done

/-! Loops. -/

theorem loopBody : Rests (d + 1) g (loopBody r) :=
  marked (fun f => { f with loops := f.loops + 1 })
    (fun f => { f with loops := f.loops - 1 }) (fun _ => rfl)
    (fun _ => rfl) (fun _ => rfl) fun _ => h.statement

theorem condition : Rests d g (condition r) :=
  expect.bind fun _ => (expression h).bind fun _ => expect.bind fun _ => done

theorem whileStatement : Rests (d + 1) g (whileStatement r) :=
  state_bind fun _ _ => next.bind fun _ => (condition h).bind fun _ => (loopBody h).bind fun _ =>
    spanFrom_bind fun _ => done

theorem doWhileStatement : Rests (d + 1) g (doWhileStatement r) :=
  state_bind fun _ _ => next.bind fun _ => (loopBody h).bind fun _ => expect.bind fun _ =>
    (condition h).bind fun _ =>
    consume.bind fun _ => spanFrom_bind fun _ => done

theorem eachStatement {start : Position} {left : ForTarget B.Statement B.Expression B.Pattern}
    {loop : EachLoop} :
    Lands (d + 1) g (eachStatement r start left loop) (· = g.leave) := by
  refine next.bind fun _ => ?_
  extract_lets rest
  have hr (right : B.Expression) : Lands (d + 1) g (rest right) (· = g.leave) :=
    expect.bind fun _ => (loopBody h).bind fun _ => finishSpanned
  exact ite (fun _ => h.assignment.bind fun right => hr right) fun _ => (expression h).bind
    fun right => hr right

theorem expressionBefore {close : TokenKind} : Rests d g (expressionBefore r close) :=
  state_bind fun _ _ => ite (fun _ => done) fun _ => (expression h).map

theorem countedStatement {start : Position} {init : Option (ForInit B.Statement B.Expression)} :
    Lands (d + 1) g (countedStatement r start init) (· = g.leave) :=
  expect.bind fun _ => (expressionBefore h).bind fun _ => expect.bind fun _ =>
    (expressionBefore h).bind fun _ =>
    expect.bind fun _ => (loopBody h).bind fun _ => finishSpanned

theorem declaringLoop {start : Position} {kind : VariableKind} :
    Lands (d + 1) g (declaringLoop r start kind) (· = g.leave) := by
  refine state_bind fun _ _ => next.bind fun _ => (allowingIn (declarationList h)).bind fun _ =>
    state_bind fun _ _ => ?_
  split
  · split
    · next hf => exact fail (isFault_of_eachFault? hf).isRule
    · exact bind (spanFrom_bind fun _ => done) fun _ => eachStatement h
  · split
    · exact failAt rfl
    · exact bind (spanFrom_bind fun _ => done) fun _ => countedStatement h

theorem expressionLoop {start : Position} :
    Lands (d + 1) g (expressionLoop r start) (· = g.leave) := by
  refine state_bind fun _ _ => (allowingIn (expression h)).bind fun _ => state_bind fun _ _ => ?_
  split
  · exact ite (fun _ => noteAssignment.bind fun _ => eachStatement h) fun _ => failAt rfl
  · exact countedStatement h

theorem assigningLoop {start : Position} :
    Lands (d + 1) g (assigningLoop r start) (· = g.leave) := by
  refine (assignmentPattern? h).bind fun found => ?_
  cases found with
  | none => exact expressionLoop h
  | some target =>
    refine state_bind fun _ _ => ?_
    split
    · exact eachStatement h
    · exact unexpected

theorem forStatement : Rests d g (forStatement r) := by
  refine state_bind fun _ _ => next.bind fun _ => expect.bind fun _ =>
    pushing Scopes.jumps_pushBlock ?_
  refine state_bind fun _ _ => ite (fun _ => countedStatement h) fun _ =>
    headKind?.bind fun kind? => ?_
  cases kind? with
  | some kind => exact declaringLoop h
  | none => exact assigningLoop h

/-! Other statements. -/

theorem returnStatement : Rests d g (returnStatement r) := by
  refine state_bind fun _ _ => ite (fun _ => fail rfl) fun _ => next.bind fun _ =>
    state_bind fun _ _ => ?_
  extract_lets rest
  have hr (argument : Option B.Expression) : Rests d g (rest argument) :=
    consumeSemicolon.bind fun _ => spanFrom_bind fun _ => done
  exact ite (fun _ => hr none) fun _ => (expression h).map.bind fun argument => hr argument

theorem throwStatement : Rests d g (throwStatement r) :=
  state_bind fun _ _ => next.bind fun _ => state_bind fun _ _ => ite (fun _ => fail rfl) fun _ =>
    (expression h).bind fun _ => consumeSemicolon.bind fun _ => spanFrom_bind fun _ => done

theorem labeledStatement : Rests (d + 1) g (labeledStatement r) := by
  refine state_bind fun s _ => ite (fun _ => fail rfl) fun _ => next.bind fun _ =>
    expect.bind fun _ => ?_
  refine (lookahead .labelsLoop).bind fun isLoop =>
    assoc (bind ?_ fun _ => spanFrom_bind fun _ => done)
  exact marked (fun f => { f with labels := ⟨s.token.text, isLoop⟩ :: f.labels })
    (fun f => { f with labels := f.labels.tail }) (fun _ => rfl) (fun _ => rfl) (fun _ => rfl)
    fun _ => h.statement

theorem ifStatement : Rests (d + 1) g (ifStatement r) := by
  refine state_bind fun _ _ => next.bind fun _ => (condition h).bind fun _ =>
    h.statement.bind fun _ => ?_
  extract_lets rest
  have hr (alternate : Option B.Statement) : Rests (d + 1) g (rest alternate) :=
    spanFrom_bind fun _ => done
  exact consume.bind fun _ => ite (fun _ => h.statement.map.bind fun alternate => hr alternate)
    fun _ => hr none

theorem withStatement : Rests (d + 1) g (withStatement r) := by
  refine state_bind fun _ _ => ite (fun _ => fail rfl) fun _ => next.bind fun _ =>
    (condition h).bind fun _ => ?_
  refine bind (modifyScopes fun s => Scopes.jumps_of_stances (Scopes.stances_activate s)) fun _ =>
    ?_
  exact h.statement.bind fun _ => spanFrom_bind fun _ => done

theorem clauseTest {hasDefault : Bool} : Rests d g (clauseTest r hasDefault) := by
  refine state_bind fun _ _ => ?_
  split
  · exact next.bind fun _ => (expression h).map
  · exact ite (fun _ => fail rfl) fun _ => next.bind fun _ => done
  · exact unexpected

theorem clauseRound {scan : SwitchScan B} : Rests (d + 1) g (clauseRound r scan) :=
  state_bind fun _ _ => ite (fun _ => done) fun _ => (clauseTest h).bind fun _ =>
    expect.bind fun _ =>
    (itemsUntil h).bind fun _ => spanFrom_bind fun _ => done

theorem switchStatement : Rests d g (switchStatement r) := by
  refine state_bind fun _ _ => next.bind fun _ => (condition h).bind fun _ =>
    expect.bind fun _ => ?_
  refine pushing (f := ⟨.block, [], 0, 1, [], false⟩) (fun _ => rfl) ?_
  refine (repeatFrom fun _ _ => clauseRound h).bind fun _ => ?_
  exact marking (fun f => { f with switches := f.switches - 1 }) (fun _ => rfl)
    (expect.bind fun _ => finishSpanned)

theorem catchParameter : Rests d g (catchParameter r) :=
  state_bind fun _ _ => ite (fun _ => bindingName) fun _ => ite (fun _ => bindingPattern h)
    fun _ => unexpected

theorem catchClause : Rests d g (catchClause r) := by
  refine state_bind fun _ _ => next.bind fun _ => expect.bind fun _ =>
    pushing Scopes.jumps_pushBlock ?_
  refine (catchParameter h).bind fun _ => expect.bind fun _ => state_bind fun _ _ =>
    expect.bind fun _ => ?_
  exact (itemsUntil h).bind fun _ => expect.bind fun _ => finishBlock.bindStill fun _ =>
    .state_bind fun _ => .pure

theorem tryStatement : Rests d g (tryStatement r) := by
  refine state_bind fun _ _ => next.bind fun _ => (block h).bind fun guarded =>
    state_bind fun _ _ => ?_
  extract_lets rest
  have hr (handler : Option (CatchClause B.Statement B.Pattern)) : Rests d g (rest handler) := by
    refine consume.bind fun _ => ite (fun _ => (block h).map.bind fun _ => ?_) fun _ => ?_
    all_goals exact ite (fun _ => fail rfl) fun _ => spanFrom_bind fun _ => done
  exact ite (fun _ => (catchClause h).map.bind fun handler => hr handler) fun _ => hr none

theorem expressionStatement : Rests d g (expressionStatement r) :=
  state_bind fun _ _ => (expression h).bind fun _ => consumeSemicolon.bind fun _ =>
    spanFrom_bind fun _ => done

theorem ofStatement : Rests (d + 1) g (Parse.statement r) := by
  refine nested (state_bind fun _ _ => ?_)
  split
  case h_1 => exact block h
  case h_2 => exact variableStatement h
  case h_3 => exact emptyStatement
  case h_4 => exact ifStatement h
  case h_5 => exact forStatement h
  case h_6 => exact whileStatement h
  case h_7 => exact doWhileStatement h
  case h_8 => exact continueStatement
  case h_9 => exact breakStatement
  case h_10 => exact returnStatement h
  case h_11 => exact withStatement h
  case h_12 => exact switchStatement h
  case h_13 => exact throwStatement h
  case h_14 => exact tryStatement h
  case h_15 => exact debuggerStatement
  case h_16 => exact ite (fun _ => fail rfl) fun _ => functionDeclaration h
  case h_17 | h_19 | h_20 | h_21 => exact fail rfl
  case h_18 =>
    exact (lookahead .atLetDeclaration).bind fun _ => ite (fun _ => fail rfl) fun _ =>
      expressionStatement h
  case h_22 =>
    exact colonFollows.bind fun _ => ite (fun _ => labeledStatement h) fun _ =>
      expressionStatement h
  case h_23 => exact expressionStatement h

theorem ofItem : Rests (d + 1) g (Parse.item r) := by
  refine state_bind fun _ _ => ?_
  split
  case h_1 => exact functionDeclaration h
  case h_2 => exact variableStatement h
  case h_3 =>
    exact (lookahead .atLetDeclaration).bind fun _ => ite (fun _ => variableStatement h)
      fun _ => h.statement
  case h_4 | h_5 | h_6 => exact fail rfl
  case h_7 => exact h.statement

end Parse.Lands

namespace Rules.Balanced

variable {B : NodeAlgebra}

theorem step {r : Rules B} (h : r.Balanced) : Rules.Balanced (Rules.step B r) where
  item := Parse.Lands.ofItem h
  statement := Parse.Lands.ofStatement h
  assignment := Parse.Lands.assignmentExpression h
  pattern := Parse.Lands.ofPattern h

/-- By induction on the levels: the rules of the grammar keep the balance. -/
theorem bounded (B : NodeAlgebra) (n : Nat) : Rules.Balanced (Rules.bounded B n) := by
  induction n with
  | zero => exact ⟨.fail rfl, .fail rfl, .fail rfl, .fail rfl⟩
  | succ n ih => exact ih.step

end Rules.Balanced

end EcmaFront
