import EcmaFront.Proofs.BlameOperand

/-!
Operations, statements and whole programs are read in the source, and every error names a token of
it.
-/

set_option autoImplicit false

namespace EcmaFront

namespace Parse.Keeps

variable {B : NodeAlgebra} {r : Rules B} {c : ParseContext} {s : ParseState}

theorem jump {labelFault? : String → Option Label → Option Cause} {allowed : Scopes → Bool}
    {outside : Cause} {make : Span → Option String → B.Statement}
    (hf : ∀ name label cause, labelFault? name label = some cause → cause.isRule = true)
    (ho : outside.isRule = true) :
    Keeps c s (jump labelFault? allowed outside make) := by
  refine state_bind fun hs => next.bind fun _ _ => state_bind fun _ => ?_
  have rest {t : ParseState} {label : Option String} : Keeps c t (do
      Parse.consumeSemicolon
      let span ← Parse.spanFrom s.start
      Pure.pure (make span label)) := consumeSemicolon.bind fun _ _ => spanFrom_bind done
  dsimp only
  split
  · split
    · next hl => exact bind (fail (hf _ _ _ hl)) fun _ _ => rest
    · exact next.bind fun _ _ => rest
  · exact ite (fun _ => bind (failAt ho fun _ => hs.marks) fun _ _ => rest) fun _ => rest

theorem leadingRound {operators : List Leading} (ho : ∀ o ∈ operators, c.source.Marks o.extent) :
    Keeps c s (leadingRound operators)
      (RoundPost (∀ o ∈ ·, c.source.Marks o.extent) (∀ o ∈ ·, c.source.Marks o.extent)) :=
  state_bind fun hs => ite (fun _ => next.bind fun _ _ => pure fun _ => List.forall_mem_cons.2
    ⟨hs.marks, ho⟩) fun _ =>
    pure fun _ => ho

theorem applyAll {first : Extent} {operators : List Leading} {operand : B.Expression}
    (hf : c.source.Marks first) (ho : ∀ o ∈ operators, c.source.Marks o.extent) :
    Keeps c s (applyAll first operators operand) := by
  induction operators generalizing s operand with
  | nil => exact done
  | cons operator rest ih =>
    obtain ⟨ho, hr⟩ := List.forall_mem_cons.1 ho
    refine bind (spanFrom_bind ?_) fun _ _ => ih hr
    split
    · exact ite (fun _ => (noteAssignment hf).bind fun _ _ => done) fun _ => failAt rfl fun _ => hf
    · exact state_bind fun _ => ite (fun _ => failAt rfl fun _ => ho) fun _ => done
    · exact failAt rfl fun _ => ho

variable (h : r.Keep c)

include h

/-! Operations. -/

theorem assignmentPattern? {accept : ParseState → Bool} :
    Keeps c s (assignmentPattern? r accept) := by
  refine state_bind fun _ => ite (fun _ => done) fun _ => ?_
  refine followsBrackets.bind fun _ _ => ite (fun _ => done) fun _ => ?_
  refine state_bind fun hs => (attempt (rulePattern h)).bind fun _ _ => ?_
  refine state_bind fun _ => ite (fun _ => ?_) fun _ => ?_
  · exact commitWrites.bind fun _ _ => done
  · exact (modify (·.backtrack hs.checkpoint)).bind fun _ _ => done

theorem postfixExpression : Keeps c s (postfixExpression r) := by
  refine state_bind fun hs => (leftHandSide h).bind fun _ _ => state_bind fun _ => ?_
  split
  · exact done
  · refine ite (fun _ => done) fun _ =>
      ite (fun _ => (noteAssignment hs.marks).bind fun _ _ => ?_) fun _ => ?_
    · exact next.bind fun _ _ => spanFrom_bind done
    · exact failAt rfl fun _ => hs.marks

theorem unaryExpression : Keeps c s (unaryExpression r) := by
  refine bindWith (repeatWith (∀ o ∈ ·, c.source.Marks o.extent) (List.forall_mem_nil _)
    fun _ _ => leadingRound)
    fun operators _ ho => state_bind fun hs => ?_
  exact (postfixExpression h).bind fun _ _ => applyAll hs.marks ho

theorem placedOperand : Keeps c s (placedOperand r) :=
  state_bind fun _ => (unaryExpression h).bind fun _ _ => spanFrom_bind done

theorem binaryExpression : Keeps c s (binaryExpression r) := by
  refine (placedOperand h).bind fun _ _ => repeatFrom fun _ _ => state_bind fun _ => ?_
  dsimp only
  split
  · exact done
  · exact next.bind fun _ _ => (placedOperand h).bind fun _ _ => done

theorem conditionalExpression : Keeps c s (conditionalExpression r) := by
  refine state_bind fun _ => (binaryExpression h).bind fun _ _ => ?_
  refine consume.bind fun _ _ => ite (fun _ => ?_) fun _ => done
  refine (allowingIn fun _ => assignment h).bind fun _ _ => expect.bind fun _ _ => ?_
  exact (assignment h).bind fun _ _ => spanFrom_bind done

theorem plainAssignment : Keeps c s (plainAssignment r) := by
  refine state_bind fun hs => (conditionalExpression h).bind fun _ _ => state_bind fun _ => ?_
  split
  · exact done
  · refine ite (fun _ => (noteAssignment hs.marks).bind fun _ _ => ?_) fun _ => failAt rfl
      fun _ => hs.marks
    exact next.bind fun _ _ => (assignment h).bind fun _ _ => spanFrom_bind done

theorem assignmentExpression : Keeps c s (assignmentExpression r) := by
  refine nested fun _ => state_bind fun _ => atArrowFunction.bind fun _ _ =>
    ite (fun _ => functionNode h) fun _ => ?_
  refine (assignmentPattern? h).bind fun found _ => ?_
  cases found with
  | none => exact plainAssignment h
  | some target => exact next.bind fun _ _ => (assignment h).bind fun _ _ => spanFrom_bind done

/-! Variable declarations. -/

theorem declaratorTarget {kind : VariableKind} : Keeps c s (declaratorTarget r kind) :=
  state_bind fun _ => ite (fun _ => bindingPattern h) fun _ => bindingName

theorem declarator {kind : VariableKind} {inHead : Bool} {list : DeclarationList B}
    (hl : ∀ e ∈ list.missing, c.source.Marks e) :
    Keeps c s (declarator r kind inHead list) (∀ e ∈ ·.missing, c.source.Marks e) := by
  refine state_bind fun hs => (declaratorTarget h).bind fun _ _ => takeBoundNames.bind fun _ _ =>
    consume.bind fun _ _ => ite (fun _ => ?_) fun _ => ite (fun _ => fail rfl) fun _ =>
      spanFrom_bind (pure fun _ => ?_)
  · exact modifyScopes.bind fun _ _ => (assignment h).bind fun _ _ => spanFrom_bind
      (pure fun _ => hl)
  · dsimp only
    split
    · rintro e ⟨⟩
      cases hm : list.missing with
      | none => exact hs.marks
      | some e => exact hl e hm
    · exact hl

theorem declarationList {kind : VariableKind} {inHead : Bool} :
    Keeps c s (declarationList r kind inHead) (∀ e ∈ ·.missing, c.source.Marks e) := by
  refine repeatWith (∀ e ∈ ·.missing, c.source.Marks e) nofun fun list _ hl => ?_
  refine (declarator h hl).bindWith fun _ _ hd => ?_
  exact consume.bind fun _ _ => ite (fun _ => pure fun _ => hd) fun _ => pure fun _ => hd

theorem variableStatement {kind : VariableKind} : Keeps c s (variableStatement r kind) := by
  refine state_bind fun _ => next.bind fun _ _ =>
    ((declarationList h).mono fun _ _ => trivial).bind fun _ _ => ?_
  exact consumeSemicolon.bind fun _ _ => spanFrom_bind done

/-! Loops. -/

theorem loopBody : Keeps c s (loopBody r) :=
  modifyScopes.bind fun _ _ => always (statement h) fun _ hs => hs.congr ⟨rfl, rfl, rfl⟩ rfl

theorem condition : Keeps c s (condition r) :=
  expect.bind fun _ _ => (expression h).bind fun _ _ => expect.bind fun _ _ => done

theorem whileStatement : Keeps c s (whileStatement r) :=
  state_bind fun _ => next.bind fun _ _ => (condition h).bind fun _ _ => (loopBody h).bind
    fun _ _ => spanFrom_bind done

theorem doWhileStatement : Keeps c s (doWhileStatement r) :=
  state_bind fun _ => next.bind fun _ _ => (loopBody h).bind fun _ _ => expect.bind fun _ _ =>
    (condition h).bind fun _ _ => consume.bind fun _ _ => spanFrom_bind done

theorem eachStatement {start : Position} {left : ForTarget B.Statement B.Expression B.Pattern}
    {loop : EachLoop} :
    Keeps c s (eachStatement r start left loop) := by
  refine next.bind fun _ _ => ?_
  extract_lets rest
  have hr {t : ParseState} (right : B.Expression) : Keeps c t (rest right) :=
    expect.bind fun _ _ => (loopBody h).bind fun _ _ => finishBlock.bind fun _ _ =>
      spanFrom_bind done
  exact ite (fun _ => (assignment h).bind fun right _ => hr right) fun _ => (expression h).bind
    fun right _ => hr right

theorem expressionBefore {close : TokenKind} : Keeps c s (expressionBefore r close) :=
  state_bind fun _ => ite (fun _ => done) fun _ => (expression h).map

theorem countedStatement {start : Position} {init : Option (ForInit B.Statement B.Expression)} :
    Keeps c s (countedStatement r start init) :=
  expect.bind fun _ _ => (expressionBefore h).bind fun _ _ =>
    expect.bind fun _ _ => (expressionBefore h).bind fun _ _ =>
    expect.bind fun _ _ => (loopBody h).bind fun _ _ => finishBlock.bind fun _ _ =>
      spanFrom_bind done

theorem declaringLoop {start : Position} {kind : VariableKind} :
    Keeps c s (declaringLoop r start kind) := by
  refine state_bind fun _ => next.bind fun _ _ => (allowingIn fun _ => declarationList h).bindWith
    fun list _ hl => ?_
  refine state_bind fun _ => ?_
  split
  · split
    · next hf => exact fail (isFault_of_eachFault? hf).isRule
    · exact bind (spanFrom_bind done) fun _ _ => eachStatement h
  · split
    · next hm => exact failAt rfl fun _ => hl _ hm
    · exact bind (spanFrom_bind done) fun _ _ => countedStatement h

theorem expressionLoop {start : Position} : Keeps c s (expressionLoop r start) := by
  refine state_bind fun hs => (allowingIn fun _ => expression h).bind fun left _ =>
    state_bind fun _ => ?_
  split
  · refine ite (fun _ => (noteAssignment hs.marks).bind fun _ _ => eachStatement h) fun _ => ?_
    exact failAt rfl fun _ => hs.marks
  · exact countedStatement h

theorem assigningLoop {start : Position} : Keeps c s (assigningLoop r start) := by
  refine (assignmentPattern? h).bind fun found _ => ?_
  cases found with
  | none => exact expressionLoop h
  | some target =>
    refine state_bind fun _ => ?_
    split
    · exact eachStatement h
    · exact unexpected

theorem forStatement : Keeps c s (forStatement r) := by
  refine state_bind fun _ => next.bind fun _ _ => expect.bind fun _ _ =>
    modifyScopes.bind fun _ _ => ?_
  refine state_bind fun _ => ite (fun _ => countedStatement h) fun _ => headKind?.bind
    fun kind? _ => ?_
  cases kind? with
  | some kind => exact declaringLoop h
  | none => exact assigningLoop h

/-! Other statements. -/

theorem returnStatement : Keeps c s (returnStatement r) := by
  refine state_bind fun _ => ite (fun _ => fail rfl) fun _ => next.bind fun _ _ =>
    state_bind fun _ => ?_
  extract_lets rest
  have hr {t : ParseState} (argument : Option B.Expression) : Keeps c t (rest argument) :=
    consumeSemicolon.bind fun _ _ => spanFrom_bind done
  exact ite (fun _ => hr none) fun _ => (expression h).map.bind fun argument _ => hr argument

theorem throwStatement : Keeps c s (throwStatement r) :=
  state_bind fun _ => next.bind fun _ _ => state_bind fun _ => ite (fun _ => fail rfl) fun _ =>
    (expression h).bind fun _ _ => consumeSemicolon.bind fun _ _ => spanFrom_bind done

theorem labeledStatement : Keeps c s (labeledStatement r) := by
  refine state_bind fun _ => ite (fun _ => fail rfl) fun _ => next.bind fun _ _ =>
    expect.bind fun _ _ => ?_
  refine labelsLoop.bind fun _ _ => modifyScopes.bind fun _ _ => ?_
  refine bind (always (statement h) ?_) fun _ _ => spanFrom_bind done
  exact fun _ hs => hs.congr ⟨rfl, rfl, rfl⟩ rfl

theorem ifStatement : Keeps c s (ifStatement r) := by
  refine state_bind fun _ => next.bind fun _ _ => (condition h).bind fun _ _ =>
    (statement h).bind fun _ _ => ?_
  extract_lets rest
  have hr {t : ParseState} (alternate : Option B.Statement) : Keeps c t (rest alternate) :=
    spanFrom_bind done
  exact consume.bind fun _ _ => ite (fun _ => (statement h).map.bind fun alternate _ =>
    hr alternate) fun _ => hr none

theorem withStatement : Keeps c s (withStatement r) :=
  state_bind fun _ => ite (fun _ => fail rfl) fun _ => next.bind fun _ _ =>
    (condition h).bind fun _ _ =>
    modifyScopes.bind fun _ _ => (statement h).bind fun _ _ => spanFrom_bind done

theorem clauseTest {hasDefault : Bool} : Keeps c s (clauseTest r hasDefault) := by
  refine state_bind fun _ => ?_
  split
  · exact next.bind fun _ _ => (expression h).map
  · exact ite (fun _ => fail rfl) fun _ => next.bind fun _ _ => done
  · exact unexpected

theorem clauseRound {scan : SwitchScan B} : Keeps c s (clauseRound r scan) :=
  state_bind fun _ => ite (fun _ => done) fun _ => (clauseTest h).bind fun _ _ =>
    expect.bind fun _ _ =>
    (itemsUntil h).bind fun _ _ => spanFrom_bind done

theorem switchStatement : Keeps c s (switchStatement r) :=
  state_bind fun _ => next.bind fun _ _ => (condition h).bind fun _ _ => expect.bind fun _ _ =>
    modifyScopes.bind fun _ _ => (repeatFrom fun _ _ => clauseRound h).bind fun _ _ =>
      modifyScopes.bind fun _ _ =>
      expect.bind fun _ _ => finishBlock.bind fun _ _ => spanFrom_bind done

theorem catchParameter : Keeps c s (catchParameter r) :=
  state_bind fun _ => ite (fun _ => bindingName) fun _ => ite (fun _ => bindingPattern h)
    fun _ => unexpected

theorem catchClause : Keeps c s (catchClause r) :=
  state_bind fun _ => next.bind fun _ _ => expect.bind fun _ _ => modifyScopes.bind fun _ _ =>
    (catchParameter h).bind fun _ _ => expect.bind fun _ _ => state_bind fun _ =>
      expect.bind fun _ _ =>
      (itemsUntil h).bind fun _ _ => expect.bind fun _ _ => finishBlock.bind fun _ _ =>
        state_bind fun _ => done

theorem tryStatement : Keeps c s (tryStatement r) := by
  refine state_bind fun _ => next.bind fun _ _ => (block h).bind fun guarded _ =>
    state_bind fun _ => ?_
  extract_lets rest
  have hr {t : ParseState} (handler : Option (CatchClause B.Statement B.Pattern)) :
      Keeps c t (rest handler) := by
    refine consume.bind fun _ _ => ite (fun _ => (block h).map.bind fun _ _ => ?_) fun _ => ?_
    all_goals exact ite (fun _ => fail rfl) fun _ => spanFrom_bind done
  exact ite (fun _ => (catchClause h).map.bind fun handler _ => hr handler) fun _ => hr none

theorem expressionStatement : Keeps c s (expressionStatement r) :=
  state_bind fun _ => (expression h).bind fun _ _ => consumeSemicolon.bind fun _ _ =>
    spanFrom_bind done

theorem ofStatement : Keeps c s (Parse.statement r) := by
  refine nested fun s => state_bind fun _ => ?_
  split
  case h_1 => exact block h
  case h_2 => exact variableStatement h
  case h_3 => exact state_bind fun _ => next.bind fun _ _ => spanFrom_bind done
  case h_4 => exact ifStatement h
  case h_5 => exact forStatement h
  case h_6 => exact whileStatement h
  case h_7 => exact doWhileStatement h
  case h_8 => exact jump (fun _ _ _ h => (isFault_of_continueFault? h).isRule) rfl
  case h_9 => exact jump (fun _ _ _ h => (isFault_of_breakFault? h).isRule) rfl
  case h_10 => exact returnStatement h
  case h_11 => exact withStatement h
  case h_12 => exact switchStatement h
  case h_13 => exact throwStatement h
  case h_14 => exact tryStatement h
  case h_15 =>
    exact state_bind fun _ => next.bind fun _ _ => consumeSemicolon.bind fun _ _ =>
      spanFrom_bind done
  case h_16 => exact ite (fun _ => fail rfl) fun _ => functionDeclaration h
  case h_17 | h_19 | h_20 | h_21 => exact fail rfl
  case h_18 =>
    exact atLetDeclaration.bind fun _ _ => ite (fun _ => fail rfl) fun _ => expressionStatement h
  case h_22 hk =>
    exact (colonFollows hk).bind fun _ _ => ite (fun _ => labeledStatement h) fun _ =>
      expressionStatement h
  case h_23 => exact expressionStatement h

theorem ofItem : Keeps c s (Parse.item r) := by
  refine state_bind fun _ => ?_
  split
  case h_1 => exact functionDeclaration h
  case h_2 => exact variableStatement h
  case h_3 =>
    exact atLetDeclaration.bind fun _ _ => ite (fun _ => variableStatement h) fun _ => statement h
  case h_4 | h_5 | h_6 => exact fail rfl
  case h_7 => exact statement h

end Parse.Keeps

namespace Rules.Keep

variable {B : NodeAlgebra} {c : ParseContext}

theorem step {r : Rules B} (h : r.Keep c) : (Rules.step B r).Keep c := fun phrase _ => by
  cases phrase with
  | item => exact Parse.Keeps.ofItem h
  | statement => exact Parse.Keeps.ofStatement h
  | assignment => exact Parse.Keeps.assignmentExpression h
  | pattern form => exact Parse.Keeps.pattern h

/-- By induction on the levels: the rules of the grammar stay in the source. -/
theorem bounded (B : NodeAlgebra) (c : ParseContext) (n : Nat) :
    Rules.Keep (Rules.bounded B n) c := by
  induction n with
  | zero => exact fun _ _ => .fail rfl
  | succ n ih => exact ih.step

end Rules.Keep

end EcmaFront
