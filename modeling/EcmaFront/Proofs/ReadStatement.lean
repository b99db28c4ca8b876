import EcmaFront.Proofs.ReadOperation

/-!
What the parsers of statements accept is read so by the grammar, and with them what the rules of the
whole grammar accept.
-/

set_option autoImplicit false

namespace EcmaFront.Parse

variable {B : NodeAlgebra} {c : ParseContext} {r : Rules B} {s s' : ParseState}

/-! Declarations -/

theorem declaratorTarget_read (hr : Reads c r) {kind : VariableKind} {a : B.Pattern}
    (h : declaratorTarget r kind c s = (.ok a, s')) :
    Reading B True c (.declaratorTarget kind) s a s' := by
  simp [declaratorTarget] at h
  obtain ⟨hk, hp⟩ | ⟨hk, hn⟩ := h
  · exact .declaratorPattern hk (bindingPattern_read hr hp)
  · exact .declaratorName hk hn

theorem declarator_read (hr : Reads c r) {kind : VariableKind} {inHead : Bool}
    {list list' : DeclarationList B} (h : declarator r kind inHead list c s = (.ok list', s')) :
    ∃ d missing, list' = ⟨d :: list.declarators, list.missing <|> missing, list.initialized ||
      d.init.isSome⟩ ∧
      Reading B True c (.declarator kind inHead) s (d, missing) s' := by
  simp only [declarator, state_bind, bind_ok, consume_bind, ite_eq_run] at h
  obtain ⟨target, s₁, ht, names, s₂, hn, ⟨hk, h⟩ | ⟨hk, h⟩⟩ := h
  · simp at h
    obtain ⟨s₃, hw, init, hi, rfl⟩ := h
    exact ⟨_, none, by simp,
      .initializedDeclarator (declaratorTarget_read hr ht) hn hk hw (hr.assignment hi)⟩
  · simp only [Bool.false_eq_true, if_false, ite_ok, fail_ok, and_false, false_or, spanFrom_bind,
      pure_ok] at h
    obtain ⟨hr', rfl, rfl⟩ := h
    refine ⟨_, _, ?_, .bareDeclarator (declaratorTarget_read hr ht) hn hk (by simpa using hr')⟩
    cases list.missing <;> split <;> simp_all

theorem declaratorRounds_read (hr : Reads c r) {kind : VariableKind} {inHead : Bool}
    {list a : DeclarationList B} (h : Rounds (declaratorRound r kind inHead) c list s a s') :
    ∃ rest, a = ⟨list.declarators.reverse ++ rest.declarators, list.missing <|> rest.missing,
        list.initialized || rest.initialized⟩ ∧
      Reading B True c (.declarators kind inHead) s rest s' := by
  induction h with
  | done h =>
    simp [declaratorRound] at h
    obtain ⟨list', hd, hk, rfl⟩ := h
    obtain ⟨d, missing, rfl, hread⟩ := declarator_read hr hd
    refine ⟨.cons d missing {}, ?_, .lastDeclarator hread hk⟩
    simp [DeclarationList.cons]
  | again h _ ih =>
    obtain ⟨rest, rfl, hrest⟩ := ih
    simp [declaratorRound] at h
    obtain ⟨s₁, hd, hk, rfl⟩ := h
    obtain ⟨d, missing, rfl, hread⟩ := declarator_read hr hd
    refine ⟨.cons d missing rest, ?_, .moreDeclarators hread hk hrest⟩
    simp [DeclarationList.cons, Bool.or_assoc, Option.or_assoc]

theorem declarationList_read (hr : Reads c r) {kind : VariableKind} {inHead : Bool}
    {a : DeclarationList B} (h : declarationList r kind inHead c s = (.ok a, s')) :
    Reading B True c (.declarators kind inHead) s a s' := by
  obtain ⟨rest, rfl, hrest⟩ := declaratorRounds_read hr (rounds_of_repeatFrom h)
  simpa using hrest

theorem variableStatement_read (hr : Reads c r) {kind : VariableKind} {a : B.Statement}
    (h : variableStatement r kind c s = (.ok a, s')) :
    Reading B True c (.variableStatement kind) s a s' := by
  simp [variableStatement] at h
  obtain ⟨list, s₁, hl, he, rfl⟩ := h
  exact .variableStatement (declarationList_read hr hl) (ends_of_consumeSemicolon he)

/-! Loops -/

theorem loopBody_read (hr : Reads c r) {a : B.Statement} (h : loopBody r c s = (.ok a, s')) :
    Reading B True c .loopBody s a s' := by
  simp only [loopBody, modifyScopes_bind, always_ok] at h
  obtain ⟨s₁, h, rfl⟩ := h
  exact .loopBody (hr.statement h)

theorem condition_read (hr : Reads c r) {a : B.Expression} (h : condition r c s = (.ok a, s')) :
    Reading B True c .condition s a s' := by
  simp [condition] at h
  obtain ⟨ho, s₁, ha, hc, rfl⟩ := h
  exact .condition ho (expression_read hr ha) hc

theorem expressionBefore_read (hr : Reads c r) {close : TokenKind} {a : Option B.Expression}
    (h : expressionBefore r close c s = (.ok a, s')) :
    Reading B True c (.expressionBefore close) s a s' := by
  simp [expressionBefore] at h
  obtain ⟨hk, rfl, rfl⟩ | ⟨hk, a, ha, rfl⟩ := h
  · exact .noExpressionBefore hk
  · exact .someExpressionBefore hk (expression_read hr ha)

theorem countedStatement_read (hr : Reads c r) {start : Position}
    {init : Option (ForInit B.Statement B.Expression)} {a : B.Statement}
    (h : countedStatement r start init c s = (.ok a, s')) :
    Reading B True c (.countedLoop start init) s a s' := by
  simp [countedStatement] at h
  obtain ⟨h₁, test, s₁, ht, h₂, update, s₂, hu, h₃, body, s₃, hb, scope, hf, rfl⟩ := h
  exact .countedLoop h₁ (expressionBefore_read hr ht) h₂ (expressionBefore_read hr hu) h₃
    (loopBody_read hr hb) hf

theorem eachStatement_read (hr : Reads c r) {start : Position}
    {left : ForTarget B.Statement B.Expression B.Pattern} {loop : EachLoop} {a : B.Statement}
    (h : eachStatement r start left loop c s = (.ok a, s')) :
    Reading B True c (.eachLoop start left loop) s a s' := by
  cases loop with
  | forOf =>
    simp [eachStatement] at h
    obtain ⟨right, s₁, hright, hc, body, s₂, hb, scope, hf, rfl⟩ := h
    exact .forOf (hr.assignment hright) hc (loopBody_read hr hb) hf
  | forIn =>
    simp [eachStatement] at h
    obtain ⟨right, s₁, hright, hc, body, s₂, hb, scope, hf, rfl⟩ := h
    exact .forIn (expression_read hr hright) hc (loopBody_read hr hb) hf

theorem declaringLoop_read (hr : Reads c r) {start : Position} {kind : VariableKind}
    {a : B.Statement} (h : declaringLoop r start kind c s = (.ok a, s')) :
    Reading B True c (.declaringLoop start kind) s a s' := by
  simp [declaringLoop] at h
  obtain ⟨list, s₁, hl, h⟩ := h
  have hlist := declarationList_read hr hl
  cases ho : s₁.eachLoop? with
  | none =>
    cases hm : list.missing with
    | some extent => simp [ho, hm] at h
    | none =>
      simp [ho, hm] at h
      exact .declaringCounted hlist ho hm (countedStatement_read hr h)
  | some loop =>
    cases hf : eachFault? list loop with
    | some cause => simp [ho, hf] at h
    | none =>
      simp [ho, hf] at h
      exact .declaringEach hlist ho hf (eachStatement_read hr h)

theorem expressionLoop_read (hr : Reads c r) {start : Position} {a : B.Statement}
    (h : expressionLoop r start c s = (.ok a, s')) :
    Reading B True c (.expressionLoop start) s a s' := by
  simp [expressionLoop] at h
  obtain ⟨left, s₁, hl, h⟩ := h
  have hleft := expression_read hr hl
  cases ho : s₁.eachLoop? with
  | none =>
    simp [ho] at h
    exact .expressionCounted hleft ho (countedStatement_read hr h)
  | some loop =>
    simp [ho] at h
    obtain ⟨ht, s₂, hw, h⟩ := h
    exact .expressionEach hleft ho ht hw (eachStatement_read hr h)

theorem assigningLoop_read (hr : Reads c r) {start : Position} {a : B.Statement}
    (h : assigningLoop r start c s = (.ok a, s')) :
    Reading B True c (.assigningLoop start) s a s' := by
  simp [assigningLoop] at h
  obtain ⟨target, s₁, ht, h⟩ := h
  have hattempt := assignmentPattern?_read hr ht
  cases target with
  | none => exact .noPatternLoop hattempt (expressionLoop_read hr h)
  | some target =>
    cases ho : s₁.eachLoop? with
    | none => simp [ho] at h
    | some loop =>
      simp [ho] at h
      exact .patternEach hattempt ho (eachStatement_read hr h)

theorem forStatement_read (hr : Reads c r) {a : B.Statement} (hk : s.kind = .kwFor)
    (h : forStatement r c s = (.ok a, s')) : Reading B True c .statementInside s a s' := by
  simp [forStatement] at h
  obtain ⟨ho, ⟨hs, h⟩ | ⟨hs, kind?, s₁, hh, h⟩⟩ := h
  · exact .forStatement hk ho (.emptyHead hs (countedStatement_read hr h))
  · cases kind? with
    | some kind => exact .forStatement hk ho (.declaringHead hs hh (declaringLoop_read hr h))
    | none => exact .forStatement hk ho (.assigningHead hs hh (assigningLoop_read hr h))

theorem whileStatement_read (hr : Reads c r) {a : B.Statement} (hk : s.kind = .kwWhile)
    (h : whileStatement r c s = (.ok a, s')) : Reading B True c .statementInside s a s' := by
  simp [whileStatement] at h
  obtain ⟨test, s₁, ht, body, hb, rfl⟩ := h
  exact .whileStatement hk (condition_read hr ht) (loopBody_read hr hb)

theorem doWhileStatement_read (hr : Reads c r) {a : B.Statement} (hk : s.kind = .kwDo)
    (h : doWhileStatement r c s = (.ok a, s')) : Reading B True c .statementInside s a s' := by
  simp [doWhileStatement] at h
  obtain ⟨body, s₁, hb, hw, test, s₂, ht, h⟩ := h
  obtain ⟨hk', rfl, rfl⟩ | ⟨hk', rfl, rfl⟩ := h
  · exact .doWhileStatement hk (loopBody_read hr hb) hw (condition_read hr ht) (by simp [hk'])
  · exact .doWhileStatement hk (loopBody_read hr hb) hw (condition_read hr ht) (by simp [hk'])

/-! Jumps, labels and other statements -/

theorem returnStatement_read (hr : Reads c r) {a : B.Statement} (hk : s.kind = .kwReturn)
    (h : returnStatement r c s = (.ok a, s')) : Reading B True c .statementInside s a s' := by
  simp [returnStatement] at h
  obtain ⟨hf, ⟨hm, he, rfl⟩ | ⟨hm, s₁, e, ha, he, rfl⟩⟩ := h
  · exact .returnStatement hk hf hm (ends_of_consumeSemicolon he)
  · exact .returnValueStatement hk hf hm (expression_read hr ha) (ends_of_consumeSemicolon he)

theorem throwStatement_read (hr : Reads c r) {a : B.Statement} (hk : s.kind = .kwThrow)
    (h : throwStatement r c s = (.ok a, s')) : Reading B True c .statementInside s a s' := by
  simp [throwStatement] at h
  obtain ⟨hn, e, s₁, ha, he, rfl⟩ := h
  exact .throwStatement hk hn (expression_read hr ha) (ends_of_consumeSemicolon he)

theorem labeledStatement_read (hr : Reads c r) {t : ParseState} {a : B.Statement}
    (hk : t.kind = .identifier) (hc : colonFollows c t = (.ok true, s))
    (h : labeledStatement r c s = (.ok a, s')) : Reading B True c .statementInside t a s' := by
  simp only [labeledStatement, state_bind, next_bind, ite_ok, fail_ok, and_false, false_or, bind_ok,
    expect_ok, modifyScopes_bind, always_ok, spanFrom_bind, pure_ok] at h
  obtain ⟨hn, _, _, ⟨hk', rfl⟩, isLoop, s₁, hl, body, _, ⟨s₂, hb, rfl⟩, rfl, rfl⟩ := h
  exact .labeledStatement hk hc (by simpa using hn) hk' hl (hr.statement hb)

theorem ifStatement_read (hr : Reads c r) {a : B.Statement} (hk : s.kind = .kwIf)
    (h : ifStatement r c s = (.ok a, s')) : Reading B True c .statementInside s a s' := by
  simp [ifStatement] at h
  obtain ⟨test, s₁, ht, consequent, s₂, hs, ⟨he, alternate, ha, rfl⟩ | ⟨he, rfl, rfl⟩⟩ := h
  · exact .ifElseStatement hk (condition_read hr ht) (hr.statement hs) he (hr.statement ha)
  · exact .ifStatement hk (condition_read hr ht) (hr.statement hs) he

theorem withStatement_read (hr : Reads c r) {a : B.Statement} (hk : s.kind = .kwWith)
    (h : withStatement r c s = (.ok a, s')) : Reading B True c .statementInside s a s' := by
  simp [withStatement] at h
  obtain ⟨hs, object, s₁, ho, body, hb, rfl⟩ := h
  exact .withStatement hk hs (condition_read hr ho) (hr.statement hb)

theorem clauseTest_read (hr : Reads c r) {hasDefault : Bool} {a : Option B.Expression}
    (h : clauseTest r hasDefault c s = (.ok a, s')) :
    Reading B True c (.clauseTest hasDefault) s a s' := by
  simp only [clauseTest, state_bind] at h
  replace h : Yields _ c _ _ := h
  split at h
  all_goals simp [Yields] at h
  case h_1 hk =>
    obtain ⟨e, he, rfl⟩ := h
    exact .caseClause hk (expression_read hr he)
  case h_2 hk =>
    obtain ⟨rfl, rfl, rfl⟩ := h
    exact .defaultClause hk

theorem clauseRounds_read (hr : Reads c r) {scan : SwitchScan B}
    {as : List (SwitchClause B.Expression B.Statement)}
      (h : Rounds (clauseRound r) c scan s as s') :
    ∃ rest, as = scan.clauses.reverse ++ rest ∧
      Reading B True c (.clauses scan.hasDefault) s rest s' := by
  induction h with
  | done h =>
    simp [clauseRound] at h
    obtain ⟨hk, rfl, rfl⟩ := h
    exact ⟨[], by simp, .noClauses hk⟩
  | again h _ ih =>
    obtain ⟨rest, rfl, hrest⟩ := ih
    simp [clauseRound] at h
    obtain ⟨hk, test, s₁, ht, hc, body, hb, rfl⟩ := h
    exact ⟨_ :: rest, by simp,
      .moreClauses hk (clauseTest_read hr ht) hc (itemsUntil_read hr hb) hrest⟩

theorem switchStatement_read (hr : Reads c r) {a : B.Statement} (hk : s.kind = .kwSwitch)
    (h : switchStatement r c s = (.ok a, s')) : Reading B True c .statementInside s a s' := by
  simp [switchStatement] at h
  obtain ⟨discriminant, s₁, hd, ho, clauses, s₂, hs, he, scope, hf, rfl⟩ := h
  obtain ⟨rest, rfl, hrest⟩ := clauseRounds_read hr (rounds_of_repeatFrom hs)
  exact .switchStatement hk (condition_read hr hd) ho hrest he hf

theorem catchParameter_read (hr : Reads c r) {a : B.Pattern}
    (h : catchParameter r c s = (.ok a, s')) :
    Reading B True c .catchParameter s a s' := by
  simp [catchParameter] at h
  obtain ⟨hk, ha⟩ | ⟨hn, hk, ha⟩ := h
  · exact .catchName hk ha
  · exact .catchPattern hn hk (bindingPattern_read hr ha)

theorem catchClause_read (hr : Reads c r) {a : CatchClause B.Statement B.Pattern}
    (h : catchClause r c s = (.ok a, s')) : Reading B True c .catchClause s a s' := by
  simp [catchClause, blockItems] at h
  obtain ⟨ho, parameter, s₁, hp, hc, hb, body, s₂, hs, he, scope, hf, rfl⟩ := h
  exact .catchClause ho (catchParameter_read hr hp) hc hb (itemsUntil_read hr hs) he hf

theorem tryStatement_read (hr : Reads c r) {a : B.Statement} (hk : s.kind = .kwTry)
    (h : tryStatement r c s = (.ok a, s')) : Reading B True c .statementInside s a s' := by
  simp [tryStatement] at h
  obtain ⟨guarded, s₁, hg, ⟨hc, s₂, handler, hh, h⟩ | ⟨hc, hf, finalizer, hb, rfl⟩⟩ := h
  · obtain ⟨hf, finalizer, hb, rfl⟩ | ⟨hf, rfl, rfl⟩ := h
    · exact .tryCatchFinally hk (block_read hr hg) hc (catchClause_read hr hh) hf (block_read hr hb)
    · exact .tryCatch hk (block_read hr hg) hc (catchClause_read hr hh) hf
  · exact .tryFinally hk (block_read hr hg) hc hf (block_read hr hb)

theorem expressionStatement_ok (hr : Reads c r) {a : B.Statement}
    (h : expressionStatement r c s = (.ok a, s')) :
    ∃ e s₁, Reading B True c .expression s e s₁ ∧ Ends s₁ s' ∧
    a = B.expression (s'.spanFrom s.start) e := by
  simp [expressionStatement] at h
  obtain ⟨e, s₁, he, hend, rfl⟩ := h
  exact ⟨e, s₁, expression_read hr he, ends_of_consumeSemicolon hend, rfl⟩

theorem statement_read (hr : Reads c r) {a : B.Statement} (h : statement r c s = (.ok a, s')) :
    Reading B True c .statement s a s' := by
  simp only [statement, nested_ok, state_bind] at h
  obtain ⟨hn, s₁, h, rfl⟩ := h
  refine .statement hn ?_
  generalize s.deeper = s at h
  replace h : Yields _ c _ _ := h
  split at h
  case h_1 hk => exact .blockStatement hk (block_read hr h)
  case h_2 hk => exact .varStatement hk (variableStatement_read hr h)
  case h_3 hk =>
    simp [Yields, emptyStatement] at h
    obtain ⟨rfl, rfl⟩ := h
    exact .emptyStatement hk
  case h_4 hk => exact ifStatement_read hr hk h
  case h_5 hk => exact forStatement_read hr hk h
  case h_6 hk => exact whileStatement_read hr hk h
  case h_7 hk => exact doWhileStatement_read hr hk h
  case h_8 hk => exact .continueStatement hk h
  case h_9 hk => exact .breakStatement hk h
  case h_10 hk => exact returnStatement_read hr hk h
  case h_11 hk => exact withStatement_read hr hk h
  case h_12 hk => exact switchStatement_read hr hk h
  case h_13 hk => exact throwStatement_read hr hk h
  case h_14 hk => exact tryStatement_read hr hk h
  case h_15 hk =>
    simp [Yields, debuggerStatement] at h
    obtain ⟨he, rfl⟩ := h
    exact .debuggerStatement hk (ends_of_consumeSemicolon he)
  case h_16 hk =>
    simp [Yields] at h
    exact .functionStatement hk h.1 (functionDeclaration_read hr h.2)
  case h_17 => simp [Yields] at h
  case h_18 hk =>
    simp [Yields] at h
    obtain ⟨s₂, hl, h⟩ := h
    obtain ⟨e, s₃, he, hend, rfl⟩ := expressionStatement_ok hr h
    exact .letExpressionStatement hk hl he hend
  case h_22 hk =>
    simp [Yields] at h
    obtain ⟨s₂, hc, h⟩ | ⟨s₂, hc, h⟩ := h
    · obtain ⟨e, s₃, he, hend, rfl⟩ := expressionStatement_ok hr h
      exact .nameStatement hk hc he hend
    · exact labeledStatement_read hr hk hc h
  case h_23 =>
    obtain ⟨e, s₃, he, hend, rfl⟩ := expressionStatement_ok hr h
    exact .expressionStatement (by simp_all) he hend
  all_goals simp [Yields] at h

theorem item_read (hr : Reads c r) {a : B.Statement} (h : item r c s = (.ok a, s')) :
    Reading B True c .item s a s' := by
  simp only [item, state_bind] at h
  replace h : Yields _ c _ _ := h
  split at h
  case h_1 hk => exact .itemFunction hk (functionDeclaration_read hr h)
  case h_2 hk => exact .itemConst hk (variableStatement_read hr h)
  case h_3 hk =>
    simp [Yields] at h
    obtain ⟨s₁, hl, h⟩ | ⟨s₁, hl, h⟩ := h
    · exact .itemLetName hk hl (hr.statement h)
    · exact .itemLet hk hl (variableStatement_read hr h)
  case h_7 => exact .itemStatement (by simp_all) (hr.statement h)
  all_goals simp [Yields] at h

theorem bounded_reads (B : NodeAlgebra) (c : ParseContext) (n : Nat) :
    Reads c (Rules.bounded B n) := by
  induction n with
  | zero =>
    refine ⟨⟨0, rfl⟩, ?_, ?_, ?_, ?_⟩
    all_goals simp [Rules.bounded, Rules.item, Rules.statement, Rules.assignment, Rules.pattern]
  | succ n ih =>
    exact ⟨⟨_, rfl⟩, item_read ih, statement_read ih, assignmentExpression_read ih, pattern_read ih⟩

end EcmaFront.Parse
