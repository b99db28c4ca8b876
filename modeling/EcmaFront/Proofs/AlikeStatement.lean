import EcmaFront.Proofs.AlikeOperation

/-!
Statements come to the same end by two sets of rules, if the phrases do that they ask for.
-/

set_option autoImplicit false

namespace EcmaFront

/-- What the parts of a statement that begins at a state may be asked in. -/
structure Ground.Statements (K : Phrase → Ground → Prop) (o : ParseState) (g : Ground) : Prop where
  operands : g.Operands K
  /-- A block, or a handler with its parameter. -/
  block : o.kind ≠ .kwSwitch → K .item g.block ∧ g.block.Operands K ∧
    K (.pattern .catchParameter) g.block
  statement : o.kind = .kwIf ∨ o.kind = .kwWith → K .statement g
  loop : o.kind = .kwWhile ∨ o.kind = .kwDo → K .statement g.loop
  loopInBlock : o.kind = .kwFor → K .statement g.block.loop
  switch : o.kind = .kwSwitch → K .item g.switch ∧ g.switch.Operands K
  label : o.kind = .identifier → ∀ {isLoop}, o.LoopHere isLoop →
    K .statement (g.label ⟨o.token.text, isLoop⟩)

namespace Parse.Asking

variable {c : ParseContext} {r r' : Rules .tree} {K : Phrase → Ground → Prop} {m : Nat}
  {o s t t' : ParseState} {g : Ground}

/-! Loops. -/

theorem loopBody (h : Asking c r r' K m o) (hs : o.Ahead g s) (hK : K .statement g.loop) :
    Alike c s (loopBody r) (Parse.loopBody r') :=
  .modifyScopes_bind (.always (h.statement hs.beginLoop hK))

theorem condition (h : Asking c r r' K m o) (hs : o.Ahead g s) (hK : K .assignment g) :
    Alike c s (condition r) (Parse.condition r') :=
  .expect_bind fun _ => (h.expressionBehind hs.next hK).bind fun _ _ _ => Alike.expect.bind
    fun _ _ _ => .pure trivial

theorem onward_condition {e : Expr} (hr : Reads c r) (h : Parse.condition r c s = (.ok e, t)) :
    s.Onward t :=
  have h := condition_read hr h
  .behind h.bare h.stances

theorem whileStatement (h : Asking c r r' K m o) (hs : o.Ahead g s.next) (hK : g.Operands K)
    (hl : K .statement g.loop) :
    Alike c s (whileStatement r) (Parse.whileStatement r') := by
  refine .state_bind (.next_bind ((h.condition hs hK.assignment).bind fun _ s₁ ht => ?_))
  exact (h.loopBody (hs.onward (onward_condition h.reads ht)) hl).bind fun _ _ _ =>
    .spanFrom_bind (.pure trivial)

theorem doWhileStatement (h : Asking c r r' K m o) (hs : o.Ahead g s.next) (hK : g.Operands K)
    (hl : K .statement g.loop) : Alike c s (doWhileStatement r) (Parse.doWhileStatement r') := by
  refine .state_bind (.next_bind ((h.loopBody hs hl).bind fun _ s₁ hb => .expect_bind fun _ => ?_))
  have hb := loopBody_read h.reads hb
  refine (h.condition (hs.behind hb.bare hb.stances).next hK.assignment).bind fun _ _ _ => ?_
  exact Alike.consume.bind fun _ _ _ => .spanFrom_bind (.pure trivial)

theorem eachStatement (h : Asking c r r' K m o) (hs : o.Ahead g s) (hK : g.Operands K)
    (hl : K .statement g.loop)
    {start : Position} {left : ForTarget Stmt Expr Pat} {loop : EachLoop} :
    Alike c s (eachStatement r start left loop) (Parse.eachStatement r' start left loop) := by
  refine .next_bind ?_
  have rest (right : Expr) {t : ParseState} (ho : s.next.Onward t) : Alike c t
      (do
        Parse.expect .rightParen
        let body ← Parse.loopBody r
        let scope ← finishBlock
        Pure.pure (NodeAlgebra.tree.loopEach loop (← spanFrom start) left right body scope))
      (do
        Parse.expect .rightParen
        let body ← Parse.loopBody r'
        let scope ← finishBlock
        Pure.pure (NodeAlgebra.tree.loopEach loop (← spanFrom start) left right body scope)) :=
    .expect_bind fun _ => (h.loopBody (hs.next.onward ho).next hl).bind fun _ _ _ =>
      Alike.ask.bind fun _ _ _ =>
      .spanFrom_bind (.pure trivial)
  refine .ite (fun _ => ?_) fun _ => ?_
  · refine (h.assignment hs.next hK.assignment).bind fun e s₁ he => ?_
    have he := h.reads.assignment he
    exact rest e (.behind he.bare he.stances)
  · refine (h.expressionBehind hs.next hK.assignment).bind fun e s₁ he => ?_
    have he := expression_read h.reads he
    exact rest e (.behind he.bare he.stances)

theorem expressionBefore (h : Asking c r r' K m o) (hs : o.Ahead g s) (hK : K .assignment g)
    {close : TokenKind} :
    Alike c s (expressionBefore r close) (Parse.expressionBefore r' close) :=
  .state_bind (.ite (fun _ => .pure trivial) fun _ => (h.expressionBehind hs hK).map)

theorem countedStatement (h : Asking c r r' K m o) (hs : o.Ahead g s) (hK : g.Operands K)
    (hl : K .statement g.loop) {start : Position} {init : Option (ForInit Stmt Expr)} :
    Alike c s (countedStatement r start init) (Parse.countedStatement r' start init) := by
  refine .expect_bind fun _ => (h.expressionBefore hs.next hK.assignment).bind fun _ s₁ ht =>
    .expect_bind fun _ => ?_
  have ht := expressionBefore_read h.reads ht
  have h₁ := (hs.next.behind ht.bare ht.stances).next
  refine (h.expressionBefore h₁ hK.assignment).bind fun _ s₂ hu => .expect_bind fun _ => ?_
  have hu := expressionBefore_read h.reads hu
  refine (h.loopBody (h₁.behind hu.bare hu.stances).next hl).bind fun _ _ _ => ?_
  exact Alike.ask.bind fun _ _ _ => .spanFrom_bind (.pure trivial)

theorem declaringLoop (h : Asking c r r' K m o) (hs : o.Ahead g s) (hK : g.Operands K)
    (hl : K .statement g.loop) {start : Position} {kind : VariableKind} :
    Alike c s (declaringLoop r start kind) (Parse.declaringLoop r' start kind) := by
  have hn := hs.next.allow false
  refine .state_bind (.next_bind (.bind (.allowingIn (h.declarationList hn hK)) fun list s₁ hd =>
    .state_bind ?_))
  obtain ⟨s₁, hd', rfl⟩ := allowingIn_ok.1 hd
  have hd := declarationList_read h.reads hd'
  have h₁ := (hn.behind hd.bare hd.stances).allow s.next.allowsIn
  split
  · split
    · next hf => exact .fail (isFault_of_eachFault? hf).ne_exhausted
    · refine .bind (.spanFrom_bind (.pure trivial)) fun declaration s₂ he => ?_
      cases he
      exact h.eachStatement h₁ hK hl
  · split
    · exact .failAt nofun
    · refine .bind (.spanFrom_bind (.pure trivial)) fun declaration s₂ he => ?_
      cases he
      exact h.countedStatement h₁ hK hl

theorem expressionLoop (h : Asking c r r' K m o) (hs : o.Ahead g s) (hK : g.Operands K)
    (hl : K .statement g.loop) {start : Position} :
    Alike c s (expressionLoop r start) (Parse.expressionLoop r' start) := by
  have hn := hs.allow false
  refine .state_bind (.bind (.allowingIn (h.expressionBehind hn hK.assignment))
    fun left s₁ he => .state_bind ?_)
  obtain ⟨s₁, he', rfl⟩ := allowingIn_ok.1 he
  have he := expression_read h.reads he'
  have h₁ := (hn.behind he.bare he.stances).allow s.allowsIn
  split
  · refine .ite (fun _ => Alike.noteAssignment.bind fun _ s₂ hw => ?_) fun _ => .failAt nofun
    have h₂ := h₁.behind (Walk.noteAssignment (w := Walk.bare c) hw) (stances_noteAssignment hw)
    exact h.eachStatement h₂ hK hl
  · exact h.countedStatement h₁ hK hl

theorem assigningLoop (h : Asking c r r' K m o) (hs : o.Ahead g s) (hK : g.Operands K)
    (hl : K .statement g.loop) {start : Position} :
    Alike c s (assigningLoop r start) (Parse.assigningLoop r' start) := by
  have hp : Alike c s (Parse.assignmentPattern? r (·.eachLoop?.isSome))
      (Parse.assignmentPattern? r' (·.eachLoop?.isSome)) :=
    h.assignmentPattern? (fun _ _ => rfl) hs.toStage (.inl hs.ahead) (hK.pattern _ nofun)
  refine hp.bind fun found s₁ ht => ?_
  have ht := assignmentPattern?_read h.reads ht
  have h₁ := hs.behind (ht.bare fun _ _ => rfl) (ht.stances fun _ _ => rfl)
  cases found with
  | none => exact h.expressionLoop h₁ hK hl
  | some target =>
    refine .state_bind ?_
    split
    · exact h.eachStatement h₁ hK hl
    · exact .unexpected

theorem forStatement (h : Asking c r r' K m o) (hs : o.Ahead g s.next) (hK : g.block.Operands K)
    (hl : K .statement g.block.loop) : Alike c s (forStatement r) (Parse.forStatement r') := by
  have hb := hs.next.pushBlock
  refine .state_bind (.next_bind (.expect_bind fun _ => .modifyScopes_bind (.state_bind ?_)))
  refine .ite (fun _ => ?_) fun _ => ?_
  · exact h.countedStatement hb hK hl
  · refine Alike.headKind?.bind fun kind? s₁ hh => ?_
    have h₁ := hb.onward (.glance (headKind?_glances hh))
    cases kind? with
    | some kind => exact h.declaringLoop h₁ hK hl
    | none => exact h.assigningLoop h₁ hK hl

/-! Other statements. -/

theorem returnStatement (h : Asking c r r' K m o) (hs : o.Ahead g s.next) (hK : K .assignment g) :
    Alike c s (returnStatement r) (Parse.returnStatement r') := by
  have rest (argument : Option Expr) {t : ParseState} : Alike c t
      (do
        Parse.consumeSemicolon
        Pure.pure (NodeAlgebra.tree.leave (← spanFrom s.start) argument))
      (do
        Parse.consumeSemicolon
        Pure.pure (NodeAlgebra.tree.leave (← spanFrom s.start) argument)) :=
    Alike.consumeSemicolon.bind fun _ _ _ => .spanFrom_bind (.pure trivial)
  refine .state_bind (.ite (fun _ => .fail nofun) fun _ => .next_bind (.state_bind ?_))
  refine .ite (fun _ => rest none) fun _ => ?_
  exact (h.expressionBehind hs hK).map.bind fun _ _ _ => rest _

theorem throwStatement (h : Asking c r r' K m o) (hs : o.Ahead g s.next) (hK : K .assignment g) :
    Alike c s (throwStatement r) (Parse.throwStatement r') := by
  refine .state_bind (.next_bind (.state_bind (.ite (fun _ => .fail nofun) fun _ => ?_)))
  refine (h.expressionBehind hs hK).bind fun _ _ _ => ?_
  exact Alike.consumeSemicolon.bind fun _ _ _ => .spanFrom_bind (.pure trivial)

theorem ifStatement (h : Asking c r r' K m o) (hs : o.Ahead g s.next) (hK : K .assignment g)
    (hb : K .statement g) :
    Alike c s (ifStatement r) (Parse.ifStatement r') := by
  refine .state_bind (.next_bind ((h.condition hs hK).bind fun _ s₁ ht => ?_))
  have h₁ := hs.onward (onward_condition h.reads ht)
  refine (h.statement h₁ hb).bind fun _ s₂ hc => ?_
  have hc := h.reads.statement hc
  have h₂ := h₁.behind hc.bare.1 hc.stances
  extract_lets rest
  have hr {t : ParseState} (alternate : Option Stmt) :
      Alike c t (rest alternate) (rest alternate) :=
    .spanFrom_bind (.pure trivial)
  exact .consume_bind (fun _ => (h.statement h₂.next hb).map.bind fun _ _ _ => hr _)
    fun _ => hr none

theorem withStatement (h : Asking c r r' K m o) (hs : o.Ahead g s.next) (hK : K .assignment g)
    (hb : K .statement g) :
    Alike c s (withStatement r) (Parse.withStatement r') := by
  refine .state_bind (.ite (fun _ => .fail nofun) fun _ =>
    .next_bind ((h.condition hs hK).bind fun _ s₁ ht => ?_))
  have h₁ := hs.onward (onward_condition h.reads ht)
  have h₂ : o.Ahead g (s₁.onScopes .activate) :=
    h₁.behind (Walk.touched (w := Walk.bare c) .activate _) (Scopes.stances_activate _)
  exact .modifyScopes_bind ((h.statement h₂ hb).bind fun _ _ _ => .spanFrom_bind (.pure trivial))

theorem clauseRound (h : Asking c r r' K m o) (hs : o.Ahead g s) (hK : K .assignment g)
    (hi : K .item g) {scan : SwitchScan .tree} :
    Alike c s (clauseRound r scan) (Parse.clauseRound r' scan) (Alike.Lowers (o.Ahead g) s) := by
  have ht : Alike c s (clauseTest r scan.hasDefault) (Parse.clauseTest r' scan.hasDefault) := by
    refine .state_bind ?_
    split
    · exact .next_bind (h.expressionBehind hs.next hK).map
    · exact .ite (fun _ => .fail nofun) fun _ => .next_bind (.pure trivial)
    · exact .unexpected
  refine .state_bind (.ite (fun _ => .pure trivial) fun _ => ht.bind fun test s₁ ht =>
    .expect_bind fun hk => ?_)
  have ht := clauseTest_read h.reads ht
  have h₁ : s.Onward s₁ := .behind ht.bare ht.stances
  refine (h.itemsUntil (hs.onward h₁).next hi).bind fun body s₂ hb => .spanFrom_bind (.pure ?_)
  have hb := itemsUntil_read h.reads hb
  exact hs.lowers_through h₁ (hk ▸ rfl) (.behind hb.bare hb.stances)

theorem switchStatement (h : Asking c r r' K m o) (hs : o.Ahead g s.next) (hK : K .assignment g)
    (hc : K .assignment g.switch) (hi : K .item g.switch) :
    Alike c s (switchStatement r) (Parse.switchStatement r') := by
  refine .state_bind (.next_bind ((h.condition hs hK).bind fun _ s₁ ht => .expect_bind fun _ =>
    .modifyScopes_bind ?_))
  have h₁ := (hs.onward (onward_condition h.reads ht)).next.beginSwitch
  refine .bind (.repeatFrom (o.Ahead g.switch) h₁ (h.rest_lt h₁.toStage) fun _ _ hs =>
    h.clauseRound hs hc hi) ?_
  refine fun _ _ _ => .modifyScopes_bind (Alike.expect.bind fun _ _ _ => Alike.ask.bind
    fun _ _ _ => ?_)
  exact .spanFrom_bind (.pure trivial)

theorem catchClause (h : Asking c r r' K m o) (hs : o.Ahead g s)
    (hp : K (.pattern .catchParameter) g.block) (hi : K .item g.block) :
    Alike c s (catchClause r) (Parse.catchClause r') := by
  have hb := hs.next.next.pushBlock
  have ht {t : ParseState} (ht : o.Ahead g.block t) :
      Alike c t (catchParameter r) (Parse.catchParameter r') := by
    refine .state_bind (.ite (fun _ => .bindingName) fun _ => .ite (fun _ => ?_)
      fun _ => .unexpected)
    exact h.bindingPattern ht hp
  refine .state_bind (.next_bind
    (.expect_bind fun _ => .modifyScopes_bind ((ht hb).bind fun _ s₁ hc => ?_)))
  have hc := catchParameter_read h.reads hc
  have h₁ := hb.behind (hc.bare fun _ => rfl) hc.stances
  refine .expect_bind fun _ => .state_bind
    (.expect_bind fun _ => (h.itemsUntil h₁.next.next hi).bind fun _ _ _ => ?_)
  exact Alike.expect.bind fun _ _ _ => Alike.ask.bind fun _ _ _ => .state_bind (.pure trivial)

theorem tryStatement (h : Asking c r r' K m o) (hs : o.Ahead g s.next)
    (hp : K (.pattern .catchParameter) g.block) (hi : K .item g.block) :
    Alike c s (tryStatement r) (Parse.tryStatement r') := by
  refine .state_bind (.next_bind ((h.block hs.toStage hi).bind fun guarded s₁ hg => .state_bind ?_))
  have hg := block_read h.reads hg
  have h₁ : o.Ahead g s₁ := hs.toStage.consumed hg.consumes hg.stances
  extract_lets rest rest'
  have hr {t : ParseState} (handler : Option (CatchClause Stmt Pat)) (ht : o.Ahead g t) :
      Alike c t (rest handler) (rest' handler) := by
    refine .consume_bind (fun _ => (h.block ht.next.toStage hi).map.bind fun _ _ _ => ?_) fun _ =>
      .ite nofun fun _ => .bind (.pure trivial) fun _ _ _ => ?_
    all_goals exact .ite (fun _ => .fail nofun) fun _ => .spanFrom_bind (.pure trivial)
  refine .ite (fun _ => (h.catchClause h₁ hp hi).map.bind fun handler s₂ hc => ?_)
    fun _ => hr none h₁
  obtain ⟨a, hc, -⟩ := map_ok.1 hc
  have hc := catchClause_read h.reads hc
  exact hr handler (h₁.behind hc.bare hc.stances)

theorem labeledStatement (h : Asking c r r' K m o) (hs : o.Ahead g s.next)
    (hl : ∀ {isLoop}, s.next.kind = .colon → s.next.next.LoopHere isLoop →
      K .statement (g.label ⟨s.token.text, isLoop⟩)) :
    Alike c s (labeledStatement r) (Parse.labeledStatement r') := by
  refine .state_bind (.ite (fun _ => .fail nofun) fun _ => .next_bind (.expect_bind fun hc => ?_))
  have hn := hs.next
  refine (Alike.labelsLoop hn.now (h.rest_lt hn.toStage)).bind fun isLoop s₁ hb =>
    .modifyScopes_bind ?_
  have h₁ := hn.onward (.glance (labelsLoop_glances hb))
  have hK := hl hc (ParseState.loopHere_of_labelsLoop hn.now hb)
  exact (Alike.always (h.statement (h₁.pushLabel s.token.text isLoop) hK)).bind fun _ _ _ =>
    .spanFrom_bind (.pure trivial)

theorem expressionStatement (h : Asking c r r' K m o) (hs : o.Stage g s) (hm : 1 < m)
    (hK : K .assignment g) :
    Alike c s (expressionStatement r) (Parse.expressionStatement r') :=
  .state_bind ((h.expression hs (.inr hm) hK).bind fun _ _ _ =>
    Alike.consumeSemicolon.bind fun _ _ _ =>
    .spanFrom_bind (.pure trivial))

theorem ofStatement (h : Asking c r r' K m o) (hs : o.Stage g o) (hm : 1 < m)
    (hK : g.Statements K o) :
    Alike c o (Parse.statement r) (Parse.statement r') := by
  have hs : o.Stage g o.deeper := hs.onward (.still rfl rfl)
  have hn (hk : o.kind.isSolid = true) : o.Ahead g o.deeper.next := hs.advance hk
  have he := hK.operands.assignment
  refine .nested (.state_bind ?_)
  split
  case h_1 hk => exact h.block hs (hK.block (hk ▸ nofun)).1
  case h_2 hk => exact h.variableStatement (hn (hk ▸ rfl)) hK.operands
  case h_3 => exact .state_bind (.next_bind (.spanFrom_bind (.pure trivial)))
  case h_4 hk => exact h.ifStatement (hn (hk ▸ rfl)) he (hK.statement (.inl hk))
  case h_5 hk =>
    exact h.forStatement (hn (hk ▸ rfl)) (hK.block (hk ▸ nofun)).2.1 (hK.loopInBlock hk)
  case h_6 hk => exact h.whileStatement (hn (hk ▸ rfl)) hK.operands (hK.loop (.inl hk))
  case h_7 hk => exact h.doWhileStatement (hn (hk ▸ rfl)) hK.operands (hK.loop (.inr hk))
  case h_8 => exact .jump (fun _ _ _ h => (isFault_of_continueFault? h).ne_exhausted) nofun
  case h_9 => exact .jump (fun _ _ _ h => (isFault_of_breakFault? h).ne_exhausted) nofun
  case h_10 hk => exact h.returnStatement (hn (hk ▸ rfl)) he
  case h_11 hk => exact h.withStatement (hn (hk ▸ rfl)) he (hK.statement (.inr hk))
  case h_12 hk =>
    obtain ⟨hi, hc⟩ := hK.switch hk
    exact h.switchStatement (hn (hk ▸ rfl)) he hc.assignment hi
  case h_13 hk => exact h.throwStatement (hn (hk ▸ rfl)) he
  case h_14 hk =>
    obtain ⟨hi, -, hp⟩ := hK.block (hk ▸ nofun)
    exact h.tryStatement (hn (hk ▸ rfl)) hp hi
  case h_15 =>
    exact .state_bind (.next_bind (Alike.consumeSemicolon.bind fun _ _ _ =>
      .spanFrom_bind (.pure trivial)))
  case h_16 hk =>
    exact .ite (fun _ => .fail nofun) fun _ => h.functionDeclaration hs (hk ▸ rfl) hK.operands
  case h_17 | h_19 | h_20 | h_21 => exact .fail nofun
  case h_18 =>
    refine Alike.atLetDeclaration.bind fun _ s₁ hl => .ite (fun _ => .fail nofun) fun _ => ?_
    exact h.expressionStatement (hs.onward (.glance (atLetDeclaration_glances hl))) hm he
  case h_22 hk =>
    refine Alike.ask.bind fun found s₁ hc => ?_
    have hg := ParseState.again_of_colonFollows (s := o.deeper) hk hc
    have h₁ := hs.onward
      (.behind (Walk.colonFollows (w := Walk.bare c) hk hc) (colonFollows_resembles hc).stances)
    refine .ite (fun _ => ?_) fun _ => h.expressionStatement h₁ hm he
    have ht : s₁.token = o.token := by
      simp only [ask_run, Prod.mk.injEq] at hc
      rw [← hc.2]
      rfl
    have hi : s₁.kind = .identifier := (congrArg Token.kind ht).trans hk
    refine h.labeledStatement (h₁.advance_of hi rfl) fun hc hb => ?_
    have hl : o.deeper.LoopHere _ := .again hs.now hg (hi ▸ nofun) (.label h₁.now hi hc hb)
    rw [ht]
    exact hK.label hk hl
  case h_23 => exact h.expressionStatement hs hm he

theorem ofItem (h : Asking c r r' K m o) (hs : o.Stage g o) (hm : 2 < m) (hK : g.Operands K)
    (hb : K .statement g) :
    Alike c o (Parse.item r) (Parse.item r') := by
  have hn (hk : o.kind.isSolid = true) : o.Ahead g o.next := hs.advance hk
  have statement {t : ParseState} (ht : o.Stage g t) : Alike c t r.statement r'.statement :=
    h.asks ht (.inr hm) hb
  refine .state_bind ?_
  split
  case h_1 hk => exact h.functionDeclaration hs (hk ▸ rfl) hK
  case h_2 hk => exact h.variableStatement (hn (hk ▸ rfl)) hK
  case h_3 hk =>
    refine Alike.atLetDeclaration.bind fun _ s₁ hl => ?_
    have hg := atLetDeclaration_glances hl
    have h₁ := hs.onward (.glance hg)
    have he : o.kind ≠ .eof := hk ▸ nofun
    have hk : s₁.kind = .kwLet := (congrArg Token.kind (hg.again.token hs.now he).1).trans hk
    exact .ite (fun _ => h.variableStatement (h₁.advance_of hk rfl) hK) fun _ => statement h₁
  case h_4 | h_5 | h_6 => exact .fail nofun
  case h_7 => exact statement hs

end Parse.Asking

end EcmaFront
