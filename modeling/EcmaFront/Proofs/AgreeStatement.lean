import EcmaFront.Proofs.AgreeOperation

/-!
Loops, jumps and the other statements agree in two algebras if the phrases inside do. So the rules
of the whole grammar agree, however deep they may nest.
-/

set_option autoImplicit false

namespace EcmaFront.Agrees

open Parse

variable {A B : NodeAlgebra} {φ : NodeAlgebra.Hom A B} {I : Invariant} {r : Rules A} {r' : Rules B}
  {D : Nat → Prop} {m : Nat}

theorem modifyMark {change : Frame → Frame} (h : Frame.Marks change) :
    Agrees I Inside m m id (modifyScopes (·.modifyTop change))
      (modifyScopes (·.modifyTop change)) :=
  scopes fun hd => I.mark h (Nat.add_pos_left hd m)

theorem loopBody (hr : RulesAgree φ I r r') :
    Agrees I Inside m m φ.ofStatement (loopBody r) (loopBody r') := by
  refine bind (modifyMark fun f => ⟨f.labels, f.loops + 1, f.switches, rfl⟩) fun _ => ?_
  exact alwaysMark (deeper hr.statement) fun f => ⟨f.labels, f.loops - 1, f.switches, rfl⟩

theorem condition (hr : RulesAgree φ I r r') :
    Agrees I D m m φ.ofExpression (condition r) (condition r') :=
  bind (expect _) fun _ => bind (expression hr) fun _ => bind (expect _) fun _ => pure rfl

theorem whileStatement (hr : RulesAgree φ I r r') :
    Agrees I Inside m m φ.ofStatement (whileStatement r) (whileStatement r') := by
  refine state fun s _ => bind next fun _ => bind (condition hr) fun test =>
    bind (loopBody hr) fun body => ?_
  exact bind (spanFrom _) fun span => pure (φ.loopWhile _ _ _)

theorem doWhileStatement (hr : RulesAgree φ I r r') :
    Agrees I Inside m m φ.ofStatement (doWhileStatement r) (doWhileStatement r') := by
  refine state fun s _ => bind next fun _ => bind (loopBody hr) fun body =>
    bind (expect _) fun _ => ?_
  refine bind (condition hr) fun test => bind (consume _) fun _ => bind (spanFrom _) fun span => ?_
  exact pure (φ.doWhile _ _ _)

theorem eachStatement (hr : RulesAgree φ I r r') (start : Position)
    (left : ForTarget A.Statement A.Expression A.Pattern) (loop : EachLoop)
    (hl : ∀ a, left = .declaration a → A.IsDeclaration a) :
    Agrees I Inside (m + 1) m φ.ofStatement (eachStatement r start left loop)
      (eachStatement r' start (left.map φ.ofStatement φ.ofExpression φ.ofPattern) loop) := by
  have rest (right : A.Expression) : Agrees I Inside (m + 1) m φ.ofStatement
      (do
        Parse.expect .rightParen
        let body ← Parse.loopBody r
        let scope ← Parse.finishBlock
        let span ← Parse.spanFrom start
        Pure.pure (A.loopEach loop span left right body scope))
      (do
        Parse.expect .rightParen
        let body ← Parse.loopBody r'
        let scope ← Parse.finishBlock
        let span ← Parse.spanFrom start
        Pure.pure (B.loopEach loop span (left.map φ.ofStatement φ.ofExpression φ.ofPattern)
          (φ.ofExpression right) body scope)) := by
    refine bind (expect _) fun _ => bind (loopBody hr) fun body => bind finishBlock fun scope => ?_
    exact bind (spanFrom _) fun span => pure (φ.loopEach _ _ _ _ _ _ hl)
  exact bind next fun _ => ite (bind (here hr.assignment) rest) (bind (expression hr) rest)

theorem expressionBefore (hr : RulesAgree φ I r r') (close : TokenKind) :
    Agrees I D m m (Option.map φ.ofExpression) (expressionBefore r close)
      (expressionBefore r' close) :=
  state fun _ _ => ite (pure rfl) (map (expression hr) fun _ => rfl)

theorem countedStatement (hr : RulesAgree φ I r r') (start : Position)
    (init : Option (ForInit A.Statement A.Expression))
    (hi : ∀ a, init = some (.declaration a) → A.IsDeclaration a) :
    Agrees I Inside (m + 1) m φ.ofStatement (countedStatement r start init)
      (countedStatement r' start (init.map (.map φ.ofStatement φ.ofExpression))) := by
  refine bind (expect _) fun _ => bind (expressionBefore hr _) fun test =>
    bind (expect _) fun _ => ?_
  refine bind (expressionBefore hr _) fun update => bind (expect _) fun _ =>
    bind (loopBody hr) fun body => ?_
  refine bind finishBlock fun scope => bind (spanFrom _) fun span => ?_
  exact pure (φ.loop _ _ _ _ _ _ hi)

theorem eachFault?_onDeclaration (φ : NodeAlgebra.Hom A B) (list : DeclarationList A)
    (loop : EachLoop) :
    eachFault? (onDeclaration φ list) loop = eachFault? list loop := by
  have h : (onDeclaration φ list).declarators.length = list.declarators.length := List.length_map ..
  rw [eachFault?, h]
  rfl

theorem declaringLoop (hr : RulesAgree φ I r r') (start : Position) (kind : VariableKind) :
    Agrees I Inside (m + 1) m φ.ofStatement (declaringLoop r start kind)
      (declaringLoop r' start kind) := by
  refine state fun s _ => bind next fun _ =>
    bind (allowingIn (declarationList hr kind true)) fun list => ?_
  refine state fun t j => ?_
  rw [show (t.withJournal j).eachLoop? = t.eachLoop? from rfl]
  have declaration : Agrees I Inside (m + 1) (m + 1) φ.ofStatement
      (do
        let span ← Parse.spanFrom s.start
        Pure.pure (A.declaration ⟨span, kind, list.declarators⟩))
      (do
        let span ← Parse.spanFrom s.start
        Pure.pure (B.declaration ⟨span, kind, (onDeclaration φ list).declarators⟩)) :=
    bind (spanFrom _) fun span => pure (φ.declaration ⟨_, _, _⟩)
  have declares {c : ParseContext} {t t' : ParseState} {a : A.Statement}
      (h : (do
        let span ← Parse.spanFrom s.start
        Pure.pure (A.declaration ⟨span, kind, list.declarators⟩) : Parse A.Statement) c t =
          (.ok a, t')) :
      A.IsDeclaration a := by
    simp only [spanFrom_bind, pure_ok] at h
    exact ⟨_, h.1⟩
  split
  · rw [eachFault?_onDeclaration]
    split
    · exact fail _
    · refine bindWith declaration declares fun a ha => eachStatement hr start (.declaration a) _ ?_
      rintro _ ⟨⟩
      exact ha
  · rw [show (onDeclaration φ list).missing = list.missing from rfl]
    split
    · exact failAt _ _
    · refine bindWith declaration declares fun a ha => countedStatement hr start
        (some (.declaration a)) ?_
      rintro _ ⟨⟩
      exact ha

theorem expressionLoop (hr : RulesAgree φ I r r') (start : Position) :
    Agrees I Inside (m + 1) m φ.ofStatement (expressionLoop r start) (expressionLoop r' start) := by
  refine state fun s _ => bind (allowingIn (expression hr)) fun left => state fun t j => ?_
  rw [show (t.withJournal j).eachLoop? = t.eachLoop? from rfl, φ.isTarget]
  split
  · refine ite (bind (noteAssignment _ _) fun _ => ?_) (failAt _ _)
    exact eachStatement hr start (.expression left) _ nofun
  · exact countedStatement hr start (some (.expression left)) nofun

theorem assigningLoop (hr : RulesAgree φ I r r') (start : Position) :
    Agrees I Inside (m + 1) m φ.ofStatement (assigningLoop r start) (assigningLoop r' start) := by
  refine bind (assignmentPattern? hr fun _ _ => rfl) fun target => ?_
  cases target with
  | none => exact expressionLoop hr start
  | some target =>
    refine state fun t j => ?_
    rw [show (t.withJournal j).eachLoop? = t.eachLoop? from rfl]
    split
    · exact eachStatement hr start (.pattern target) _ nofun
    · exact unexpected

theorem headKind? {I : StillInvariant} : Agrees I D m m id headKind? headKind? := by
  refine state fun s j => ?_
  rw [show (s.withJournal j).kind = s.kind from rfl]
  split
  · exact pure rfl
  · exact pure rfl
  · exact bind atLetDeclaration fun _ => pure rfl
  · exact pure rfl

theorem forStatement (hr : RulesAgree φ I r r') :
    Agrees I Inside m m φ.ofStatement (forStatement r) (forStatement r') := by
  refine state fun s _ => bind next fun _ => bind (expect _) fun _ => bind pushBlock fun _ => ?_
  refine state fun t _ => ite (countedStatement hr _ none nofun) (bind headKind? fun kind => ?_)
  cases kind with
  | none => exact assigningLoop hr _
  | some kind => exact declaringLoop hr _ kind

/-! Jumps. -/

theorem jump (labelFault? : String → Option Label → Option Cause) (allowed : Scopes → Bool)
    (outside : Cause) {make : Span → Option String → A.Statement}
    {make' : Span → Option String → B.Statement}
    (h : ∀ span label, make' span label = φ.ofStatement (make span label)) :
    Agrees I D m m φ.ofStatement (jump labelFault? allowed outside make)
      (jump labelFault? allowed outside make') := by
  refine state fun start _ => bind next fun _ => state fun s j => ?_
  rw [show jumpLabel? (s.withJournal j) = jumpLabel? s from rfl,
    show (s.withJournal j).scopes = s.scopes from rfl]
  dsimp only
  have rest (label : Option String) (_ : Unit) : Agrees I D m m φ.ofStatement
      (do
        Parse.consumeSemicolon
        let span ← Parse.spanFrom start.start
        Pure.pure (make span label))
      (do
        Parse.consumeSemicolon
        let span ← Parse.spanFrom start.start
        Pure.pure (make' span label)) :=
    bind consumeSemicolon fun _ => bind (spanFrom _) fun span => pure (h span label)
  split
  · split
    · exact bind (fail (f := id) _) (rest _)
    · exact bind next (rest _)
  · exact ite (bind (failAt (f := id) _ _) (rest _)) (rest _ ())

theorem continueStatement (φ : NodeAlgebra.Hom A B) :
    Agrees I D m m φ.ofStatement (continueStatement (B := A)) (continueStatement (B := B)) :=
  jump _ _ _ φ.continueTo

theorem breakStatement (φ : NodeAlgebra.Hom A B) :
    Agrees I D m m φ.ofStatement (breakStatement (B := A)) (breakStatement (B := B)) :=
  jump _ _ _ φ.breakTo

theorem returnStatement (hr : RulesAgree φ I r r') :
    Agrees I D m m φ.ofStatement (returnStatement r) (returnStatement r') := by
  have rest (start : Position) (e : Option A.Expression) : Agrees I D m m φ.ofStatement
      (do
        Parse.consumeSemicolon
        let span ← Parse.spanFrom start
        Pure.pure (A.leave span e))
      (do
        Parse.consumeSemicolon
        let span ← Parse.spanFrom start
        Pure.pure (B.leave span (e.map φ.ofExpression))) :=
    bind consumeSemicolon fun _ => bind (spanFrom _) fun span => pure (φ.leave _ _)
  refine state fun s _ => ite (fail _) (bind next fun _ => state fun t _ => ite ?_ ?_)
  · exact bind (pure rfl) (rest _)
  · exact bind (map (expression hr) fun _ => rfl) (rest _)

theorem throwStatement (hr : RulesAgree φ I r r') :
    Agrees I D m m φ.ofStatement (throwStatement r) (throwStatement r') := by
  refine state fun s _ => bind next fun _ => state fun t _ => ite (fail _)
    (bind (expression hr) fun e => ?_)
  exact bind consumeSemicolon fun _ => bind (spanFrom _) fun span => pure (φ.throw _ _)

theorem labeledStatement (hr : RulesAgree φ I r r') :
    Agrees I Inside m m φ.ofStatement (labeledStatement r) (labeledStatement r') := by
  refine state fun s _ => ite (fail _) (bind next fun _ => bind (expect _) fun _ => ?_)
  refine bind labelsLoop fun isLoop =>
    bind (modifyMark fun f => ⟨_ :: f.labels, f.loops, f.switches, rfl⟩) ?_
  refine fun _ => bind (alwaysMark (deeper hr.statement) fun f =>
    ⟨f.labels.tail, f.loops, f.switches, rfl⟩) ?_
  exact fun body => bind (spanFrom _) fun span => pure (φ.labeled _ _ _)

/-! The other statements. -/

theorem ifStatement (hr : RulesAgree φ I r r') :
    Agrees I Inside m m φ.ofStatement (ifStatement r) (ifStatement r') := by
  have rest (start : Position) (test : A.Expression) (consequent : A.Statement)
      (alternate : Option A.Statement) : Agrees I Inside m m φ.ofStatement
      (do
        let span ← Parse.spanFrom start
        Pure.pure (A.branch span test consequent alternate))
      (do
        let span ← Parse.spanFrom start
        Pure.pure (B.branch span (φ.ofExpression test) (φ.ofStatement consequent)
          (alternate.map φ.ofStatement))) :=
    bind (spanFrom _) fun span => pure (φ.branch _ _ _ _)
  refine state fun s _ => bind next fun _ => bind (condition hr) fun test => ?_
  refine bind (deeper hr.statement) fun consequent => bind (consume _) fun _ => ite ?_ ?_
  · exact bind (map (deeper hr.statement) fun _ => rfl) (rest _ test consequent)
  · exact bind (pure rfl) (rest _ test consequent)

theorem withStatement (hr : RulesAgree φ I r r') :
    Agrees I Inside m m φ.ofStatement (withStatement r) (withStatement r') := by
  refine state fun s _ => ite (fail _) (bind next fun _ => bind (condition hr) fun object => ?_)
  refine bind (scopes fun hd => I.activate (Nat.add_pos_left hd m)) fun _ => ?_
  refine bind (deeper hr.statement) fun body => bind (spanFrom _) fun span => ?_
  exact pure (φ.withObject _ _ _)

theorem clauseTest (hr : RulesAgree φ I r r') (hasDefault : Bool) :
    Agrees I D m m (Option.map φ.ofExpression) (clauseTest r hasDefault)
      (clauseTest r' hasDefault) := by
  refine state fun s j => ?_
  rw [show (s.withJournal j).kind = s.kind from rfl]
  split
  · exact bind next fun _ => map (expression hr) fun _ => rfl
  · exact ite (fail _) (bind next fun _ => pure rfl)
  · exact unexpected

def onSwitch (φ : NodeAlgebra.Hom A B) (scan : SwitchScan A) : SwitchScan B :=
  ⟨scan.clauses.map (.map φ.ofExpression φ.ofStatement), scan.hasDefault⟩

theorem clauseRound (hr : RulesAgree φ I r r') (scan : SwitchScan A) :
    Agrees I Inside m m (.map (onSwitch φ) (List.map (.map φ.ofExpression φ.ofStatement)))
      (clauseRound r scan) (clauseRound r' (onSwitch φ scan)) := by
  refine state fun s _ => ite (pure (by simp [Round.map, onSwitch]))
    (bind (clauseTest hr _) fun test => ?_)
  refine bind (expect _) fun _ => bind (itemsUntil hr _) fun body => bind (spanFrom _)
    fun span => pure ?_
  simp [Round.map, onSwitch, SwitchClause.map]

theorem switchStatement (hr : RulesAgree φ I r r') :
    Agrees I Inside m m φ.ofStatement (switchStatement r) (switchStatement r') := by
  refine state fun s _ => bind next fun _ => bind (condition hr) fun e =>
    bind (expect _) fun _ => ?_
  have hpush : Agrees I Inside m (m + 1) id (modifyScopes (·.pushBlock.beginSwitch))
      (modifyScopes (·.pushBlock.beginSwitch)) :=
    scopes fun {d s j} hd hs =>
      I.mark (fun f => ⟨f.labels, f.loops, f.switches + 1, rfl⟩) (Nat.succ_pos _)
        (I.pushBlock (Nat.add_pos_left hd m) hs)
  refine bind hpush fun _ => bind (repeatFrom rfl (clauseRound hr)) fun clauses => ?_
  refine bind (modifyMark fun f => ⟨f.labels, f.loops, f.switches - 1, rfl⟩) fun _ => ?_
  refine bind (expect _) fun _ => bind finishBlock fun scope => bind (spanFrom _) fun span => ?_
  exact pure (φ.switch _ _ _ _)

theorem catchParameter (hr : RulesAgree φ I r r') :
    Agrees I Inside m m φ.ofPattern (catchParameter r) (catchParameter r') := by
  have hD {d : Nat} (hd : Inside d) : BindingForm.catchParameter.place (d + m) :=
    Nat.add_pos_left hd m
  exact state fun s _ => ite (bindingName φ _ hD) (ite (bindingPattern hr _ hD) unexpected)

theorem catchClause (hr : RulesAgree φ I r r') :
    Agrees I Inside m m (.map φ.ofStatement φ.ofPattern) (catchClause r) (catchClause r') := by
  refine state fun s _ => bind next fun _ => bind (expect _) fun _ => bind pushBlock fun _ => ?_
  refine bind (catchParameter hr) fun p => bind (expect _) fun _ => state fun t _ =>
    bind (expect _) fun _ => ?_
  refine bind (itemsUntil hr _) fun body => bind (expect _) fun _ =>
    bind finishBlock fun scope => ?_
  refine state fun u _ => pure ?_
  simp only [CatchClause.map, ← φ.block]
  rfl

theorem some_ok {α : Type} {p : Parse α} {Q : α → Prop} {c : ParseContext} {s s' : ParseState}
    {found : Option α} (h : (some <$> p) c s = (.ok found, s'))
    (hq : ∀ {a}, p c s = (.ok a, s') → Q a) : ∀ a, found = some a → Q a := by
  obtain ⟨a, hp, rfl⟩ := map_ok.1 h
  rintro _ ⟨⟩
  exact hq hp

theorem none_ok {α : Type} {Q : α → Prop} {c : ParseContext} {s s' : ParseState} {found : Option α}
    (h : (Pure.pure none : Parse (Option α)) c s = (.ok found, s')) :
    ∀ a, found = some a → Q a := by
  rw [(pure_ok.1 h).1]
  nofun

theorem block_isBlock {c : ParseContext} {s s' : ParseState} {a : A.Statement}
    (h : Parse.block r c s = (.ok a, s')) :
    A.IsBlock a := by
  simp only [Parse.block, state_bind, bind_ok, spanFrom_bind, pure_ok] at h
  obtain ⟨_, _, -, _, _, -, _, _, -, _, _, -, _, _, -, rfl, -⟩ := h
  exact ⟨_, rfl⟩

theorem catchClause_isBlock {c : ParseContext} {s s' : ParseState}
    {a : CatchClause A.Statement A.Pattern} (h : Parse.catchClause r c s = (.ok a, s')) :
    A.IsBlock a.body := by
  simp only [Parse.catchClause, state_bind, bind_ok, pure_ok] at h
  obtain ⟨_, _, -, _, _, -, _, _, -, _, _, -, _, _, -, _, _, -, _, _, -, _, _, -, _,
      _, -, rfl, -⟩ := h
  exact ⟨_, rfl⟩

theorem tryStatement (hr : RulesAgree φ I r r') :
    Agrees I Inside m m φ.ofStatement (tryStatement r) (tryStatement r') := by
  have last (start : Position) (guarded : A.Statement)
      (handler : Option (CatchClause A.Statement A.Pattern)) (finalizer : Option A.Statement)
      (hg : A.IsBlock guarded) (hh : ∀ h, handler = some h → A.IsBlock h.body)
      (hf : ∀ a, finalizer = some a → A.IsBlock a) :
      Agrees I Inside m m φ.ofStatement
      (if handler.isNone && finalizer.isNone then Parse.fail .tryAlone
        else do
          let span ← Parse.spanFrom start
          Pure.pure (A.attempt span guarded handler finalizer))
      (if (handler.map (CatchClause.map φ.ofStatement φ.ofPattern)).isNone &&
          (finalizer.map φ.ofStatement).isNone then Parse.fail .tryAlone
        else do
          let span ← Parse.spanFrom start
          Pure.pure (B.attempt span (φ.ofStatement guarded)
            (handler.map (CatchClause.map φ.ofStatement φ.ofPattern))
            (finalizer.map φ.ofStatement))) := by
    rw [Option.isNone_map, Option.isNone_map]
    exact ite (fail _) (bind (spanFrom _) fun span => pure (φ.attempt _ _ _ _ hg hh hf))
  refine state fun s _ => bind next fun _ => bindWith (block hr) block_isBlock fun guarded hg =>
    state fun t _ => ite ?_ ?_
  · refine bindWith (map (g := Option.map (.map φ.ofStatement φ.ofPattern))
      (catchClause hr) fun _ => rfl)
      (fun h => some_ok h catchClause_isBlock) fun handler hh => bind (consume _) fun _ => ite ?_ ?_
    · exact bindWith (map (block hr) fun _ => rfl) (fun h => some_ok h block_isBlock)
        (last _ guarded handler · hg hh)
    · exact bindWith (pure rfl) none_ok (last _ guarded handler · hg hh)
  · refine bindWith (pure (f := Option.map (.map φ.ofStatement φ.ofPattern)) rfl)
      (none_ok (Q := fun h : CatchClause _ _ => A.IsBlock h.body)) fun handler hh =>
      bind (consume _) fun _ => ite ?_ ?_
    · exact bindWith (map (block hr) fun _ => rfl) (fun h => some_ok h block_isBlock)
        (last _ guarded handler · hg hh)
    · exact bindWith (pure rfl) none_ok (last _ guarded handler · hg hh)

theorem emptyStatement (φ : NodeAlgebra.Hom A B) :
    Agrees I D m m φ.ofStatement (emptyStatement (B := A)) (emptyStatement (B := B)) :=
  state fun _ _ => bind next fun _ => bind (spanFrom _) fun _ => pure (φ.empty _)

theorem debuggerStatement (φ : NodeAlgebra.Hom A B) :
    Agrees I D m m φ.ofStatement (debuggerStatement (B := A)) (debuggerStatement (B := B)) :=
  state fun _ _ => bind next fun _ => bind consumeSemicolon fun _ => bind (spanFrom _) fun _ =>
    pure (φ.debugger _)

theorem expressionStatement (hr : RulesAgree φ I r r') :
    Agrees I D m m φ.ofStatement (expressionStatement r) (expressionStatement r') :=
  state fun _ _ => bind (expression hr) fun _ => bind consumeSemicolon fun _ =>
    bind (spanFrom _) fun _ =>
    pure (φ.expression _ _)

theorem colonFollows {I : StillInvariant} : Agrees I D m m id colonFollows colonFollows :=
  ask (fun _ hs => I.quiet hs .lookedAhead) fun _ _ => rfl

theorem statement (hr : RulesAgree φ I r r') :
    Agrees I Inside 0 0 φ.ofStatement (statement r) (statement r') := by
  refine nested (state fun s j => ?_)
  rw [show (s.withJournal j).kind = s.kind from rfl,
    show (s.withJournal j).strict = s.strict from rfl]
  split
  · exact block hr
  · exact variableStatement hr _
  · exact emptyStatement φ
  · exact ifStatement hr
  · exact forStatement hr
  · exact whileStatement hr
  · exact doWhileStatement hr
  · exact continueStatement φ
  · exact breakStatement φ
  · exact returnStatement hr
  · exact withStatement hr
  · exact switchStatement hr
  · exact throwStatement hr
  · exact tryStatement hr
  · exact debuggerStatement φ
  · exact ite (fail _) (functionDeclaration hr)
  · exact fail _
  · exact bind atLetDeclaration fun _ => ite (fail _) (expressionStatement hr)
  · exact fail _
  · exact fail _
  · exact fail _
  · exact bind colonFollows fun _ => ite (labeledStatement hr) (expressionStatement hr)
  · exact expressionStatement hr

theorem item (hr : RulesAgree φ I r r') : Agrees I Inside 0 0 φ.ofStatement (item r) (item r') := by
  refine state fun s j => ?_
  rw [show (s.withJournal j).kind = s.kind from rfl]
  split
  · exact functionDeclaration hr
  · exact variableStatement hr _
  · exact bind atLetDeclaration fun _ => ite (variableStatement hr _) hr.statement
  · exact fail _
  · exact fail _
  · exact fail _
  · exact hr.statement

end Agrees

theorem RulesAgree.bounded {A B : NodeAlgebra} (φ : NodeAlgebra.Hom A B) (I : Invariant) (n : Nat) :
    RulesAgree φ I (Rules.bounded A n) (Rules.bounded B n) := by
  induction n with
  | zero => exact ⟨.fail _, .fail _, .fail _, fun _ => .fail _⟩
  | succ n ih =>
    exact ⟨Agrees.item ih, Agrees.statement ih, Agrees.assignmentExpression ih, Agrees.pattern ih⟩

end EcmaFront
