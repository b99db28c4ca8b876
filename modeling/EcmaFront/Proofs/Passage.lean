import EcmaFront.Program
import EcmaFront.Proofs.ReadStatement
import EcmaFront.Proofs.Walk

/-!
A relation between states that every step of a reading respects holds between the first state of a
reading and the last. What was found on the way is what occurs in the tree.
-/

set_option autoImplicit false

namespace EcmaFront

open Parse (BinaryScan MemberChain)
open Finding (items)

/-- The rest of a loop is read in its frame, after its head up to `s`, in which `l` occurs. -/
structure Walk.FinishesLoop {α : Type} {x : Collector α} {c : ParseContext}
    {Holds : Int → Enclosure α → Prop} (w : Walk x c Holds) (l : List (Finding α)) (s : ParseState)
    (a : Stmt) (s' : ParseState) : Prop where
  isLoop : a.isFunction = false
  finishes : ∀ {s₀ : ParseState}, w.Leads (s₀.onScopes .pushBlock) l s →
    w.Leads s₀ (x.enclosing.stmt a) s'

/-- How the first and the last state of a reading are related. -/
def Walk.Reads {α : Type} {x : Collector α} {c : ParseContext} {Holds : Int → Enclosure α → Prop}
    (w : Walk x c Holds) : (g : Nonterminal .tree) → ParseState → g.Result → ParseState → Prop
  | .statement, s, a, s' | .statementInside, s, a, s' =>
    w.Leads s (x.enclosing.stmt a) s' ∧ (a.isFunction = true → s.strict = false)
  | .block, s, a, s' => ∃ b, a = .block b ∧ w.Leads s (x.enclosing.block? (some b)) s'
  | .directives _, s, _, s' => w.Leads s [] s'
  | .body _ start, s, as, s' => ∀ {s₀}, start = s₀.checkpoint → w.Turns s₀ s →
    ∃ t, w.Turns s₀ t ∧ w.Leads t (x.enclosing.stmts as) s'
  | .forHead _, s, a, s' | .declaringLoop _ _, s, a, s' | .assigningLoop _, s, a, s'
  | .expressionLoop _, s, a, s' => w.FinishesLoop [] s a s'
  | .countedLoop _ init, s, a, s' =>
    w.FinishesLoop (x.enclosing.init? (init.map ForInit.ofStmt)) s a s'
  | .eachLoop _ left _, s, a, s' => w.FinishesLoop (x.enclosing.loopTarget left.ofStmt) s a s'
  | .attempt accept, s, p, s' => (∀ s j, accept (s.withJournal j) = accept s) →
    w.Leads s (p.elim [] fun p => x.enclosing.assigned (x.enclosing.pat .assignment p)) s'
  | .binaryRest scan, s, e, s' =>
    ∃ l, x.enclosing.expr e = BinaryScan.content x.enclosing scan ++ l ∧ w.Leads s l s'
  | .members _ _ chain, s, chain', s' =>
    ∃ l, x.enclosing.expr chain'.expression = x.enclosing.expr chain.expression ++ l ∧
      w.Leads s l s'
  | .functionNode _ h, s, e, s' => h.Fits false s.strict → w.Leads s (x.enclosing.expr e) s'
  | .functionParts _ h, s, f, s' =>
    ∃ s₁, s' = s₁.leaveTo s ∧ RunsInside w.leads w.turns Holds x c h (s.enter h) f s₁
  | .functionInside _ h _, s, f, s' => RunsInside w.leads w.turns Holds x c h s f s'
  | .parameters _, s, ps, s' | .formals, s, ps, s' =>
    w.Leads s (x.enclosing.parameters ps) s' ∧ s'.Tells ps
  | .formal, s, p, s' => w.Leads s (x.enclosing.parameters [p]) s' ∧ s'.Tells [p]
  | .parameterTarget, s, p, s' => w.Leads s (x.enclosing.pat .parameter p) s' ∧
    (s'.richParameters = false → ∃ span name, p = .binding span name)
  | .pattern form, s, p, s' | .patternInside form, s, p, s' =>
    s.Admits form → w.Leads s (x.enclosing.pat form p) s'
  | .patternElements form, s, parts, s' =>
    s.Admits form → w.Leads s (x.enclosing.patElements form parts.elements ++
      x.enclosing.pat? form parts.rest) s'
  | .patternElement form, s, e, s' =>
    s.Admits form → w.Leads s (x.enclosing.patElements form [some e]) s'
  | .patternProperties form, s, ps, s' =>
    s.Admits form → w.Leads s (x.enclosing.patProperties form ps) s'
  | .patternProperty form, s, p, s' =>
    s.Admits form → w.Leads s (x.enclosing.patProperties form [p]) s'
  | .patternPropertyTarget form _ _, s, found, s' =>
    s.Admits form → w.Leads s (x.enclosing.pat form found.1) s'
  | .catchParameter, s, p, s' =>
    s.Admits .catchParameter → w.Leads s (x.enclosing.pat .catchParameter p) s'
  | .functionBody _ _, s, found, s' => ∃ s₁ s₂ s₃ s₄, w.Leads s [] s₁ ∧ w.Turns s₁ s₂ ∧
    w.Leads s₂ (x.enclosing.functionBody found.1) s₃ ∧
    Parse.finishFunction c s₃ = (.ok found.2, s₄) ∧
    w.Leads s₄ [] s' ∧ (s'.strict = s.strict → s.Moves s')
  | g, s, a, s' => w.Leads s (g.content x.enclosing a) s'

namespace Collector

variable {α : Type} (x : Collector α)

theorem stmt_of_isDirective {s : Stmt} (h : s.isDirective = true) : x.stmt s = [] := by
  unfold Stmt.isDirective at h
  split at h
  · unfold Expr.isString at h
    split at h
    · rfl
    · cases h
  · cases h

theorem stmt_ifElse (span : Span) (e : Expr) (a b : Stmt) :
    x.stmt (.branch span e a (some b)) =
      x.expr e ++ x.lone a ++ x.stmt a ++ (x.lone b ++ x.stmt b) := rfl

theorem stmt_doWhile (span : Span) (a : Stmt) (e : Expr) :
    x.stmt (.doWhile span a e) = x.lone a ++ x.stmt a ++ x.expr e := rfl

theorem stmt_withObject (span : Span) (e : Expr) (a : Stmt) :
    x.stmt (.withObject span e a) = x.leaf .withObject ++ x.expr e ++ x.stmt a := rfl

theorem stmt_switch (span : Span) (e : Expr) (cs : List (SwitchClause Expr Stmt))
    (scope : Environment) :
    x.stmt (.switch span e cs scope) = x.expr e ++ x.block scope (x.clauses cs) := rfl

theorem stmt_labeled (span : Span) (name : String) (a : Stmt) :
    x.stmt (.labeled span name a) = x.lone a ++ x.stmt a := rfl

theorem stmt_attempt (span : Span) (b : Block Stmt)
    (handler : Option (CatchClause (Block Stmt) Pat)) (finalizer : Option (Block Stmt)) :
    x.stmt (.attempt span b handler finalizer) =
      x.block? (some b) ++ x.handler? handler ++ x.block? finalizer := rfl

theorem stmt_function (f : Function) :
    x.stmt (.function f) = x.functionName f.name ++ x.function ⟨f, true⟩ (x.inside f) := rfl

theorem expr_function (f : Function) : x.expr (.function f) = x.function ⟨f, false⟩ (x.inside f) :=
  rfl

theorem expr_literal {t : Token} {make : Span → Expr} (h : t.literal? .tree = some make)
    (span : Span) :
    x.expr (make span) = [] := by
  unfold Token.literal? at h
  split at h
  all_goals cases h
  all_goals rfl

theorem key_token {t : Token} {key : PropertyKey Expr} (h : t.key? = some key) :
    x.key key = [] := by
  unfold Token.key? at h
  split at h
  · cases h
    rfl
  · cases h
    rfl
  · simp only [Option.ite_none_right_eq_some, Option.some.injEq] at h
    obtain ⟨-, rfl⟩ := h
    rfl

end Collector

namespace Walk

open Parse

variable {α : Type} {x : Collector α} {c : ParseContext} {Holds : Int → Enclosure α → Prop}
  {w : Walk x c Holds} {s s₀ s₁ s₂ s₃ s₄ s' : ParseState} {l l' : List (Finding α)}

theorem lone {a : Stmt} (h : a.isFunction = true → s.strict = false) :
    w.Leads s (x.enclosing.lone a) s := by
  unfold Collector.lone
  split
  · next hf => exact leaf (w.loneFunction (h hf)) rfl rfl rfl rfl
  · exact refl s

theorem body_statement {a : Stmt} (h : w.Reads .statement s a s') :
    w.Leads s (x.enclosing.lone a ++ x.enclosing.stmt a) s' :=
  append (lone h.2) h.1

theorem deleted {op : UnaryOp} {e : Expr}
    (h : (op == .delete && s.strict && e.name?.isSome) = false) :
    w.Leads s (x.enclosing.deleted op e) s := by
  unfold Collector.deleted Collector.named
  split
  · next ho =>
    cases hn : e.name? with
    | some name => exact leaf (w.delete name (by simpa [ho, hn] using h)) rfl rfl rfl rfl
    | none => exact refl s
  · exact refl s

theorem allowing {allowed outer : Bool} (h : w.Leads (s.allow allowed) l s') :
    w.Leads s l (s'.allow outer) :=
  nil_append (allow s allowed) (append_nil h (allow s' outer))

theorem within (h : w.Leads s.deeper l s') : w.Leads s l s'.shallower :=
  nil_append (deeper s) (append_nil h (shallower s'))

theorem arrow {h : FunctionHeader}
    (ha : (if h.form == .arrow then Parse.consumeArrow else pure ()) c s = (.ok (), s')) :
    w.Leads s [] s' := by
  split at ha
  · exact consumeArrow ha
  · obtain ⟨-, rfl⟩ := pure_ok.1 ha
    exact refl _

theorem fits_accessor (name : Option String) (kind : PropertyKind) (strict : Bool) :
    FunctionHeader.Fits { name, mode := accessorMode kind } false strict :=
  ⟨by cases kind <;> rfl, nofun⟩

theorem fits_declaration {name : String} {conflicts : Conflicts}
    (h : declaring (·.declare name (functionNameKind s)) c s = (.ok conflicts, s'))
    (hn : functionNameFault? name conflicts s.strict = none) :
    FunctionHeader.Fits { name := some name, mode := .plainFunction } true s'.strict := by
  simp only [declaring, ask_run, Prod.mk.injEq, Except.ok.injEq] at h
  obtain ⟨rfl, rfl⟩ := h
  refine ⟨rfl, fun _ hs => ?_⟩
  have hs' : s.strict = true := (Scopes.strict_congr (Scopes.outline_declare name _)).symm.trans hs
  rw [hs'] at hn
  exact unrestricted_of_functionNameFault? hn

theorem plain_of_turned {turns : ParseState → ParseState → Prop} (ht : Turning turns s s')
    (hs : s'.strict ≠ s.strict) {ps : List (Parameter Expr Pat)} (hp : s.Tells ps)
    (hf : s.scopes.function?.any (·.isFunction) = true) (x : Collector α) :
    ∃ names : List String, items (x.enclosing.parameters ps) =
    names.flatMap (x.leaf <| .binding .parameter ·) := by
  obtain ho | ⟨-, hr⟩ := ht.outline
  · exact absurd (Scopes.strict_congr ho) hs
  · obtain ⟨names, hn⟩ := x.enclosing.parameters_plain (hp (hr hf))
    exact ⟨names, by simp only [hn, Finding.items_flatMap, Collector.items_leaf]⟩

/-! Rules of the grammar with several parts: what the parts lead to is put together in the order of
the text. -/

section Rules

variable {e : Expr} {a b : Stmt} {p : Pat} {span : Span}

theorem ifElseStatement (ht : w.Reads .condition s.next e s₁) (ha : w.Reads .statement s₁ a s₂)
    (hb : w.Reads .statement s₂.next b s') :
    w.Reads .statementInside s (.branch span e a (some b)) s' := by
  refine ⟨?_, nofun⟩
  simp only [Collector.stmt_ifElse, List.append_assoc]
  exact after_next (append ht (append (lone ha.2) (append ha.1 (after_next (body_statement hb)))))

theorem doWhileStatement (hb : w.Reads .loopBody s.next a s₁)
    (ht : w.Reads .condition s₁.next e s₂) :
    w.Reads .statementInside s (.doWhile span a e)
      (if s₂.kind = .semicolon then s₂.next else s₂) := by
  refine ⟨?_, nofun⟩
  rw [Collector.stmt_doWhile]
  refine after_next (append hb (after_next (append_nil ht ?_)))
  split
  · exact next _
  · exact refl _

theorem withStatement (hs : s.strict = false) (ho : w.Reads .condition s.next e s₁)
    (ha : w.Reads .statement (s₁.onScopes .activate) a s') :
    w.Reads .statementInside s (.withObject span e a) s' := by
  refine ⟨?_, nofun⟩
  rw [Collector.stmt_withObject]
  have hw : w.Leads s _ s := leaf (w.withObject hs) rfl rfl rfl rfl
  exact append (append hw (after_next ho)) (nil_append (touched .activate _) ha.1)

theorem switchStatement {cs : List (SwitchClause Expr Stmt)} {scope : Environment}
    (hd : w.Reads .condition s.next e s₁)
    (hc : w.Reads (.clauses false) (s₁.next.onScopes (·.pushBlock.beginSwitch)) cs s₂)
    (hf : finishBlock c (s₂.onScopes .endSwitch).next = (.ok scope, s')) :
    w.Reads .statementInside s (.switch span e cs scope) s' := by
  refine ⟨?_, nofun⟩
  rw [Collector.stmt_switch]
  refine after_next (append hd (after_next (inBlock ?_ hf)))
  exact nil_append (beginSwitch _) (then_next (append_nil hc (endSwitch _)))

theorem block_toBlock (h : w.Reads .block s a s') :
    w.Leads s (x.enclosing.block? (some a.toBlock)) s' := by
  obtain ⟨b, rfl, hl⟩ := h
  exact hl

theorem tryStatement {handler : Option (CatchClause Stmt Pat)} {finalizer : Option Stmt}
    (hg : w.Reads .block s.next a s₁)
    (hh : w.Leads s₁ (x.enclosing.handler? (handler.map CatchClause.ofStmt)) s₂)
    (hf : w.Leads s₂ (x.enclosing.block? (finalizer.map Stmt.toBlock)) s') :
    w.Reads .statementInside s (NodeAlgebra.tree.attempt span a handler finalizer) s' := by
  refine ⟨?_, nofun⟩
  show w.Leads s (x.enclosing.stmt (.attempt span a.toBlock _ _)) s'
  rw [Collector.stmt_attempt]
  exact after_next (append (append (block_toBlock hg) hh) hf)

theorem labeledStatement {isLoop : Bool} (hk : s.kind = .identifier)
    (hc : Parse.colonFollows c s = (.ok true, s₁))
    (hl : labelsLoop c s₁.next.next = (.ok isLoop, s₂))
    (ha : w.Reads .statement (s₂.onScopes (·.pushLabel s₁.token.text isLoop)) a s') :
    w.Reads .statementInside s (.labeled span s₁.token.text a) (s'.onScopes .popLabel) := by
  refine ⟨?_, nofun⟩
  rw [Collector.stmt_labeled]
  refine nil_append (colonFollows hk hc) (after_next (after_next ?_))
  refine nil_append (glanced (labelsLoop_glances hl)) ?_
  exact nil_append (pushLabel _ _ _) (append_nil (body_statement ha) (popLabel _))

theorem functionDeclaration {f : Function} {name : String} {start : Position}
    {conflicts : Conflicts}
    (hd : declaring (·.declare name (functionNameKind s.next)) c s.next = (.ok conflicts, s₁))
    (hn : functionNameFault? name conflicts s.next.strict = none)
    (hf : w.Reads (.functionParts start { name := some name, mode := .plainFunction }) s₁.next f s₂)
    (hr : recordFunction f c s₂ = (.ok (), s')) :
    w.Reads .functionDeclaration s (.function f) s' := by
  obtain ⟨s₃, rfl, hf⟩ := hf
  have hh : FunctionHeader.Fits { name := some name, mode := .plainFunction } true s₁.strict :=
    fits_declaration hd hn
  show w.Leads s (x.enclosing.stmt (.function f)) s'
  rw [Collector.stmt_function, hf.name, Collector.functionName]
  exact after_next (append (declaresFunction hd hn) (after_next (throughFunction hh hf hr)))

theorem directive (hi : a.isDirective = true) (h : w.Reads .item s a s') : w.Leads s [] s' := by
  replace h : w.Leads s (x.enclosing.stmt a) s' := h
  rwa [Collector.stmt_of_isDirective _ hi] at h

theorem restartedBody {close : TokenKind} {start : Checkpoint} {before : List Stmt} {as : List Stmt}
    (hd : w.Reads (.directives close) s before s₁) (ha : w.Leads s₁ [] s₂) (hn : s₂.strict = false)
    (he : enableStrict s₁.token.extent c s₂ = (.ok (), s₃))
    (hb : w.Reads (.body close start) (s₃.restart s₁.token.extent.start start) as s') :
    w.Reads (.body close start) s as s' := by
  rintro s₀ rfl ht
  exact hb rfl (turned ht (append hd ha) hn he)

theorem binaryEnd (scan : BinaryScan Expr) :
    w.Reads (.binaryRest scan) s (reduce 0 scan.waiting scan.operand).2.expression s := by
  refine ⟨[], ?_, refl _⟩
  rw [← content_reduce _ 0, BinaryScan.content, reduce_zero, List.append_nil]
  rfl

theorem binaryMore {scan : BinaryScan Expr} {op : BinaryOp} {waiting : List (Waiting Expr)}
    {left operand : Placed Expr} {precedence : Nat}
    (hr : reduce (B := .tree) precedence scan.waiting scan.operand = (waiting, left))
    (ho : w.Reads .operand s.next operand s₁)
    (ht : w.Reads (.binaryRest ⟨⟨left, op, precedence⟩ :: waiting, operand⟩) s₁ e s') :
    w.Reads (.binaryRest scan) s e s' := by
  obtain ⟨l, he, hl⟩ := ht
  refine ⟨_ ++ l, ?_, after_next (append ho hl)⟩
  rw [he, ← content_reduce _ _ scan.waiting scan.operand, hr]
  simp [BinaryScan.content, Nonterminal.content]

theorem chain {start callee : Position} {news : List Position} {chain' : MemberChain Expr}
    (he : w.Leads s (x.enclosing.expr e) s₁)
    (hm : w.Reads (.members start callee ⟨e, news⟩) s₁ chain' s') (stop : Position) :
    w.Leads s (x.enclosing.expr
      (chain'.news.foldl (fun e new => .construct ⟨new, stop⟩ e none) chain'.expression)) s' := by
  obtain ⟨l, hc, hl⟩ := hm
  rw [Collector.expr_news, hc]
  exact append he hl

theorem functionInside {P : Prop} {header : FunctionHeader} {outerIn : Bool} {start : Position}
    {f : Function} (hname : f.name = header.name) (hmode : f.mode = header.mode)
    (hp : w.Reads (.parameters header) s f.parameters s₁)
    (hc : Parse.checkParameters header f.parameters c s₁ = (.ok (), s₂))
    (ha : (if header.form == .arrow then Parse.consumeArrow else pure ()) c s₂ = (.ok (), s₃))
    (hr : Reading .tree P c (.functionBody header outerIn) s₃ (f.body, f.scope) s')
    (hb : w.Reads (.functionBody header outerIn) s₃ (f.body, f.scope) s') :
    w.Reads (.functionInside start header outerIn) s f s' := by
  obtain ⟨t₁, t₂, t₃, t₄, h₁, ht, h₂, hf, h₃, hm⟩ := hb
  have hc : w.Leads s₁ [] s₃ := nil_append (checkParameters hc) (arrow ha)
  have hn : w.Leads s₁ [] t₁ := nil_append hc h₁
  have hs : w.Leads s _ s₃ := append_nil hp.1 hc
  have hparts := append_nil hp.1 hn
  have htells (h : t₁.richParameters = false) := hp.2 (hn.rich h)
  refine ⟨hname, hmode, ⟨t₁, t₂, t₃, t₄, hparts, htells, ht, h₂, hf, h₃⟩, fun h => ?_, _, _,
    _, hs.outline, hr⟩
  exact hs.moves.trans (hm (h.trans (Scopes.strict_congr hs.outline).symm))

theorem plainParameter {isRest : Bool} (h : w.Leads s (x.enclosing.pat .parameter p) s') :
    w.Leads s (x.enclosing.parameters [⟨span, p, none, isRest⟩]) s' := by
  simpa only [Collector.parameters, Collector.expr?, List.append_nil] using h

theorem soleParameter {header : FunctionHeader}
    (h : Parse.bindingName .tree .parameter c s = (.ok p, s')) :
    w.Reads (.parameters header) s [⟨span, p, none, false⟩] s' := by
  obtain ⟨_, _, rfl⟩ := binding_of_bindingName (by decide) h
  refine ⟨plainParameter (after_next (bindingName BindingForm.noConfusion h)), fun _ => ?_⟩
  exact List.forall_mem_singleton.2 ⟨_, _, _⟩

theorem formal (h : w.Reads .parameterTarget s p s') :
    w.Reads .formal s ⟨span, p, none, false⟩ s' := by
  refine ⟨plainParameter h.1, fun hr => ?_⟩
  obtain ⟨_, _, rfl⟩ := h.2 hr
  exact List.forall_mem_singleton.2 ⟨_, _, _⟩

theorem moreFormals {q : Parameter Expr Pat} {ps : List (Parameter Expr Pat)}
    (h : w.Reads .formal s q s₁) (hs : w.Reads .formals s₁.next ps s') :
    w.Reads .formals s (q :: ps) s' := by
  refine ⟨?_, fun hr => List.forall_mem_cons.2 ⟨?_, hs.2 hr⟩⟩
  · rw [Collector.parameters_cons]
    exact append h.1 (after_next hs.1)
  · exact h.2 (hs.1.rich hr) _ (List.mem_singleton_self _)

theorem morePatternElements {form : BindingForm} {q : PatternElement Expr Pat}
    {parts : ArrayParts .tree} (h : w.Reads (.patternElement form) s q s₁)
    (hs : w.Reads (.patternElements form) s₁.next parts s') :
    w.Reads (.patternElements form) s (.cons (some q) parts) s' := by
  intro ha
  simp only [ArrayParts.cons]
  rw [Collector.patElements_cons, List.append_assoc]
  exact append (h ha) (after_next (hs (admits (h ha) ha)))

end Rules

/-- By induction on the reading, one case for each rule of the grammar: what its parts lead to is
put together in the order of the text. -/
theorem reads {P : Prop} {g : Nonterminal .tree} {a : g.Result} (h : Reading .tree P c g s a s') :
    w.Reads g s a s' := by
  induction h with
  | itemFunction _ _ ih | itemConst _ _ ih | lastDeclarator _ _ ih | emptyHead _ _ ih
  | someExpressionBefore _ _ ih | catchPattern _ _ _ ih | noAssignment _ _ ih
  | noConditional _ _ ih | operand _ ih | noUnary _ _ ih | noPostfix _ _ ih | primaryHead _ _ ih
  | single _ _ ih | noSpread _ _ ih | lastFormal _ _ _ _ ih | lastPatternProperty _ _ _ ih =>
    exact ih
  | itemLet _ hl _ ih => exact nil_append (glanced (atLetDeclaration_glances hl)) ih
  | itemLetName _ hl _ ih => exact nil_append (glanced (atLetDeclaration_glances hl)) ih.1
  | itemStatement _ _ ih => exact ih.1
  | statement _ _ ih => exact ⟨within ih.1, ih.2⟩
  | blockStatement _ _ ih =>
    obtain ⟨b, rfl, hb⟩ := ih
    exact ⟨by simpa only [Collector.stmt, Collector.block?] using hb, nofun⟩
  | varStatement hk h ih => exact ⟨ih, by cases h; nofun⟩
  | emptyStatement => exact ⟨next _, nofun⟩
  | ifStatement _ _ _ _ iht ihc =>
    refine ⟨?_, nofun⟩
    simp only [Collector.stmt, Collector.alternate?, List.append_nil, List.append_assoc]
    exact after_next (append iht (body_statement ihc))
  | ifElseStatement _ _ _ _ _ iht ihc iha => exact ifElseStatement iht ihc iha
  | forStatement _ _ _ ih =>
    exact ⟨after_next (after_next (ih.finishes (refl _))), by simp [ih.isLoop]⟩
  | whileStatement _ _ _ iht ihb =>
    refine ⟨?_, nofun⟩
    simp only [Collector.stmt, List.append_assoc]
    exact after_next (append iht ihb)
  | doWhileStatement _ _ _ _ he ihb iht => exact he ▸ doWhileStatement ihb iht
  | continueStatement _ h | breakStatement _ h =>
    obtain ⟨hw, _, _, rfl⟩ := jump h
    exact ⟨after_next hw, nofun⟩
  | returnStatement _ _ _ he | debuggerStatement _ he => exact ⟨after_next (ends he), nofun⟩
  | returnValueStatement _ _ _ _ he ih | throwStatement _ _ _ he ih =>
    exact ⟨after_next (append_nil ih (ends he)), nofun⟩
  | withStatement _ hs _ _ iho ihb => exact withStatement hs iho ihb
  | switchStatement _ _ _ _ _ hf ihd ihc => exact switchStatement ihd ihc hf
  | tryCatch _ _ _ _ _ ihg ihh => exact tryStatement ihg ihh (refl _)
  | tryFinally _ _ _ _ _ ihg ihb => exact tryStatement ihg (refl _) (after_next (block_toBlock ihb))
  | tryCatchFinally _ _ _ _ _ _ ihg ihh ihb =>
    exact tryStatement ihg ihh (after_next (block_toBlock ihb))
  | functionStatement _ hs _ ih => exact ⟨ih, fun _ => hs⟩
  | letExpressionStatement _ hl _ he ih =>
    exact ⟨nil_append (glanced (atLetDeclaration_glances hl)) (append_nil ih (ends he)), nofun⟩
  | labeledStatement hk hc _ _ hl _ ih => exact labeledStatement hk hc hl ih
  | nameStatement hk hc _ he ih =>
    exact ⟨nil_append (colonFollows hk hc) (append_nil ih (ends he)), nofun⟩
  | expressionStatement _ _ he ih => exact ⟨append_nil ih (ends he), nofun⟩
  | functionDeclaration _ hd hn _ hr ih => exact functionDeclaration hd hn ih hr
  | variableStatement _ he ih => exact after_next (append_nil ih (ends he))
  | moreDeclarators _ _ _ ih ihs =>
    simp only [Reads, Nonterminal.content, DeclarationList.cons]
    rw [Collector.declarators_cons]
    exact append ih (after_next ihs)
  | initializedDeclarator _ hn _ hw _ iht ihi =>
    simp only [Reads, Nonterminal.content, Collector.declarators, Collector.expr?, List.append_nil]
    exact append iht (nil_append (takeBoundNames hn) (after_next (nil_append (writeNames hw) ihi)))
  | bareDeclarator _ hn _ _ iht =>
    simp only [Reads, Nonterminal.content, Collector.declarators, Collector.expr?, List.append_nil]
    exact append_nil iht (takeBoundNames hn)
  | declaratorPattern _ _ ih => exact ih BindingForm.noConfusion
  | declaratorName _ h => exact after_next (bindingName BindingForm.noConfusion h)
  | block _ _ _ hf ih => exact ⟨_, rfl, after_next (inBlock (then_next ih) hf)⟩
  | noItems | noDirectives | bodyEnd | noExpressionBefore | noClauses | noNews
  | noMoreExpressions | noArguments | noElements | noProperties | noPatternDefault => exact refl _
  | moreItems _ _ _ _ ih ihs | sequence _ _ _ ih ihs => exact append ih ihs
  | body _ ih => exact fun _ ht => ⟨_, ht, ih⟩
  | restartedBody _ _ _ _ hi _ hn he _ ihd ih ihb =>
    exact restartedBody ihd (directive hi ih) hn he ihb
  | moreDirectives _ _ _ hi _ _ ih iht =>
    simp only [Reads, Nonterminal.content, Collector.stmt_of_isDirective _ hi] at ih
    exact append ih iht
  | directiveItem _ _ _ _ _ _ ih iht | bodyItem _ _ _ _ _ ih iht => exact append ih iht
  | condition _ _ _ ih | computedKey _ _ _ ih => exact after_next (then_next ih)
  | loopBody _ ih => exact nil_append (beginLoop _) (append_nil (body_statement ih) (endLoop _))
  | declaringHead _ hh _ ih | assigningHead _ hh _ ih =>
    exact ⟨ih.isLoop, fun h₀ => ih.finishes (append_nil h₀ (glanced (headKind?_glances hh)))⟩
  | declaringEach _ _ _ _ ihd ih | declaringCounted _ _ _ _ ihd ih =>
    exact ⟨ih.isLoop, fun h₀ => ih.finishes (nil_append h₀ (after_next (allowing ihd)))⟩
  | patternEach _ _ _ iht ih | noPatternLoop _ _ iht ih =>
    exact ⟨ih.isLoop, fun h₀ => ih.finishes (nil_append h₀ (iht fun _ _ => rfl))⟩
  | expressionEach _ _ _ hw _ ihl ih =>
    exact ⟨ih.isLoop, fun h₀ =>
      ih.finishes (nil_append h₀ (append (allowing ihl) (noteAssignment hw)))⟩
  | expressionCounted _ _ _ ihl ih =>
    exact ⟨ih.isLoop, fun h₀ => ih.finishes (nil_append h₀ (allowing ihl))⟩
  | countedLoop _ _ _ _ _ _ hf iht ihu ihb =>
    refine ⟨rfl, fun h₀ => ?_⟩
    simp only [Collector.stmt, List.append_assoc]
    exact inBlock (append h₀ (after_next (append iht (after_next (append ihu (after_next ihb))))))
      hf
  | forOf _ _ _ hf ihr ihb | forIn _ _ _ hf ihr ihb =>
    refine ⟨rfl, fun h₀ => ?_⟩
    simp only [Collector.stmt, List.append_assoc]
    exact inBlock (append h₀ (after_next (append ihr (after_next ihb)))) hf
  | moreClauses _ _ _ _ _ iht ihb ih => exact append (append iht (after_next ihb)) ih
  | caseClause _ _ ih | moreNews _ _ _ ih | spread _ _ ih | hole _ _ ih | spreadProperty _ _ ih
  | value _ _ _ ih => exact after_next ih
  | defaultClause => exact next _
  | catchClause _ _ _ _ _ _ hf ihp ih =>
    exact after_next (after_next
      (inBlock (append (ihp fun _ => rfl) (after_next (after_next (then_next ih)))) hf))
  | catchName _ h | patternName _ _ h => exact fun ha => after_next (bindingName ha h)
  | assignment _ _ ih => exact within ih
  | arrowFunction ha _ ih =>
    exact nil_append (glanced (atArrowFunction_glances ha)) (ih ⟨rfl, Bool.noConfusion⟩)
  | patternAssignment ha _ _ iht ihv =>
    refine nil_append (glanced (atArrowFunction_glances ha)) ?_
    simp only [Nonterminal.content, Collector.expr]
    exact append (iht fun _ _ => rfl) (after_next ihv)
  | noPatternAssignment ha _ _ iht ih =>
    exact nil_append (glanced (atArrowFunction_glances ha)) (nil_append (iht fun _ _ => rfl) ih)
  | targetAssignment _ _ _ hw _ ih ihv =>
    simp only [Reads, Nonterminal.content, Collector.expr]
    exact append (append ih (noteAssignment hw)) (after_next ihv)
  | noBracket | noPatternElements | noPatternProperties => exact fun _ => refl _
  | noAttempt _ hf => exact fun ha => glanced (followsBrackets_glances ha hf)
  | attempt _ hf _ ha hw ih =>
    exact fun ha => nil_append (glanced (followsBrackets_glances ha hf))
      (commit_pattern (ih BindingForm.noConfusion) hw)
  | givenUp hg _ hf h ha =>
    refine fun ha => nil_append (glanced (followsBrackets_glances ha hf)) ?_
    obtain ⟨hg, hp, he⟩ := grown_of_giveUp h
    exact nothing (w.giveUp hg hp he) (Scopes.outline_grown hg) rfl (Int.le_of_lt he)
      (.backtrack (view_of_attempt h))
  | conditional _ _ _ _ _ iht ihc iha =>
    simp only [Reads, Nonterminal.content, Collector.expr]
    exact append (append iht (after_next (allowing ihc))) (after_next iha)
  | binary _ _ ih ihr =>
    obtain ⟨l, he, hl⟩ := ihr
    simp only [Reads, Nonterminal.content, he]
    exact append ih hl
  | binaryEnd => exact binaryEnd _
  | binaryMore _ hr _ _ ih iht => exact binaryMore hr ih iht
  | prefixUpdate _ _ _ _ hw ih =>
    simp only [Reads, Nonterminal.content, Collector.expr]
    exact after_next (append ih (noteAssignment hw))
  | prefixUnary _ _ _ _ hd ih =>
    simp only [Reads, Nonterminal.content, Collector.expr]
    exact after_next (append ih (deleted hd))
  | postfixUpdate _ _ _ _ hw ih =>
    simp only [Reads, Nonterminal.content, Collector.expr]
    exact then_next (append ih (noteAssignment hw))
  | leftHandSide _ _ _ ihn ih ihm => exact chain (nil_append ihn ih) ihm _
  | newTargetSide _ _ ihn ihm => exact chain ihn ihm _
  | newTarget _ _ h => exact after_next (after_next (newTarget h))
  | superHead _ h => exact after_next (superExpression h)
  | membersEnd => exact ⟨[], by simp, refl _⟩
  | member _ _ _ ih =>
    obtain ⟨l, he, hl⟩ := ih
    exact ⟨l, by simpa only [Collector.expr] using he, after_next (after_next hl)⟩
  | index _ _ he _ ihx ih =>
    obtain ⟨l, he, hl⟩ := ih
    refine ⟨_ ++ l, ?_, after_next (append (then_next (allowing ihx)) hl)⟩
    simpa only [Collector.expr, Nonterminal.content, List.append_assoc] using he
  | construct _ _ _ ihx ih | call _ _ _ ihx ih =>
    obtain ⟨l, he, hl⟩ := ih
    refine ⟨_ ++ l, ?_, append ihx hl⟩
    simpa only [Collector.expr, Nonterminal.content, List.append_assoc] using he
  | functionExpression _ _ _ ih => exact after_next (ih ⟨rfl, Bool.noConfusion⟩)
  | namedFunctionExpression _ _ _ ih => exact after_next (after_next (ih ⟨rfl, Bool.noConfusion⟩))
  | group _ _ _ ih | array _ _ _ ih | object _ _ _ ih | arguments _ _ _ ih
  | computedPatternKey _ _ _ ih => exact after_next (then_next (allowing ih))
  | literal hk =>
    simp only [Reads, Nonterminal.content, Collector.expr_literal _ hk]
    exact next _
  | reference =>
    exact after_next (leaf (w.reference _ _) (Scopes.outline_modifyTop fun _ => rfl) rfl rfl rfl)
  | regexp hk => exact readRegexp hk
  | moreExpressions _ _ _ ih ihs => exact after_next (append ih ihs)
  | lastArgument _ _ _ ih | lastElement _ _ _ _ ih | lastProperty _ _ _ ih =>
    exact append ih (refl _)
  | moreArguments _ _ _ _ ih ihs | moreElements _ _ _ _ _ ih ihs | moreProperties _ _ _ _ ih ihs =>
    exact append ih (after_next ihs)
  | accessor _ ha _ _ _ ihx ih =>
    refine nil_append (glanced (accessor?_glances ha)) ?_
    exact nil_append (noteAccessor _ _) (after_next (append ihx (ih (fits_accessor _ _ _))))
  | dataProperty _ ha _ _ _ ihx ih =>
    exact nil_append (glanced (accessor?_glances ha)) (append ihx ih)
  | method _ _ ih => exact ih ⟨rfl, Bool.noConfusion⟩
  | shorthand => exact leaf (w.reference _ _) (Scopes.outline_modifyTop fun _ => rfl) rfl rfl rfl
  | plainKey hk | plainPatternKey hk =>
    simp only [Reads, Nonterminal.content, Collector.key_token _ hk]
    exact next _
  | functionNode _ hr ih =>
    intro hh
    obtain ⟨s₁, rfl, hf⟩ := ih
    simp only [Collector.expr_function]
    exact throughFunction hh hf hr
  | functionParts _ ih => exact ⟨_, rfl, ih⟩
  | functionInside _ hc ha hb ihp ihb => exact functionInside rfl rfl ihp hc ha hb ihb
  | soleParameter _ _ h => exact soleParameter h
  | parameters _ _ _ _ ih => exact ⟨after_next (then_next ih.1), ih.2⟩
  | noFormals => exact ⟨refl _, fun _ => List.forall_mem_nil _⟩
  | restFormal _ _ _ ih =>
    refine ⟨?_, fun hr => absurd (ih.1.rich hr) Bool.noConfusion⟩
    simp only [Collector.parameters, Collector.expr?, List.append_nil]
    exact after_next (nil_append (noteRich _) ih.1)
  | moreFormals _ _ _ _ _ ih ihs => exact moreFormals ih ihs
  | formal _ _ ih => exact formal ih
  | defaultFormal _ _ _ ih ihd =>
    refine ⟨?_, fun hr => absurd (ihd.rich hr) Bool.noConfusion⟩
    simp only [Collector.parameters, Collector.expr?, List.append_nil]
    exact append ih.1 (after_next (nil_append (noteRich _) ihd))
  | parameterName _ h =>
    exact ⟨after_next (bindingName BindingForm.noConfusion h),
      fun _ => binding_of_bindingName (by decide) h⟩
  | parameterPattern _ _ _ ih =>
    have hl := ih BindingForm.noConfusion
    exact ⟨nil_append (noteRich _) hl, fun hr => absurd (hl.rich hr) Bool.noConfusion⟩
  | blockBody _ _ hf ih =>
    obtain ⟨t, ht, hl⟩ := ih rfl (stay _)
    refine ⟨_, t, _, _, next _, ht, hl, hf, next _,
      fun _ => .trans (.next _) (ht.moves.trans (hl.moves.trans ?_))⟩
    exact ParseState.Moves.leave (onlyScopes_finishFunction hf).spot
  | expressionBody _ _ _ hf ih =>
    exact ⟨_, _, _, _, refl _, stay _, allowing ih, hf, refl _, leaves (allowing ih) hf⟩
  | pattern _ _ ih => exact fun ha => within (ih ha)
  | arrayPattern _ _ _ ih | objectPattern _ _ _ ih => exact fun ha => after_next (then_next (ih ha))
  | patternTarget _ _ _ ih =>
    intro
    simp only [Collector.pat]
    exact append ih (awaitWrite _ _ _)
  | patternHole _ _ ih | patternRest _ _ _ ih | propertyTarget _ _ ih =>
    exact fun ha => after_next (ih ha)
  | lastPatternElement _ _ _ ih => exact fun ha => append (ih ha) (refl _)
  | morePatternElements _ _ _ _ ih ihs => exact morePatternElements ih ihs
  | patternElement _ _ ih ihd =>
    intro ha
    simp only [Collector.patElements, List.append_nil]
    exact append (ih ha) ihd
  | patternDefault _ _ ih => exact after_next (allowing ih)
  | morePatternProperties _ _ _ _ ih ihs =>
    intro ha
    rw [Collector.patProperties_cons]
    exact append (ih ha) (after_next (ihs (admits (ih ha) ha)))
  | patternProperty _ _ _ ihx iht ihd =>
    intro ha
    simp only [Collector.patProperties, List.append_nil]
    exact append (append ihx (iht (admits ihx ha))) ihd
  | shorthandTarget _ h => exact fun ha => bindName ha h

end Walk

/-- At the first token of a program, in the frame of the program. -/
def ParseState.entered (source : Source) (options : ParseOptions) : ParseState :=
  ((ParseState.initial source).onScopes
    (·.push (Frame.program options.mode options.startsStrict options.constructorKind))).next

theorem ParseState.settled_entered (source : Source) (options : ParseOptions) :
    (entered source options).sight.Settled :=
  settled_lex _

namespace Parse

variable {source : Source} {options : ParseOptions} {recording : Bool} {s' : ParseState}

theorem runProgram_read {B : NodeAlgebra} {p : B.Program}
    (h : runProgram B source options recording = (.ok p, s')) :
    ∃ span body scope s, Reading B True ⟨source, roundsFor source.size, recording⟩
        (.body .eof (ParseState.entered source options).checkpoint)
          (.entered source options) body s ∧
      finishFunction ⟨source, roundsFor source.size, recording⟩ s = (.ok scope, s') ∧
      p = B.program span options.mode body scope := by
  simp only [runProgram, Parse.run, Parse.program, Parse.finishProgram, modifyScopes_bind,
    next_bind, state_bind, bind_ok, spanFrom_run, Prod.mk.injEq, Except.ok.injEq, bind_assoc_run,
    ite_ok, fail_ok, and_false, false_or, pure_ok] at h
  obtain ⟨body, s, hb, _, _, ⟨rfl, rfl⟩, scope, _, ⟨-, hf⟩, rfl, rfl⟩ := h
  exact ⟨_, body, scope, s, body_read (bounded_reads B _ _) hb, hf, rfl⟩

end Parse

/-- What a walk shows of functions holds of all functions in a program that is accepted, and of the
program itself if the walk shows it of programs. -/
theorem Walk.forall_enclosures {α : Type} {x : Collector α} {source : Source}
    {options : ParseOptions}
    {recording : Bool} {Holds : Int → Enclosure α → Prop}
    (w : Walk x ⟨source, roundsFor source.size, recording⟩ Holds)
    (hw : ∀ {s₁ s₂ s₃ l scope}, w.Turns (.entered source options) s₁ → w.Leads s₁ l s₂ →
      Parse.finishFunction ⟨source, roundsFor source.size, recording⟩ s₂ = (.ok scope, s₃) →
      Holds s₃.givenUp ⟨none, scope, items l⟩)
    {p : Program} {s' : ParseState} (h : runProgram .tree source options recording = (.ok p, s')) :
    ∀ e ∈ p.enclosures x, Holds s'.givenUp e := by
  obtain ⟨span, body, scope, s, hr, hf, rfl⟩ := Parse.runProgram_read h
  obtain ⟨t, ht, hl⟩ := w.reads hr rfl (stay _)
  intro e he
  rcases List.mem_append.1 he with he | he
  · exact w.keeps (ParseState.givenUp_le (Parse.onlyScopes_finishFunction hf).events)
      (hl.holds e he)
  · rw [List.mem_singleton.1 he]
    exact hw ht hl hf

end EcmaFront
