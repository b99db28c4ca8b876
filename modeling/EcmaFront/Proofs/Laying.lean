import EcmaFront.Proofs.PhraseStep
import EcmaFront.Proofs.StrictFlags

/-!
How what the grammar reads lies in the text. Each phrase is a stretch of it, and its nodes lie there
one inside the other.
-/

set_option autoImplicit false

namespace EcmaFront

open ParseState (Lays Fills Shares Waits Chains Scans)
open Parse (atLetDeclaration_glances atArrowFunction_glances labelsLoop_glances accessor?_glances
  headKind?_glances followsBrackets_glances)

namespace ParseState

variable {solid : Bool} {depth : Nat} {c : ParseContext} {s s₀ s₁ s' : ParseState}
  {ns ms : List Node} {a : Stmt} {e : Expr} {kind : TokenKind}

theorem isFlat_of_headKind? {found : VariableKind}
    (h : Parse.headKind? c s = (.ok (some found), s')) :
    s.kind.isFlat = true := by
  rw [Parse.headKind?, Parse.state_bind] at h
  replace h : Parse.Yields _ c s _ := h
  split at h
  case h_4 => simp [Parse.Yields] at h
  all_goals next hk => rw [hk]; rfl

theorem isFlat_of_accessor? {found : PropertyKind}
    (h : Parse.accessor? c s = (.ok (some found), s')) :
    s.kind.isFlat = true := by
  rw [Parse.accessor?, Parse.state_bind] at h
  by_cases hg : s.atWord "get" = true
  · exact isFlat_of_atWord hg
  by_cases hs : s.atWord "set" = true
  · exact isFlat_of_atWord hs
  simp [hg, hs] at h

theorem kind_again (ha : s.sight.Again s₁.sight) (hr : s.sight.Ready) (hf : s.kind.isFlat = true) :
    s₁.kind = s.kind := by
  refine congrArg Token.kind (ha.token hr.settled fun he => ?_).1
  replace he : s.kind = .eof := he
  rw [he] at hf
  cases hf

theorem Lays.congr (hs : s₁.sight = s.sight) (h : s₁.Lays solid depth ns s') :
    s.Lays solid depth ns s' :=
  .again (hs ▸ .refl) h

theorem Lays.again_of_flat (ha : s.sight.Again s₁.sight) (hf : s.kind.isFlat = true)
    (h : s₁.kind = s.kind → s₁.Lays solid depth ns s') : s.Lays solid depth ns s' := fun hr =>
  Lays.again ha (h (kind_again ha hr hf)) hr

theorem Fills.again_of_flat (ha : s.sight.Again s₁.sight) (hk : s.kind = kind)
    (h : s₁.kind = kind → s₁.Fills a s') (hf : kind.isFlat = true := by rfl) :
    s.Fills a s' := fun hr =>
  Fills.again ha (h ((kind_again ha hr (hk ▸ hf)).trans hk)) hr

theorem Lays.target (h : s.Lays solid depth [.expression e] s') :
    s.Lays solid depth [.pattern (.target e)] s' :=
  fun hr => by
    obtain ⟨ts, h⟩ := h hr
    obtain ⟨hb, he⟩ := h.within _ (List.mem_singleton_self _)
    have hn := (h.laid _ (List.mem_singleton_self _) _ (.refl _)).nonempty
    replace h : s.sight.Stretch solid depth ts
        ([] ++ (Node.pattern (.target e)).children) s'.sight := h
    refine ⟨ts, h.form hb he ⟨hn, ?_, ?_, trivial⟩⟩
    · exact List.forall_mem_singleton.2 (.inl (Nat.le_refl _))
    · exact List.forall_mem_singleton.2 (Nat.le_refl _)

theorem lays_literal {make : Span → Expr} (h : s.token.literal? .tree = some make) :
    s.Lays true 0 [.expression (make (s.next.spanFrom s.start))] s.next := by
  have hn : s.Lays true 0 [] s.next := .next rfl (Token.isFlat_of_literal? h)
  unfold Token.literal? at h
  split at h
  all_goals cases h
  all_goals exact .node hn

theorem lays_key {key : PropertyKey Expr} (h : s.token.key? = some key) :
    s.Lays true 0 key.nodes s.next := by
  rw [PropertyKey.nodes_token h]
  exact .next rfl (Token.isFlat_of_key? h)

theorem lays_regexp (hk : s.kind = .slash ∨ s.kind = .slashEqual)
    (he : s.readRegexp.kind.isError = false) :
    s.Lays true 0 [.expression
      (.regexp (s.readRegexp.next.spanFrom s.start) s.readRegexp.token.regexpParts.1
      s.readRegexp.token.regexpParts.2)] s.readRegexp.next := fun hr => by
  have hs : s.readRegexp.next.sight = s.sight.regexp.next s.strict := by
    rw [sight_next, sight_readRegexp]
    rfl
  have he' : s.readRegexp.next.lastEnd = (s.sight.regexp.next s.strict).lastEnd :=
    congrArg Sight.lastEnd hs
  have ht : s.readRegexp.token = s.sight.regexp.token := congrArg Sight.token s.sight_readRegexp
  rw [kind, ht] at he
  rw [hs, spanFrom, he', ht]
  exact ⟨_, .regexp hr hk he rfl⟩

theorem spanFrom_congr {start : Position} (h : s'.sight = s.sight) :
    s.spanFrom start = s'.spanFrom start := by
  rw [spanFrom, spanFrom, show s'.lastEnd = s.lastEnd from congrArg Sight.lastEnd h]

theorem sight_use (s : ParseState) (name : String) : (s.onScopes (·.use name)).sight = s.sight :=
  sight_onScopes (Scopes.outline_modifyTop fun _ => rfl)

/-! Marks on the scopes are not seen by the lexer. -/

theorem sight_beginSwitch (s : ParseState) :
    (s.onScopes (·.pushBlock.beginSwitch)).sight = s.sight :=
  sight_touched (s := s.onScopes .pushBlock) (.mark fun _ => ⟨_, _, _, rfl⟩)

theorem sight_endSwitch (s : ParseState) : (s.onScopes .endSwitch).sight = s.sight :=
  sight_touched (.mark fun _ => ⟨_, _, _, rfl⟩)

theorem sight_pushLabel (s : ParseState) (name : String) (isLoop : Bool) :
    (s.onScopes (·.pushLabel name isLoop)).sight = s.sight :=
  sight_touched (.mark fun _ => ⟨_, _, _, rfl⟩)

theorem sight_popLabel (s : ParseState) : (s.onScopes .popLabel).sight = s.sight :=
  sight_touched (.mark fun _ => ⟨_, _, _, rfl⟩)

theorem sight_beginLoop (s : ParseState) : (s.onScopes .beginLoop).sight = s.sight :=
  sight_touched (.mark fun _ => ⟨_, _, _, rfl⟩)

theorem sight_endLoop (s : ParseState) : (s.onScopes .endLoop).sight = s.sight :=
  sight_touched (.mark fun _ => ⟨_, _, _, rfl⟩)

theorem trail_restart {directive : Nat} (hv : s.lexer.view = s₀.lexer.view)
    (hs : s₀.strict = false) :
    s₀.sight.Trail [] (s.restart directive s₀.checkpoint).sight := by
  have hr : (s.restart directive s₀.checkpoint).sight =
      s₀.sight.reread (s.restart directive s₀.checkpoint).strict :=
    @sight_rewind s₀ { s.record (.strictDirective directive) with events := _ } hv
  exact (congrArg _ hr).mpr (.reread .nil fun h => nomatch hs.symm.trans h)

/-- The head of a loop up to `s`, in its block and with its parenthesis open. -/
structure Heads (s₀ : ParseState) (ns : List Node) (s : ParseState) : Prop where
  lays : s₀.Lays true 1 ns s
  outline : s.scopes.outline = s₀.scopes.pushBlock.outline

namespace Heads

theorem append (h : s₀.Heads ns s) (h' : s.Lays solid 0 ms s')
    (ho : s'.scopes.outline = s.scopes.outline) :
    s₀.Heads (ns ++ ms) s' := ⟨Lays.append h.lays h', ho.trans h.outline⟩

theorem append_nil (h : s₀.Heads ns s) (h' : s.Lays solid 0 [] s')
    (ho : s'.scopes.outline = s.scopes.outline) :
    s₀.Heads ns s' := by
  simpa using append h h' ho

theorem glanced (h : s₀.Heads ns s) (hg : s.Glances s') : s₀.Heads ns s' :=
  h.append_nil (.glance hg.again) (congrArg Scopes.outline hg.resembles.scopes)

theorem fills {scope : Environment} {body : Stmt} (h : s₀.Heads ns s) (hc : s.kind = .rightParen)
    (hb : s.next.Lays true 0 [.statement body] s₁) (ho : s₁.scopes.outline = s.scopes.outline)
    (hf : Parse.finishBlock c s₁ = (.ok scope, s')) (hn : a.nodes = ns ++ [.statement body])
    (hs : a.span = s'.spanFrom s₀.start := by rfl)
    (hp : ∀ ts, (Node.statement a).Spelled ts := by intro; trivial) :
    s₀.Fills a s' :=
  .node (hn ▸ (Lays.append (h.lays.closing hc) hb).then_still
    (sight_finishBlock (ho.trans h.outline) hf)) hs hp

end Heads

end ParseState

/-- How the nodes lie in the text that a phrase was read from. A phrase that was begun before is
read on. -/
def Nonterminal.Lays : (g : Nonterminal .tree) → ParseState → g.Result → ParseState → Prop
  | .item, s, a, s' | .statement, s, a, s' | .statementInside, s, a, s' => s.Fills a s'
  | .functionDeclaration, s, a, s' =>
    ∃ f, a = .function f ∧ f.span = s'.spanFrom s.start ∧ s.next.Lays true 0 f.nodes s'
  | .variableStatement _, s, a, s' =>
    ∃ d, a = .declaration d ∧ d.span = s'.spanFrom s.start ∧
      s.next.Lays true 0 (d.declarators.map .declarator) s'
  | .declarators _ _, s, list, s' => s.Lays true 0 (list.declarators.map .declarator) s'
  | .declarator _ _, s, d, s' => s.Lays true 0 [.declarator d.1] s'
  | .declaratorTarget _, s, p, s' | .catchParameter, s, p, s' | .parameterTarget, s, p, s'
  | .pattern _, s, p, s'
  | .patternInside _, s, p, s' => s.Lays true 0 [.pattern p] s'
  | .block, s, a, s' => (∃ b, a = .block b) ∧ s.Fills a s'
  | .itemsUntil _, s, as, s' | .items _ _, s, as, s' => s.Shares as s'
  | .body _ start, s, as, s' =>
    ∀ s₀ : ParseState, start = s₀.checkpoint → s₀.sight.Trail [] s.sight → s₀.Shares as s'
  | .directives _, _, _, _ => True
  | .loopBody, s, a, s' => s.Lays true 0 [.statement a] s'
  | .forHead start, s, a, s' | .assigningLoop start, s, a, s' | .expressionLoop start, s, a, s' =>
    ∀ s₀ : ParseState, start = s₀.start → s₀.Heads [] s → s₀.Fills a s'
  | .declaringLoop start _, s, a, s' =>
    s.kind.isFlat = true → ∀ s₀ : ParseState, start = s₀.start → s₀.Heads [] s → s₀.Fills a s'
  | .countedLoop start init, s, a, s' => ∀ s₀ : ParseState, start = s₀.start →
    s₀.Heads ((init.map ForInit.ofStmt).elim [] ForInit.nodes) s → s₀.Fills a s'
  | .eachLoop start left _, s, a, s' => s.kind.isFlat = true → ∀ s₀ : ParseState, start = s₀.start →
    s₀.Heads left.ofStmt.nodes s → s₀.Fills a s'
  | .expressionBefore _, s, e, s' | .patternDefault, s, e, s' => s.Lays false 0 (optional e) s'
  | .clauses _, s, cs, s' => s.Lays false 0 (cs.map .clause) s'
  | .clauseTest _, s, test, s' =>
    s.kind = (if test.isSome then .kwCase else .kwDefault) ∧ s.next.Lays false 0 (optional test) s'
  | .catchClause, s, handler, s' => s.kind = .kwCatch → s.Lays true 0 [.handler handler.ofStmt] s'
  | .condition, s, e, s' | .assignment, s, e, s' | .assignmentInside, s, e, s'
  | .plainAssignment, s, e, s'
  | .conditional, s, e, s' | .binary, s, e, s' | .unary _, s, e, s' | .postfixed, s, e, s'
  | .leftHandSide, s, e, s'
  | .head, s, e, s' | .primary, s, e, s' | .expression, s, e, s' | .spreadable, s, e, s' =>
    s.Lays true 0 [.expression e] s'
  | .attempt accept, s, found, s' => (∀ s j, accept (s.withJournal j) = accept s) →
    ∀ p, found = some p → s.Lays true 0 [.pattern p] s'
  | .binaryRest scan, s, e, s' =>
    ∀ s₀ : ParseState, s₀.Scans scan s → s₀.Lays true 0 [.expression e] s'
  | .operand, s, p, s' => s.Lays true 0 [.expression p.expression] s' ∧ p.span = s'.spanFrom s.start
  | .news waiting, s, found, s' => ∀ s₀ : ParseState, s₀.Waits waiting s →
    found.2.elim (s₀.Waits found.1 s') fun e => s₀.Chains s'.start ⟨e, found.1⟩ s'
  | .members start first chain, s, chain', s' =>
    ∀ s₀ : ParseState, start = s₀.start → s₀.Chains first chain s →
    s₀.Chains first chain' s'
  | .arguments, s, es, s' => s.Lays true 0 (es.map .expression) s'
  | .moreExpressions, s, es, s' | .argumentList, s, es, s' => s.Lays false 0 (es.map .expression) s'
  | .elements, s, es, s' => s.Lays false 0 (es.filterMap (·.map .expression)) s'
  | .properties _ _, s, ps, s' => s.Lays false 0 (ps.map .property) s'
  | .property _ _, s, p, s' => s.Lays true 0 [.property p.1] s'
  | .propertyValue start key _, s, found, s' =>
    start.Lays true 0 key.nodes s → start.Lays true 0 (key.nodes ++ [.expression found.2.1]) s'
  | .propertyKey, s, key, s' => s.Lays true 0 key.nodes s'
  | .patternKey, s, found, s' => s.Lays true 0 found.1.nodes s'
  | .functionNode start _, s, e, s' =>
    ∃ f, e = .function f ∧ f.span = s'.spanFrom start ∧ s.Lays true 0 f.nodes s'
  | .functionParts start _, s, f, s' => f.span = s'.spanFrom start ∧ s.Lays true 0 f.nodes s'
  | .functionInside start _ _, s, f, s' =>
    f.span = s'.spanFrom start ∧ (s'.strict = s.strict → s.Lays true 0 f.nodes s')
  | .functionBody _ _, s, found, s' =>
    s'.strict = s.strict → s.Lays true 0 (found.1.nodes (s'.spanFrom s.start)) s'
  | .parameters _, s, ps, s' => s.Lays true 0 (ps.map .parameter) s'
  | .formals, s, ps, s' => s.Lays false 0 (ps.map .parameter) s'
  | .formal, s, p, s' => s.Lays true 0 [.parameter p] s'
  | .patternElements _, s, parts, s' =>
    s.Lays false 0 (parts.elements.filterMap (·.map .element) ++ parts.rest.toList.map .pattern) s'
  | .patternElement _, s, e, s' => s.Lays true 0 [.element e] s'
  | .patternProperties _, s, ps, s' => s.Lays false 0 (ps.map .patternProperty) s'
  | .patternProperty _, s, p, s' => s.Lays true 0 [.patternProperty p] s'
  | .patternPropertyTarget _ start _, s, found, s' =>
    ∀ ns, start.Lays true 0 ns s → start.Lays true 0 (ns ++ [.pattern found.1]) s'

variable {P : Prop} {c : ParseContext} {s s₁ s₂ s₃ s' : ParseState}

namespace Reading

theorem outline_endSwitch {cs : List (SwitchClause Expr Stmt)}
    (h : Reading .tree P c (.clauses false) (s.onScopes (·.pushBlock.beginSwitch)) cs s') :
    (s'.onScopes .endSwitch).next.scopes.outline = s.scopes.pushBlock.outline := by
  have hl : (Walk.bare c).Leads (s.onScopes .pushBlock) _ (s'.onScopes .endSwitch).next :=
    Walk.nil_append (Walk.beginSwitch _)
      (Walk.then_next (Walk.append_nil h.bare (Walk.endSwitch _)))
  exact hl.outline

theorem trail_restart {close : TokenKind} {before : List Stmt} {a : Stmt} {s₀ : ParseState}
    (hd : Reading .tree P c (.directives close) s before s₁) (h : Reading .tree P c .item s₁ a s₂)
    (hn : s₂.strict = false) (he : Parse.enableStrict s₁.token.extent c s₂ = (.ok (), s₃))
    (ht : s₀.sight.Trail [] s.sight) (hr : s₀.sight.Ready) :
    s₀.sight.Trail [] (s₃.restart s₁.token.extent.start s₀.checkpoint).sight := by
  -- In strict code no directive is looked for, so it was not strict before.
  have ho : s₂.strict = s.strict := Scopes.strict_congr (h.bare.outline.trans hd.bare.outline)
  have hl : s₃.lexer = s₂.lexer := by
    obtain ⟨rfl, -⟩ | ⟨rfl, -⟩ := Parse.enableStrict_ok he <;> rfl
  have hv : s₃.lexer.view = s₀.lexer.view := by
    rw [hl]
    exact (h.bare.moves.view.trans hd.bare.moves.view).trans (ht.passes hr).view
  refine ParseState.trail_restart hv (Bool.eq_false_iff.2 fun hs => ?_)
  cases (ho.trans (ht.strict hs)).symm.trans hn

theorem outline_parameters {header : Parse.FunctionHeader} {ps : List (Parameter Expr Pat)}
    (hp : Reading .tree P c (.parameters header) s ps s₁)
    (hc : Parse.checkParameters header ps c s₁ = (.ok (), s₂))
    (ha : (if header.form == .arrow then Parse.consumeArrow else pure ()) c s₂ = (.ok (), s₃)) :
    s₃.scopes.outline = s.scopes.outline := by
  have hn : (Walk.bare c).Leads s₁ [] s₃ :=
    Walk.nil_append (Walk.checkParameters hc) (Walk.arrow ha)
  exact hn.outline.trans hp.bare.1.outline

end Reading

/-! Rules of the grammar with several parts. -/

namespace Nonterminal.Lays

variable {a : Stmt} {e : Expr} {p : Pat} {span : Span} {scope : Environment}

theorem doWhileStatement (hk : s.kind = .kwDo) (hb : Nonterminal.Lays .loopBody s.next a s₁)
    (hw : s₁.kind = .kwWhile) (ht : Nonterminal.Lays .condition s₁.next e s₂) :
    s.Fills (.doWhile ((if s₂.kind = .semicolon then s₂.next else s₂).spanFrom s.start) a e)
      (if s₂.kind = .semicolon then s₂.next else s₂) := by
  have hs : s₂.Lays false 0 [] (if s₂.kind = .semicolon then s₂.next else s₂) := by
    split
    · next hs => exact .forget (.next hs rfl)
    · exact .refl _
  have hl := Lays.after_next hk (.append hb (.after_next hw (.append_nil ht hs) rfl)) rfl
  exact .node hl rfl fun _ => trivial

theorem switchStatement {cs : List (SwitchClause Expr Stmt)} (hk : s.kind = .kwSwitch)
    (hd : Nonterminal.Lays .condition s.next e s₁) (ho : s₁.kind = .leftBrace)
    (h : Reading .tree P c (.clauses false) (s₁.next.onScopes (·.pushBlock.beginSwitch)) cs s₂)
    (hc : Nonterminal.Lays (.clauses false) (s₁.next.onScopes (·.pushBlock.beginSwitch)) cs s₂)
    (he : s₂.kind = .rightBrace)
    (hf : Parse.finishBlock c (s₂.onScopes .endSwitch).next = (.ok scope, s')) :
    s.Fills (.switch (s'.spanFrom s.start) e cs scope) s' := by
  have hc : s₁.next.Lays false 0 (cs.map .clause) (s₂.onScopes .endSwitch) :=
    .congr (ParseState.sight_beginSwitch _) (.then_still hc (ParseState.sight_endSwitch _))
  have hs := ParseState.sight_finishBlock h.outline_endSwitch hf
  have hl := Lays.then_still (.bracketed ho hc he rfl rfl) hs
  exact .node (.after_next hk (.append hd hl) rfl) rfl fun _ => trivial

theorem labeledStatement {isLoop : Bool} (hk : s.kind = .identifier)
    (hc : Parse.colonFollows c s = (.ok true, s₁)) (hc' : s₁.next.kind = .colon)
    (hl : Parse.labelsLoop c s₁.next.next = (.ok isLoop, s₂))
    (h : Nonterminal.Lays .statement (s₂.onScopes (·.pushLabel s₁.token.text isLoop)) a s') :
    s.Fills (.labeled ((s'.onScopes .popLabel).spanFrom s₁.start) s₁.token.text a)
      (s'.onScopes .popLabel) := by
  have hb := Lays.congr (ParseState.sight_pushLabel _ _ _)
    (.then_still h.lays (ParseState.sight_popLabel s'))
  have hb := Lays.again (labelsLoop_glances hl).again hb
  have ha := ParseState.again_of_colonFollows hk hc
  refine .again_of_flat ha hk (fun hk => ?_) rfl
  exact .node (.after_next hk (.after_next hc' hb rfl) rfl) rfl fun _ => trivial

theorem functionDeclaration {name : String} {header : Parse.FunctionHeader}
    {f : Function} {conflicts : Conflicts} (hk : s.next.kind = .identifier)
    (hd : Parse.declaring (·.declare name (Parse.functionNameKind s.next)) c s.next =
      (.ok conflicts, s₁))
    (h : Nonterminal.Lays (.functionParts s.start header) s₁.next f s₂)
    (hr : Parse.recordFunction f c s₂ = (.ok (), s')) :
    Nonterminal.Lays .functionDeclaration s (.function f) s' := by
  have hs := ParseState.sight_recordFunction hr
  have hd := ParseState.sight_declaresFunction hd
  have hk := (ParseState.kind_congr hd).trans hk
  have hl := Lays.congr hd (.after_next hk (.then_still h.2 hs) rfl)
  exact ⟨_, rfl, h.1.trans (ParseState.spanFrom_congr hs), hl⟩

theorem restartedBody {close : TokenKind} {start : Checkpoint} {before as : List Stmt}
    (hd : Reading .tree P c (.directives close) s before s₁) (h : Reading .tree P c .item s₁ a s₂)
    (hn : s₂.strict = false) (he : Parse.enableStrict s₁.token.extent c s₂ = (.ok (), s₃))
    (hb : Nonterminal.Lays (.body close start) (s₃.restart s₁.token.extent.start start) as s') :
    Nonterminal.Lays (.body close start) s as s' := by
  rintro s₀ rfl ht hr
  exact hb s₀ rfl (hd.trail_restart h hn he ht hr) hr

theorem loopBody (h : s.onScopes .beginLoop |>.Fills a s') :
    s.Lays true 0 [.statement a] (s'.onScopes .endLoop) :=
  .congr (ParseState.sight_beginLoop s) (.then_still h.lays (ParseState.sight_endLoop s'))

theorem declaringHead {start : Position} {kind : VariableKind}
    (hh : Parse.headKind? c s = (.ok (some kind), s₁))
    (ih : Nonterminal.Lays (.declaringLoop start kind) s₁ a s') :
    Nonterminal.Lays (.forHead start) s a s' := by
  intro s₀ hs h₀ hr
  obtain ⟨_, hl⟩ := h₀.lays hr
  have hf := ParseState.isFlat_of_headKind? hh
  have hk := ParseState.kind_again (headKind?_glances hh).again (hl.trail.passes hr).ready hf
  exact ih (hk ▸ hf) s₀ hs (h₀.glanced (headKind?_glances hh)) hr

theorem expressionEach {start : Position} {loop : EachLoop} {extent : Extent} {allowed : Bool}
    (hl : Reading .tree P c .expression (s.allow false) e s₁) (ho : s₁.eachLoop? = some loop)
    (hw : Parse.noteAssignment .tree e extent c (s₁.allow allowed) = (.ok (), s₂))
    (ihl : Nonterminal.Lays .expression (s.allow false) e s₁)
    (ih : Nonterminal.Lays (.eachLoop start (.expression e) loop) s₂ a s') :
    Nonterminal.Lays (.expressionLoop start) s a s' := by
  have hs := ParseState.sight_noteAssignment hw
  have hn : (Walk.bare c).Leads _ _ _ := Walk.noteAssignment hw
  have hk := ParseState.isFlat_of_eachLoop? ho
  intro s₀ hs' h₀
  refine ih (ParseState.kind_congr hs ▸ hk) s₀ hs' (h₀.append (.then_still ihl hs) ?_)
  exact hn.outline.trans hl.bare.outline

theorem catchClause {as : List Stmt} (ho : s.next.kind = .leftParen)
    (hp : Reading .tree P c .catchParameter (s.next.next.onScopes .pushBlock) p s₁)
    (hc : s₁.kind = .rightParen) (hb : s₁.next.kind = .leftBrace)
    (h : Reading .tree P c (.itemsUntil (· == .rightBrace)) s₁.next.next as s₂)
    (he : s₂.kind = .rightBrace) (hf : Parse.finishBlock c s₂.next = (.ok scope, s'))
    (ihp : Nonterminal.Lays .catchParameter (s.next.next.onScopes .pushBlock) p s₁)
    (ih : Nonterminal.Lays (.itemsUntil (· == .rightBrace)) s₁.next.next as s₂) :
    Nonterminal.Lays .catchClause s
      ⟨s'.spanFrom s.start, p, .block ⟨s'.spanFrom s₁.next.start, as, scope⟩⟩ s' := by
  intro hk
  have hx : s₂.next.scopes.outline = s.scopes.pushBlock.outline :=
    h.bare.outline.trans (hp.bare fun _ => rfl).outline
  have hs := ParseState.sight_finishBlock hx hf
  have hb : s₁.next.Lays true 0 [.statement (.block ⟨s'.spanFrom s₁.next.start, as, scope⟩)] s' :=
    Shares.braced hb ih he (fun _ => id) hs rfl rfl fun _ h => h
  have hl := Lays.append (.bracketed ho ihp hc rfl rfl) hb
  exact .node (.after_next hk hl rfl) rfl fun _ => trivial

theorem patternAssignment (ha : Parse.atArrowFunction c s = (.ok false, s₁))
    (ht : Reading .tree P c (.attempt (·.kind == .equal)) s₁ (some p) s₂)
    (iht : Nonterminal.Lays (.attempt (·.kind == .equal)) s₁ (some p) s₂)
    (ihv : Nonterminal.Lays .assignment s₂.next e s') :
    s.Lays true 0 [.expression (.assignPattern (s'.spanFrom s.start) p e)] s' := by
  obtain ⟨-, _, he, hs⟩ := ht.accepted
  have he := (congrArg Token.kind hs).trans (beq_iff_eq.1 he)
  have ht := Lays.again (atArrowFunction_glances ha).again (iht (fun _ _ => rfl) _ rfl)
  exact .node (.append ht (.after_next he ihv rfl)) rfl fun _ => trivial

theorem functionInside {start : Position} {header : Parse.FunctionHeader} {outerIn : Bool}
    {f : Function} (hf : f.span = s'.spanFrom start) (hbody : f.bodySpan = s'.spanFrom s₃.start)
    (hp : Reading .tree P c (.parameters header) s f.parameters s₁)
    (hc : Parse.checkParameters header f.parameters c s₁ = (.ok (), s₂))
    (ha : (if header.form == .arrow then Parse.consumeArrow else pure ()) c s₂ = (.ok (), s₃))
    (ihp : Nonterminal.Lays (.parameters header) s f.parameters s₁)
    (ihb : Nonterminal.Lays (.functionBody header outerIn) s₃ (f.body, f.scope) s') :
    Nonterminal.Lays (.functionInside start header outerIn) s f s' := by
  refine ⟨hf, fun hs => ?_⟩
  have ho := hp.outline_parameters hc ha
  have hl := Lays.append_nil (Lays.then_still ihp (ParseState.sight_checkParameters hc))
    (ParseState.lays_arrow ha)
  have hb := ihb (hs.trans (Scopes.strict_congr ho).symm)
  rw [← hbody] at hb
  exact .append hl hb

theorem blockBody {header : Parse.FunctionHeader} {outerIn : Bool} {as : List Stmt}
    {found : ScopeSummary} (hk : s.kind = .leftBrace)
    (h : Reading .tree P c (.body .rightBrace s.next.checkpoint) s.next as s₁)
    (hf : Parse.finishFunction c s₁ = (.ok found, s₂))
    (ih : Nonterminal.Lays (.body .rightBrace s.next.checkpoint) s.next as s₁) :
    Nonterminal.Lays (.functionBody header outerIn) s (.block as, found) s₂.next := by
  intro hs
  have he : s₁.kind = .rightBrace := h.closes
  have hn := ParseState.sight_leave (Parse.onlyScopes_finishFunction hf).spot
  exact Shares.braced hk (ih _ rfl .nil) he (fun h _ => hs.trans h) hn rfl rfl fun _ h => h

theorem expressionBody {header : Parse.FunctionHeader} {outerIn : Bool} {found : ScopeSummary}
    (h : Reading .tree P c .assignment (s.allow outerIn) e s₁)
    (hf : Parse.finishFunction c (s₁.allow s.allowsIn) = (.ok found, s'))
    (ih : Nonterminal.Lays .assignment (s.allow outerIn) e s₁) :
    Nonterminal.Lays (.functionBody header outerIn) s (.expression e, found) s' := by
  intro hs
  have ho := h.bare.outline
  exact .then_still ih (ParseState.sight_congr (Parse.onlyScopes_finishFunction hf).spot
    (hs.trans (Scopes.strict_congr ho).symm))

end Nonterminal.Lays

namespace Reading

/-- By induction on the reading: what its parts lie in is put together in the order of the text, and
becomes the stretch of the node that is made of them. -/
theorem lays {g : Nonterminal .tree} {a : g.Result} (h : Reading .tree P c g s a s') :
    g.Lays s a s' := by
  induction h with
  | itemFunction hk _ ih | functionStatement hk hs _ ih | functionExpression hk _ _ ih =>
    obtain ⟨f, rfl, hs, hl⟩ := ih
    exact .node (.after_next hk hl) hs
  | itemConst hk _ ih | varStatement hk _ ih =>
    obtain ⟨d, rfl, hs, hl⟩ := ih
    exact .node (.after_next hk hl) hs
  | itemLet hk hl _ ih =>
    obtain ⟨d, rfl, hs, hd⟩ := ih
    exact .again_of_flat (atLetDeclaration_glances hl).again hk fun hk =>
      .node (.after_next hk hd) hs
  | itemLetName _ hl _ ih => exact .again (atLetDeclaration_glances hl).again ih
  | itemStatement _ _ ih | statement _ _ ih | lastDeclarator _ _ ih | declaratorPattern _ _ ih
  | emptyHead _ _ ih | catchPattern _ _ _ ih | assignment _ _ ih | noAssignment _ _ ih
  | noConditional _ _ ih | noUnary _ _ ih | noPostfix _ _ ih | primaryHead _ _ ih | single _ _ ih
  | noSpread _ _ ih | parameterPattern _ _ _ ih | pattern _ _ ih => exact ih
  | blockStatement _ _ ih => exact ih.2
  | emptyStatement hk => exact .node (.next hk)
  | ifStatement hk _ _ _ iht ihc => exact .node (.after_next hk (.append iht ihc.lays))
  | ifElseStatement hk _ _ he _ iht ihc iha =>
    exact .node (.after_next hk (.append iht (.append ihc.lays (.after_next he iha.lays))))
  | forStatement hk ho _ ih => exact ih _ rfl ⟨.after_next hk (.opening ho), rfl⟩
  | whileStatement hk _ _ iht ihb => exact .node (.after_next hk (.append iht ihb))
  | doWhileStatement hk _ hw _ he ihb iht => exact he ▸ .doWhileStatement hk ihb hw iht
  | continueStatement hk h | breakStatement hk h =>
    exact ParseState.fills_jump h hk fun _ _ => ⟨rfl, rfl, fun _ => trivial⟩
  | returnStatement hk _ _ he | debuggerStatement hk he => exact .node (.after_next hk (.ends he))
  | returnValueStatement hk _ _ _ he ih | throwStatement hk _ _ he ih =>
    exact .node (.after_next hk (.append_nil ih (.ends he)))
  | withStatement hk _ _ _ iho ihb =>
    exact .node (.after_next hk
      (.append iho (.congr (ParseState.sight_touched .activate) ihb.lays)))
  | switchStatement hk _ ho hc he hf ihd ihc => exact .switchStatement hk ihd ho hc ihc he hf
  | tryCatch hk hg hc _ _ ihg ihh =>
    obtain ⟨⟨b, rfl⟩, hg⟩ := ihg
    exact .node (.after_next hk (.append hg.lays (ihh hc)))
  | tryFinally hk hg _ hf hb ihg ihb =>
    obtain ⟨⟨b, rfl⟩, hg⟩ := ihg
    obtain ⟨⟨b', rfl⟩, hb⟩ := ihb
    exact .node (.after_next hk (.append hg.lays (.after_next hf hb.lays)))
  | tryCatchFinally hk hg hc _ hf hb ihg ihh ihb =>
    obtain ⟨⟨b, rfl⟩, hg⟩ := ihg
    obtain ⟨⟨b', rfl⟩, hb⟩ := ihb
    exact .node (.after_next hk (.append hg.lays (.append (ihh hc) (.after_next hf hb.lays))))
  | letExpressionStatement _ hl _ he ih =>
    exact .again (atLetDeclaration_glances hl).again (.node (.append_nil ih (.ends he)))
  | labeledStatement hk hc _ hc' hl _ ih => exact .labeledStatement hk hc hc' hl ih
  | nameStatement hk hc _ he ih =>
    exact .again (ParseState.again_of_colonFollows hk hc) (.node (.append_nil ih (.ends he)))
  | expressionStatement _ _ he ih => exact .node (.append_nil ih (.ends he))
  | functionDeclaration hk hd _ _ hr ih => exact .functionDeclaration hk hd ih hr
  | variableStatement _ he ih => exact ⟨_, rfl, rfl, .append_nil ih (.ends he)⟩
  | moreDeclarators _ hk _ ih ihs => exact .append ih (.after_next hk ihs)
  | initializedDeclarator _ hn hk hw _ iht ihi =>
    have hn := ParseState.sight_takeBoundNames hn
    have hw := ParseState.sight_writeNames hw
    exact .node (.append (.then_still iht hn) (.after_next hk (.congr hw ihi)))
  | bareDeclarator _ hn _ _ iht =>
    exact .node (.then_still iht (ParseState.sight_takeBoundNames hn))
  | declaratorName _ h | catchName _ h | parameterName _ h | patternName _ _ h =>
    exact ParseState.lays_bindingName h
  | @block s s₁ _ _ _ hk h he hf ih =>
    have ho : s₁.next.scopes.outline = s.scopes.pushBlock.outline := h.bare.outline
    have hs := ParseState.sight_finishBlock ho hf
    exact ⟨⟨_, rfl⟩, .of_lays (Shares.braced hk ih he (fun _ => id) hs)⟩
  | noItems | bodyEnd => exact .nil _
  | moreItems _ _ _ _ ih ihs => exact .cons ih ihs
  | body _ ih => exact fun s₀ _ ht => .behind ht ih
  | restartedBody hd _ _ h _ _ hn he _ _ _ ihb => exact .restartedBody hd h hn he ihb
  | noDirectives | moreDirectives => trivial
  | directiveItem _ _ _ _ _ _ ih iht | bodyItem _ _ _ _ _ ih iht => exact .cons ih iht
  | condition ho _ hc ih | parameters _ ho _ hc ih => exact .bracketed ho ih hc
  | loopBody _ ih => exact Nonterminal.Lays.loopBody ih
  | declaringHead _ hh _ ih => exact .declaringHead hh ih
  | assigningHead _ hh _ ih => exact fun s₀ hs h₀ => ih s₀ hs (h₀.glanced (headKind?_glances hh))
  | declaringEach hd hl _ _ ihd ih =>
    intro hk s₀ hs h₀
    have hl := ParseState.isFlat_of_eachLoop? hl
    exact ih hl s₀ hs (h₀.append (Lays.node (.after_next rfl ihd hk)) hd.bare.outline)
  | declaringCounted hd _ _ _ ihd ih =>
    intro hk s₀ hs h₀
    exact ih s₀ hs (h₀.append (Lays.node (.after_next rfl ihd hk)) hd.bare.outline)
  | patternEach ht hl _ iht ih =>
    have ht := (ht.bare fun _ _ => rfl).outline
    exact fun s₀ hs h₀ => ih (ParseState.isFlat_of_eachLoop? hl) s₀ hs
      (h₀.append (iht (fun _ _ => rfl) _ rfl) ht)
  | noPatternLoop ht _ _ ih =>
    have hg := again_of_no_attempt (fun _ _ => rfl) ht rfl
    exact fun s₀ hs h₀ => ih s₀ hs (h₀.append_nil (.glance hg) (ht.bare fun _ _ => rfl).outline)
  | expressionEach hl ho _ hw _ ihl ih => exact .expressionEach hl ho hw ihl ih
  | expressionCounted hl _ _ ihl ih =>
    exact fun s₀ hs h₀ => ih s₀ hs (h₀.append ihl hl.bare.outline)
  | countedLoop h₁ ht h₂ hu h₃ hb hf iht ihu ihb =>
    intro s₀ hs h₀
    have hh := h₀.append (.after_next h₁ (.append iht (.after_next h₂ ihu)))
      (hu.bare.outline.trans ht.bare.outline)
    exact hh.fills h₃ ihb hb.bare.outline hf (by simp [Stmt.nodes]) (by rw [hs]; rfl)
  | forOf hr hc hb hf ihr ihb | forIn hr hc hb hf ihr ihb =>
    intro hk s₀ hs h₀
    have hh := h₀.append (.after_next rfl ihr hk) hr.bare.outline
    exact hh.fills hc ihb hb.bare.outline hf (by simp [Stmt.nodes]) (by rw [hs]; rfl)
  | noExpressionBefore | noClauses | noMoreExpressions | noArguments | noElements | noProperties
  | noFormals | noPatternElements | noPatternDefault | noPatternProperties => exact .refl _
  | someExpressionBefore _ _ ih | lastArgument _ _ _ ih | lastElement _ _ _ _ ih
  | lastProperty _ _ _ ih | lastFormal _ _ _ _ ih | lastPatternElement _ _ _ ih
  | lastPatternProperty _ _ _ ih => exact .forget ih
  | moreClauses _ _ hc _ _ iht ihb ih =>
    exact .append (.forget (Shares.clause iht.1 iht.2 hc ihb)) ih
  | caseClause hk _ ih => exact ⟨hk, .forget ih⟩
  | defaultClause hk => exact ⟨hk, .refl _⟩
  | catchClause ho hp hc hb h he hf ihp ih => exact .catchClause ho hp hc hb h he hf ihp ih
  | arrowFunction ha _ ih =>
    obtain ⟨f, rfl, hs, hl⟩ := ih
    exact .node (.again (atArrowFunction_glances ha).again hl) hs
  | patternAssignment ha ht _ iht ihv => exact Nonterminal.Lays.patternAssignment ha ht iht ihv
  | noPatternAssignment ha ht _ _ ih =>
    exact .again ((atArrowFunction_glances ha).again.trans
      (again_of_no_attempt (fun _ _ => rfl) ht rfl)) ih
  | targetAssignment _ hk _ hw _ ih ihv =>
    have hs := ParseState.sight_noteAssignment hw
    have hf := TokenKind.isFlat_of_assignOp hk
    exact .node (.append (.then_still ih hs) (.after_next (ParseState.kind_congr hs) ihv hf))
  | noBracket | noAttempt | givenUp => exact fun _ _ hp => nomatch hp
  | attempt _ hf _ ha hw ih =>
    rintro ha _ ⟨⟩
    exact .again (followsBrackets_glances ha hf).again
      (.then_still ih (ParseState.sight_commitWrites hw))
  | conditional _ hk _ hc' _ iht ihc iha =>
    exact .node (.append iht (.after_next hk (.append ihc (.after_next hc' iha))))
  | binary _ _ ih ihr => exact ihr _ (.first ih.1 ih.2)
  | binaryEnd => exact fun _ h₀ => h₀.finish
  | binaryMore hk hr _ _ ih iht =>
    exact fun s₀ h₀ => iht s₀ (.more (h₀.reduce hr) (ParseState.isFlat_of_binaryOp? hk) ih.1 ih.2)
  | operand _ ih => exact ⟨ih, rfl⟩
  | prefixUpdate hk _ _ _ hw ih =>
    exact .then_still (.node (.after_next rfl ih (TokenKind.isFlat_of_isUnary hk)))
      (ParseState.sight_noteAssignment hw)
  | prefixUnary hk _ _ _ _ ih => exact .node (.after_next rfl ih (TokenKind.isFlat_of_isUnary hk))
  | postfixUpdate _ hk _ _ hw ih =>
    have hs := ParseState.sight_noteAssignment hw
    exact .node (.then_next (.then_still ih hs) (ParseState.kind_congr hs)
      (TokenKind.isFlat_of_updateOp hk))
  | leftHandSide _ _ _ ihn ih ihm => exact (ihm _ rfl (Waits.operand (ihn _ (.refl _)) ih)).finish
  | newTargetSide _ _ ihn ihm => exact (ihm _ rfl (ihn _ (.refl _))).finish
  | noNews => exact fun _ h₀ => h₀
  | newTarget hk hd h =>
    obtain ⟨hl, hn⟩ := ParseState.lays_newTarget hk hd h
    exact fun _ h₀ => h₀.target hl hn
  | moreNews hk _ _ ih => exact fun s₀ h₀ => ih s₀ (h₀.more hk)
  | superHead hk h => exact ParseState.lays_superExpression hk h
  | membersEnd => exact fun _ _ h₀ => h₀
  | member hk hn h ih =>
    rintro s₀ rfl h₀
    have hm : Lays _ true 0 [] _ :=
      .after_next hk (.next rfl (TokenKind.isFlat_of_isIdentifierName hn))
    exact ih s₀ rfl (h₀.member hm rfl rfl (fun h => ⟨rfl, h⟩) fun _ => trivial)
  | index hk _ he h ihx ih =>
    rintro s₀ rfl h₀
    exact ih s₀ rfl (h₀.member (.bracketed hk ihx he) rfl rfl (fun h => ⟨rfl, h⟩) fun _ => trivial)
  | construct _ _ _ ihx ih =>
    exact fun s₀ hs h₀ => ih s₀ hs (h₀.construct ihx rfl rfl rfl fun _ => trivial)
  | call _ _ _ ihx ih =>
    rintro s₀ rfl h₀
    exact ih s₀ rfl (.complete (.node (.append h₀.lays ihx)))
  | namedFunctionExpression hk hn _ ih =>
    obtain ⟨f, rfl, hs, hl⟩ := ih
    exact .node (.after_next hk (.after_next hn hl)) hs
  | group hk _ he ih | arguments hk _ he ih | computedKey hk _ he ih
  | computedPatternKey hk _ he ih => exact .bracketed hk ih he
  | array hk _ he ih | object hk _ he ih | arrayPattern hk _ he ih | objectPattern hk _ he ih =>
    exact .node (.bracketed hk ih he)
  | literal hk => exact ParseState.lays_literal hk
  | reference hk =>
    have hn : Lays _ true 0 [] _ := .next rfl (ParseState.isFlat_of_reference? hk)
    exact .node (.then_still hn (ParseState.sight_use _ _))
  | regexp hk he => exact ParseState.lays_regexp hk he
  | sequence _ _ _ ih ihs => exact .node (.append ih ihs)
  | moreExpressions hk _ _ ih ihs => exact .forget (.after_next hk (.append ih ihs))
  | moreArguments _ _ hc _ ih ihs | moreProperties _ _ hc _ ih ihs
  | moreFormals _ _ _ hc _ ih ihs | morePatternProperties _ _ hc _ ih ihs =>
    exact .forget (.append ih (.after_next hc ihs))
  | spread hk _ ih | spreadProperty hk _ ih => exact .node (.after_next hk ih)
  | hole hk _ ih | patternHole hk _ ih | patternRest hk _ _ ih | patternDefault hk _ ih =>
    exact .forget (.after_next hk ih)
  | moreElements _ _ _ he _ ih ihs | morePatternElements _ _ he _ ih ihs =>
    exact .forget (.append ih (.after_next he ihs))
  | @accessor _ s₁ _ _ names _ _ _ _ _ hk ha _ hn _ ihx ih =>
    obtain ⟨f, rfl, hs, hl⟩ := ih
    have hf := ParseState.isFlat_of_accessor? ha
    refine .again_of_flat (accessor?_glances ha).again hf fun hk => .node (.node_behind ?_ hs)
    have hn := ParseState.sight_noteAccessor s₁ names
    exact .congr hn (.after_next (ParseState.kind_congr hn) (.append ihx hl) (hk ▸ hf))
  | dataProperty _ ha _ _ _ ihx ih => exact .again (accessor?_glances ha).again (.node (ih ihx))
  | value hk _ _ ih => exact fun h₀ => .append h₀ (.after_next hk ih)
  | method _ _ ih =>
    obtain ⟨f, rfl, hs, hl⟩ := ih
    exact fun h₀ => .node_behind (.append h₀ hl) hs
  | shorthand =>
    exact fun h₀ => .node_behind (.append (.then_still h₀ (ParseState.sight_use _ _)) (.refl _))
  | plainKey hk | plainPatternKey hk => exact ParseState.lays_key hk
  | functionNode _ hr ih =>
    have hs := ParseState.sight_recordFunction hr
    exact ⟨_, rfl, ih.1.trans (ParseState.spanFrom_congr hs), .then_still ih.2 hs⟩
  | @functionParts s s' _ _ _ h ih =>
    have ho : s'.scopes.outline = s.scopes.outline := Walk.RunsInside.outline h.bare
    exact ⟨ih.1, ih.2 (Scopes.strict_congr (s := s.scopes) ho)⟩
  | functionInside hp hc ha _ ihp ihb => exact .functionInside rfl rfl hp hc ha ihp ihb
  | soleParameter _ _ h => exact .node (ParseState.lays_bindingName h)
  | restFormal hk _ _ ih => exact .forget (.node (.after_next hk ih))
  | formal _ _ ih => exact .node ih
  | defaultFormal _ hk _ ih ihd => exact .node (.append ih (.after_next hk ihd))
  | blockBody hk h hf ih => exact .blockBody hk h hf ih
  | expressionBody _ _ h hf ih => exact .expressionBody h hf ih
  | patternTarget _ _ _ ih => exact .then_still (.target ih) (ParseState.sight_awaitWrite _ _ _)
  | patternElement _ _ ih ihd => exact .node (.append ih ihd)
  | patternProperty _ _ _ ihx iht ihd =>
    refine .node ?_
    have hl := Lays.append (iht _ ihx) ihd
    simpa [Node.children] using hl
  | propertyTarget hk _ ih => exact fun _ h₀ => .append h₀ (.after_next hk ih)
  | shorthandTarget _ h =>
    obtain ⟨hs, hp⟩ := ParseState.bindName_ok h
    exact fun ns h₀ => .binding (.then_still h₀ hs) rfl hp

end Reading

end EcmaFront
