import EcmaFront.Proofs.Course
import EcmaFront.Proofs.SourceLayout

/-!
Where lines end in an accepted program. A statement that is not enclosed ends with a semicolon where
the line goes on, and what the grammar keeps on one line is on one.
-/

set_option autoImplicit false

namespace EcmaFront

open Node (All AreLined)
open Node.AreLined (inherits)
open ParseState (Runs Joins)
open Parse (atLetDeclaration_glances atArrowFunction_glances labelsLoop_glances accessor?_glances
  headKind?_glances followsBrackets_glances)

namespace ParseState

variable {solid : Bool} {c : ParseContext} {s s₀ s₁ s' : ParseState} {ns ms : List Node} {a : Stmt}

/-- The head of a loop up to `s`, in its block. A declaration in it is not a statement that must be
ended. -/
structure Enters (s₀ : ParseState) (ns : List Node) (s : ParseState) : Prop where
  runs : ∃ ms, s₀.Runs true ms s ∧ ∀ g ts, AreLined g ts ms → All (·.Lined g ts) ns
  outline : s.scopes.outline = s₀.scopes.pushBlock.outline

namespace Enters

theorem append {ks : List Node} (h : s₀.Enters ns s) (h' : s.Runs solid ks s')
    (ho : s'.scopes.outline = s.scopes.outline)
    (hm : ∀ g ts, AreLined g ts ks →
      All (·.Lined g ts) ms := by exact fun _ _ h n hn => (h n hn).1) :
    s₀.Enters (ns ++ ms) s' := by
  obtain ⟨⟨js, hj, hl⟩, ho₀⟩ := h
  refine ⟨⟨js ++ ks, hj.append h', fun g ts hs => ?_⟩, ho.trans ho₀⟩
  obtain ⟨h₁, h₂⟩ := List.forall_mem_append.1 hs
  exact .append (hl g ts h₁) (hm g ts h₂)

theorem append_nil (h : s₀.Enters ns s) (h' : s.Runs solid [] s')
    (ho : s'.scopes.outline = s.scopes.outline) :
    s₀.Enters ns s' := by
  have h : s₀.Enters (ns ++ []) s' := append h h' ho
  simpa using h

theorem glanced (h : s₀.Enters ns s) (hg : s.Glances s') : s₀.Enters ns s' :=
  h.append_nil (.again hg.again (.refl _)) (congrArg Scopes.outline hg.resembles.scopes)

theorem declare {d : VariableDeclaration Expr Pat} (h : s₀.Enters ns s) (hk : s.kind.isPlain = true)
    (hd : s.next.Runs true (d.declarators.map .declarator) s')
    (ho : s'.scopes.outline = s.scopes.outline) :
    s₀.Enters (ns ++ [.statement (.declaration d)]) s' :=
  h.append (.after_next rfl hd hk) ho fun _ _ hl =>
    .one (.of_children trivial nofun fun m hm => (hl m hm).1)

theorem loop {scope : Environment} {body : Stmt} (h : s₀.Enters ns s) (hc : s.kind = .rightParen)
    (hb : s.next.Runs true [.statement body] s₁) (ho : s₁.scopes.outline = s.scopes.outline)
    (hf : Parse.finishBlock c s₁ = (.ok scope, s')) (hn : a.nodes = ns ++ [.statement body])
    (hs : (Node.statement a).statements = [body] := by rfl)
    (hj : ∀ g ts, (Node.statement a).IsJoined g ts := by intro _ _; trivial)
    (he : ∀ g ts, a.IsEnded g ts := by intro _ _; trivial) : s₀.Runs true [.statement a] s' := by
  obtain ⟨⟨js, hr, hl⟩, ho₀⟩ := h
  have hr := (Runs.append (hr.then_next hc) hb).then_still (sight_finishBlock (ho.trans ho₀) hf)
  refine hr.map fun g ts h => .one ⟨.of_children (hj g ts) ?_ ?_, he g ts⟩
  · rw [hs]
    exact List.forall_mem_singleton.2 (h (.statement body) (by simp)).2
  · obtain ⟨h₁, h₂⟩ := List.forall_mem_append.1 h
    show ∀ n ∈ a.nodes, n.Lined g ts
    rw [hn]
    exact List.forall_mem_append.2 ⟨hl g ts h₁, fun n hn => (h₂ n hn).1⟩

end Enters

end ParseState

/-- How lines are kept where a phrase is read. A phrase that was begun before is read on. -/
def Nonterminal.Runs : (g : Nonterminal .tree) → ParseState → g.Result → ParseState → Prop
  | .item, s, a, s' | .statement, s, a, s' | .statementInside, s, a, s' | .loopBody, s, a, s' =>
    s.Runs true [.statement a] s'
  | .functionDeclaration, s, a, s' | .variableStatement _, s, a, s' =>
    s.next.Runs true [.statement a] s'
  | .declarators _ _, s, list, s' => s.Runs true (list.declarators.map .declarator) s'
  | .declarator _ _, s, d, s' => s.Runs true [.declarator d.1] s'
  | .declaratorTarget _, s, p, s' | .catchParameter, s, p, s' | .parameterTarget, s, p, s'
  | .pattern _, s, p, s'
  | .patternInside _, s, p, s' => s.Runs true [.pattern p] s'
  | .block, s, a, s' => (∃ b, a = .block b) ∧ s.Runs true [.statement a] s'
  | .itemsUntil _, s, as, s' | .items _ _, s, as, s' => s.Runs false (as.map .statement) s'
  | .body _ start, s, as, s' =>
    ∀ s₀ : ParseState, start = s₀.checkpoint → s₀.sight.Trail [] s.sight →
      s₀.Runs false (as.map .statement) s'
  | .directives _, _, _, _ => True
  | .forHead _, s, a, s' | .assigningLoop _, s, a, s' | .expressionLoop _, s, a, s' =>
    ∀ s₀ : ParseState, s₀.Enters [] s → s₀.Runs true [.statement a] s'
  | .declaringLoop _ _, s, a, s' =>
    s.kind.isPlain = true → ∀ s₀ : ParseState, s₀.Enters [] s → s₀.Runs true [.statement a] s'
  | .countedLoop _ init, s, a, s' => ∀ s₀ : ParseState,
    s₀.Enters ((init.map ForInit.ofStmt).elim [] ForInit.nodes) s → s₀.Runs true [.statement a] s'
  | .eachLoop _ left _, s, a, s' =>
    s.kind.isPlain = true → ∀ s₀ : ParseState, s₀.Enters left.ofStmt.nodes s →
      s₀.Runs true [.statement a] s'
  | .expressionBefore _, s, e, s' | .patternDefault, s, e, s' => s.Runs false (optional e) s'
  | .clauses _, s, cs, s' => s.Runs false (cs.map .clause) s'
  | .clauseTest _, s, test, s' => s.Runs true (optional test) s'
  | .catchClause, s, handler, s' => s.kind = .kwCatch → s.Runs true [.handler handler.ofStmt] s'
  | .condition, s, e, s' | .assignment, s, e, s' | .assignmentInside, s, e, s'
  | .plainAssignment, s, e, s'
  | .conditional, s, e, s' | .binary, s, e, s' | .unary _, s, e, s' | .postfixed, s, e, s'
  | .leftHandSide, s, e, s'
  | .head, s, e, s' | .primary, s, e, s' | .expression, s, e, s' | .spreadable, s, e, s'
  | .functionNode _ _, s, e, s' => s.Runs true [.expression e] s'
  | .attempt accept, s, found, s' => (∀ s j, accept (s.withJournal j) = accept s) →
    ∀ p, found = some p → s.Runs true [.pattern p] s'
  | .binaryRest scan, s, e, s' => ∀ s₀ : ParseState,
    s₀.Runs true (scan.operands.map fun p => .expression p.expression) s →
    s₀.Runs true [.expression e] s'
  | .operand, s, p, s' => s.Runs true [.expression p.expression] s'
  | .news _, s, found, s' =>
    ∀ s₀ : ParseState, s₀.Runs false [] s → s₀.Runs found.2.isSome (optional found.2) s'
  | .members _ _ chain, s, chain', s' => ∀ s₀ : ParseState,
    s₀.Runs true [.expression chain.expression] s → s₀.Runs true [.expression chain'.expression] s'
  | .arguments, s, es, s' => s.Runs true (es.map .expression) s'
  | .moreExpressions, s, es, s' | .argumentList, s, es, s' => s.Runs false (es.map .expression) s'
  | .elements, s, es, s' => s.Runs false (es.filterMap (·.map .expression)) s'
  | .properties _ _, s, ps, s' => s.Runs false (ps.map .property) s'
  | .property _ _, s, p, s' => s.Runs true [.property p.1] s'
  | .propertyValue _ _ _, s, found, s' => s.Runs false [.expression found.2.1] s'
  | .propertyKey, s, key, s' => s.Runs true key.nodes s'
  | .patternKey, s, found, s' => s.Runs true found.1.nodes s'
  | .functionParts _ _, s, f, s' => s.Joins (.expression (.function f)) s'
  | .functionInside _ _ _, s, f, s' => s'.strict = s.strict → s.Joins (.expression (.function f)) s'
  | .functionBody _ _, s, found, s' =>
    s'.strict = s.strict → ∀ span, s.Runs true (found.1.nodes span) s'
  | .parameters _, s, ps, s' => s.Runs true (ps.map .parameter) s'
  | .formals, s, ps, s' => s.Runs false (ps.map .parameter) s'
  | .formal, s, p, s' => s.Runs true [.parameter p] s'
  | .patternElements _, s, parts, s' =>
    s.Runs false (parts.elements.filterMap (·.map .element) ++ parts.rest.toList.map .pattern) s'
  | .patternElement _, s, e, s' => s.Runs true [.element e] s'
  | .patternProperties _, s, ps, s' => s.Runs false (ps.map .patternProperty) s'
  | .patternProperty _, s, p, s' => s.Runs true [.patternProperty p] s'
  | .patternPropertyTarget _ _ _, s, found, s' => s.Runs false [.pattern found.1] s'

theorem Node.AreLined.reduce {g : Gaps} {ts : List Token} {scan : Parse.BinaryScan Expr}
    {precedence : Nat} {waiting : List (Parse.Waiting Expr)} {left : Parse.Placed Expr}
    (h : AreLined g ts (scan.operands.map fun p => .expression p.expression))
    (hr : Parse.reduce (B := .tree) precedence scan.waiting scan.operand = (waiting, left)) :
    AreLined g ts ((Parse.BinaryScan.operands ⟨waiting, left⟩).map fun p =>
      .expression p.expression) := by
  have each (scan : Parse.BinaryScan Expr) :
      AreLined g ts (scan.operands.map fun p => .expression p.expression) ↔
      (∀ w ∈ scan.waiting, AreLined g ts [.expression w.left.expression]) ∧
        AreLined g ts [.expression scan.operand.expression] := by
    simp only [AreLined, All, Parse.BinaryScan.operands, List.map_append, List.map_map,
      List.map_reverse, List.forall_mem_append, List.mem_reverse, List.mem_map, List.mem_singleton,
      forall_eq, forall_exists_index, and_imp, forall_apply_eq_imp_iff₂, List.map_cons,
      List.map_nil, Function.comp_apply]
  obtain ⟨hw, ho⟩ := (each scan).1 h
  exact (each ⟨waiting, left⟩).2 ((inherits g ts).reduce hw ho hr)

variable {P : Prop} {c : ParseContext} {s s₁ s₂ s₃ s' : ParseState}

theorem Node.isJoined_jump {span : Span} {word : TokenKind} {g : Gaps} {ts : List Token}
    (make : Span → Option String → Stmt)
    (hm : ∀ name, g.Leads ts span word (fun u => u.kind = .identifier ∧ u.text = name) →
      (Node.statement (make span (some name))).IsJoined g ts)
    (hn : (Node.statement (make span none)).IsJoined g ts) (label : Option String)
    (hl : ∀ name, label = some name → g.Leads ts span word fun u => u.kind = .identifier ∧
      u.text = name) :
    (Node.statement (make span label)).IsJoined g ts := by
  cases label with
  | none => exact hn
  | some name => exact hm name (hl name rfl)

/-! Rules of the grammar with several parts. -/

namespace Nonterminal.Runs

variable {a : Stmt} {e : Expr} {p : Pat} {scope : Environment} {span : Span}

theorem doWhileStatement (hk : s.kind = .kwDo) (hb : Nonterminal.Runs .loopBody s.next a s₁)
    (hw : s₁.kind = .kwWhile) (ht : Nonterminal.Runs .condition s₁.next e s₂) :
    s.Runs true [.statement (.doWhile span a e)]
      (if s₂.kind = .semicolon then s₂.next else s₂) := by
  have hs : s₂.Runs false [] (if s₂.kind = .semicolon then s₂.next else s₂) := by
    split
    · next hs => exact .forget (.next hs rfl)
    · exact .refl _
  have hl := Runs.after_next hk (.append hb (.after_next hw (.append_nil ht hs) rfl)) rfl
  exact .node hl (fun _ _ => trivial) fun _ _ => trivial

theorem switchStatement {cs : List (SwitchClause Expr Stmt)} (hk : s.kind = .kwSwitch)
    (hd : Nonterminal.Runs .condition s.next e s₁) (ho : s₁.kind = .leftBrace)
    (h : Reading .tree P c (.clauses false) (s₁.next.onScopes (·.pushBlock.beginSwitch)) cs s₂)
    (hc : Nonterminal.Runs (.clauses false) (s₁.next.onScopes (·.pushBlock.beginSwitch)) cs s₂)
    (he : s₂.kind = .rightBrace)
    (hf : Parse.finishBlock c (s₂.onScopes .endSwitch).next = (.ok scope, s')) :
    s.Runs true [.statement (.switch span e cs scope)] s' := by
  have hc : s₁.next.Runs false (cs.map .clause) (s₂.onScopes .endSwitch) :=
    .congr (ParseState.sight_beginSwitch _) (.then_still hc (ParseState.sight_endSwitch _))
  have hs := ParseState.sight_finishBlock h.outline_endSwitch hf
  have hl := Runs.then_still (.between ho hc he rfl rfl) hs
  exact .node (.after_next hk (.append hd hl) rfl) (fun _ _ => trivial) fun _ _ => trivial

theorem labeledStatement {isLoop : Bool} (hk : s.kind = .identifier)
    (hc : Parse.colonFollows c s = (.ok true, s₁)) (hc' : s₁.next.kind = .colon)
    (hl : Parse.labelsLoop c s₁.next.next = (.ok isLoop, s₂))
    (h : Nonterminal.Runs .statement (s₂.onScopes (·.pushLabel s₁.token.text isLoop)) a s') :
    s.Runs true [.statement (.labeled span s₁.token.text a)] (s'.onScopes .popLabel) := by
  have hb := Runs.congr (ParseState.sight_pushLabel _ _ _)
    (.then_still h (ParseState.sight_popLabel s'))
  have hb := Runs.again (labelsLoop_glances hl).again hb
  have ha := ParseState.again_of_colonFollows hk hc
  refine .again_of_plain ha (hk ▸ rfl) fun hk' => ?_
  have hl := Runs.after_next (hk'.trans hk) (.after_next hc' hb rfl) rfl
  exact .node hl (fun _ _ => trivial) fun _ _ => trivial

theorem functionDeclaration {name : String} {header : Parse.FunctionHeader} {f : Function}
    {conflicts : Conflicts}
    (hk : s.next.kind = .identifier)
    (hd : Parse.declaring (·.declare name (Parse.functionNameKind s.next)) c s.next =
      (.ok conflicts, s₁))
    (h : Nonterminal.Runs (.functionParts s.start header) s₁.next f s₂)
    (hr : Parse.recordFunction f c s₂ = (.ok (), s')) :
    Nonterminal.Runs .functionDeclaration s (.function f) s' := by
  have hs := ParseState.sight_recordFunction hr
  have hd := ParseState.sight_declaresFunction hd
  have hk := (ParseState.kind_congr hd).trans hk
  have hl : s₁.next.Runs true [.statement (.function f)] s₂ :=
    .node h.runs (fun _ _ => trivial) fun _ _ => trivial
  exact .congr hd (.after_next hk (.then_still hl hs) rfl)

theorem restartedBody {close : TokenKind} {start : Checkpoint} {before as : List Stmt}
    (hd : Reading .tree P c (.directives close) s before s₁) (h : Reading .tree P c .item s₁ a s₂)
    (hn : s₂.strict = false) (he : Parse.enableStrict s₁.token.extent c s₂ = (.ok (), s₃))
    (hb : Nonterminal.Runs (.body close start) (s₃.restart s₁.token.extent.start start) as s') :
    Nonterminal.Runs (.body close start) s as s' := by
  rintro s₀ rfl ht hr
  exact hb s₀ rfl (hd.trail_restart h hn he ht hr) hr

theorem loopBody (h : Nonterminal.Runs .statement (s.onScopes .beginLoop) a s') :
    Nonterminal.Runs .loopBody s a (s'.onScopes .endLoop) :=
  .congr (ParseState.sight_beginLoop s) (.then_still h (ParseState.sight_endLoop s'))

theorem declaringHead {start : Position} {kind : VariableKind}
    (hh : Parse.headKind? c s = (.ok (some kind), s₁))
    (ih : Nonterminal.Runs (.declaringLoop start kind) s₁ a s') :
    Nonterminal.Runs (.forHead start) s a s' := by
  intro s₀ h₀ hr
  obtain ⟨_, h, -⟩ := h₀.runs
  obtain ⟨_, hl⟩ := h hr
  have hf := ParseState.isFlat_of_headKind? hh
  have hk := ParseState.kind_again (headKind?_glances hh).again (hl.trail.passes hr).ready hf
  exact ih (hk ▸ TokenKind.isPlain_of_isFlat hf) s₀ (h₀.glanced (headKind?_glances hh)) hr

theorem expressionEach {start : Position} {loop : EachLoop} {extent : Extent} {allowed : Bool}
    (hl : Reading .tree P c .expression (s.allow false) e s₁) (ho : s₁.eachLoop? = some loop)
    (hw : Parse.noteAssignment .tree e extent c (s₁.allow allowed) = (.ok (), s₂))
    (ihl : Nonterminal.Runs .expression (s.allow false) e s₁)
    (ih : Nonterminal.Runs (.eachLoop start (.expression e) loop) s₂ a s') :
    Nonterminal.Runs (.expressionLoop start) s a s' := by
  have hs := ParseState.sight_noteAssignment hw
  have hn : (Walk.bare c).Leads _ _ _ := Walk.noteAssignment hw
  have hk := TokenKind.isPlain_of_isFlat (ParseState.isFlat_of_eachLoop? ho)
  intro s₀ h₀
  refine ih (ParseState.kind_congr hs ▸ hk) s₀ (h₀.append (.then_still ihl hs) ?_)
  exact hn.outline.trans hl.bare.outline

theorem catchClause {as : List Stmt} (ho : s.next.kind = .leftParen)
    (hp : Reading .tree P c .catchParameter (s.next.next.onScopes .pushBlock) p s₁)
    (hc : s₁.kind = .rightParen) (hb : s₁.next.kind = .leftBrace)
    (h : Reading .tree P c (.itemsUntil (· == .rightBrace)) s₁.next.next as s₂)
    (he : s₂.kind = .rightBrace) (hf : Parse.finishBlock c s₂.next = (.ok scope, s'))
    (ihp : Nonterminal.Runs .catchParameter (s.next.next.onScopes .pushBlock) p s₁)
    (ih : Nonterminal.Runs (.itemsUntil (· == .rightBrace)) s₁.next.next as s₂) :
    Nonterminal.Runs .catchClause s
      ⟨s'.spanFrom s.start, p, .block ⟨s'.spanFrom s₁.next.start, as, scope⟩⟩ s' := by
  intro hk
  have hx : s₂.next.scopes.outline = s.scopes.pushBlock.outline :=
    h.bare.outline.trans (hp.bare fun _ => rfl).outline
  have hs := ParseState.sight_finishBlock hx hf
  have hb : s₁.next.Runs true [.statement (.block ⟨s'.spanFrom s₁.next.start, as, scope⟩)] s' :=
    .then_still (.node (.between hb ih he rfl rfl) (fun _ _ => trivial) fun _ _ => trivial) hs
  have hl := Runs.append (.between ho ihp hc rfl rfl) hb
  exact .node (.after_next hk hl rfl) (fun _ _ => trivial) fun _ _ => trivial

theorem patternAssignment (ha : Parse.atArrowFunction c s = (.ok false, s₁))
    (ht : Reading .tree P c (.attempt (·.kind == .equal)) s₁ (some p) s₂)
    (iht : Nonterminal.Runs (.attempt (·.kind == .equal)) s₁ (some p) s₂)
    (ihv : Nonterminal.Runs .assignment s₂.next e s') :
    s.Runs true [.expression (.assignPattern span p e)] s' := by
  obtain ⟨-, _, he, hs⟩ := ht.accepted
  have he := (congrArg Token.kind hs).trans (beq_iff_eq.1 he)
  have ht := Runs.again (atArrowFunction_glances ha).again (iht (fun _ _ => rfl) _ rfl)
  have hl := Runs.append ht (.after_next he ihv rfl)
  exact .node hl (fun _ _ => trivial) fun _ _ => trivial

theorem binaryMore {scan : Parse.BinaryScan Expr} {op : BinaryOp}
    {waiting : List (Parse.Waiting Expr)} {left operand : Parse.Placed Expr} {precedence : Nat}
    (hk : s.binaryOp? = some op)
    (hr : Parse.reduce (B := .tree) precedence scan.waiting scan.operand = (waiting, left))
    (h : Nonterminal.Runs .operand s.next operand s₁)
    (ht : Nonterminal.Runs (.binaryRest ⟨⟨left, op, precedence⟩ :: waiting, operand⟩) s₁ e s') :
    Nonterminal.Runs (.binaryRest scan) s e s' := by
  intro s₀ h₀
  have hf := TokenKind.isPlain_of_isFlat (ParseState.isFlat_of_binaryOp? hk)
  have hl := Runs.append (h₀.map fun g ts h => h.reduce hr) (.after_next rfl h hf)
  refine ht s₀ ?_
  simpa [Parse.BinaryScan.operands] using hl

theorem functionInside {start : Position} {header : Parse.FunctionHeader} {outerIn : Bool}
    {f : Function} (hf : f.form = header.form) (hs : f.parametersStart = s.token.extent.start)
    (hx : f.bodySpan.start = s₃.start)
    (hp : Reading .tree P c (.parameters header) s f.parameters s₁)
    (hc : Parse.checkParameters header f.parameters c s₁ = (.ok (), s₂))
    (ha : (if header.form == .arrow then Parse.consumeArrow else pure ()) c s₂ = (.ok (), s₃))
    (ihp : Nonterminal.Runs (.parameters header) s f.parameters s₁)
    (ihb : Nonterminal.Runs (.functionBody header outerIn) s₃ (f.body, f.scope) s') :
    Nonterminal.Runs (.functionInside start header outerIn) s f s' := by
  intro he
  have ho := hp.outline_parameters hc ha
  have hb := ihb (he.trans (Scopes.strict_congr ho).symm) f.bodySpan
  exact ParseState.joins_function ihp hp.lays (ParseState.sight_checkParameters hc) ha hb hf hs hx

theorem blockBody {header : Parse.FunctionHeader} {outerIn : Bool} {as : List Stmt}
    {found : ScopeSummary} (hk : s.kind = .leftBrace)
    (h : Reading .tree P c (.body .rightBrace s.next.checkpoint) s.next as s₁)
    (hf : Parse.finishFunction c s₁ = (.ok found, s₂))
    (ih : Nonterminal.Runs (.body .rightBrace s.next.checkpoint) s.next as s₁) :
    Nonterminal.Runs (.functionBody header outerIn) s (.block as, found) s₂.next := by
  intro hs _
  have he : s₁.kind = .rightBrace := h.closes
  have hn := ParseState.sight_leave (Parse.onlyScopes_finishFunction hf).spot
  have hl := Runs.leaving (.after_next hk (ih _ rfl .nil) rfl) he hs.trans hn rfl
  exact .node hl (fun _ _ => trivial) fun _ _ => trivial

theorem expressionBody {header : Parse.FunctionHeader} {outerIn : Bool} {found : ScopeSummary}
    (h : Reading .tree P c .assignment (s.allow outerIn) e s₁)
    (hf : Parse.finishFunction c (s₁.allow s.allowsIn) = (.ok found, s'))
    (ih : Nonterminal.Runs .assignment (s.allow outerIn) e s₁) :
    Nonterminal.Runs (.functionBody header outerIn) s (.expression e, found) s' := by
  intro hs _
  have ho := h.bare.outline
  exact .then_still ih (ParseState.sight_congr (Parse.onlyScopes_finishFunction hf).spot
    (hs.trans (Scopes.strict_congr ho).symm))

end Nonterminal.Runs

namespace Reading

/-- By induction on the reading. What a line matters to is told where the last token of it is
consumed, and the nodes around it keep that. -/
theorem runs {g : Nonterminal .tree} {a : g.Result} (h : Reading .tree P c g s a s') :
    g.Runs s a s' := by
  induction h with
  | itemFunction hk _ ih | itemConst hk _ ih | varStatement hk _ ih | functionStatement hk _ _ ih
  | caseClause hk _ ih | functionExpression hk _ _ ih => exact .after_next hk ih
  | itemLet hk hl _ ih =>
    exact .again_of_plain (atLetDeclaration_glances hl).again (hk ▸ rfl) fun hk' => .after_next
      (hk'.trans hk) ih
  | itemLetName _ hl _ ih => exact .again (atLetDeclaration_glances hl).again ih
  | itemStatement _ _ ih | statement _ _ ih | lastDeclarator _ _ ih | declaratorPattern _ _ ih
  | emptyHead _ _ ih | catchPattern _ _ _ ih | assignment _ _ ih | noAssignment _ _ ih
  | noConditional _ _ ih | operand _ ih | noUnary _ _ ih | noPostfix _ _ ih | primaryHead _ _ ih
  | single _ _ ih | noSpread _ _ ih | parameterPattern _ _ _ ih | pattern _ _ ih => exact ih
  | blockStatement _ _ ih => exact ih.2
  | emptyStatement hk => exact .node (.next hk)
  | ifStatement hk _ _ _ iht ihc => exact .node (.after_next hk (.append iht ihc))
  | ifElseStatement hk _ _ he _ iht ihc iha =>
    exact .node (.after_next hk (.append iht (.append ihc (.after_next he iha))))
  | forStatement hk ho _ ih => exact ih _ ⟨⟨[], .after_next hk (.next ho), fun _ _ _ => .nil⟩, rfl⟩
  | whileStatement hk _ _ iht ihb => exact .node (.after_next hk (.append iht ihb))
  | doWhileStatement hk _ hw _ he ihb iht => exact he ▸ .doWhileStatement hk ihb hw iht
  | continueStatement hk h =>
    exact ParseState.runs_jump h hk (fun _ _ => ⟨rfl, rfl⟩)
      (fun _ label _ _ => Node.isJoined_jump .continueTo (fun _ h => h) trivial label)
      fun _ _ _ _ h => h
  | breakStatement hk h =>
    exact ParseState.runs_jump h hk (fun _ _ => ⟨rfl, rfl⟩)
      (fun _ label _ _ => Node.isJoined_jump .breakTo (fun _ h => h) trivial label)
      fun _ _ _ _ h => h
  | returnStatement hk _ _ he | debuggerStatement hk he =>
    exact Joins.ended (.of_runs (.next hk)) he
  | returnValueStatement hk _ hm h he ih =>
    simp only [ParseState.mayEnd, Bool.or_eq_false_iff] at hm
    exact Joins.ended (ParseState.leads_operand hk hm.2 ih h.lays) he
  | withStatement hk _ _ _ iho ihb =>
    exact .node (.after_next hk (.append iho (.congr (ParseState.sight_touched .activate) ihb)))
  | switchStatement hk _ ho hc he hf ihd ihc => exact .switchStatement hk ihd ho hc ihc he hf
  | throwStatement hk hn h he ih => exact Joins.ended (ParseState.leads_operand hk hn ih h.lays) he
  | tryCatch hk hg hc hh _ ihg ihh =>
    obtain ⟨⟨b, rfl⟩, hg⟩ := ihg
    have hh := Runs.append hg (ihh hc)
    exact .node (.after_next hk hh)
  | tryFinally hk hg _ hf hb ihg ihb =>
    obtain ⟨⟨b, rfl⟩, hg⟩ := ihg
    obtain ⟨⟨b', rfl⟩, hb⟩ := ihb
    exact .node (.after_next hk (.append hg (.after_next hf hb)))
  | tryCatchFinally hk hg hc hh hf hb ihg ihh ihb =>
    obtain ⟨⟨b, rfl⟩, hg⟩ := ihg
    obtain ⟨⟨b', rfl⟩, hb⟩ := ihb
    have hh := Runs.append hg (Runs.append (ihh hc) (.after_next hf hb))
    exact .node (.after_next hk hh)
  | letExpressionStatement _ hl _ he ih =>
    exact .again (atLetDeclaration_glances hl).again (Joins.ended (.of_runs ih) he)
  | labeledStatement hk hc _ hc' hl _ ih => exact .labeledStatement hk hc hc' hl ih
  | nameStatement hk hc _ he ih =>
    exact .again (ParseState.again_of_colonFollows hk hc) (Joins.ended (.of_runs ih) he)
  | expressionStatement _ _ he ih | variableStatement _ he ih => exact Joins.ended (.of_runs ih) he
  | functionDeclaration hk hd _ _ hr ih => exact Nonterminal.Runs.functionDeclaration hk hd ih hr
  | moreDeclarators _ hk _ ih ihs => exact .append ih (.after_next hk ihs)
  | initializedDeclarator _ hn hk hw _ iht ihi =>
    have hn := ParseState.sight_takeBoundNames hn
    have hw := ParseState.sight_writeNames hw
    exact .node (.append (.then_still iht hn) (.after_next hk (.congr hw ihi)))
  | bareDeclarator _ hn _ _ iht =>
    exact .node (.then_still iht (ParseState.sight_takeBoundNames hn))
  | declaratorName _ h | catchName _ h | parameterName _ h | patternName _ _ h =>
    exact .of_lays (ParseState.lays_bindingName h) fun g ts => (inherits g ts).bindingName h
  | @block s s₁ _ _ _ hk h he hf ih =>
    have ho : s₁.next.scopes.outline = s.scopes.pushBlock.outline := h.bare.outline
    exact ⟨⟨_, rfl⟩, .then_still (.node (.between hk ih he)) (ParseState.sight_finishBlock ho hf)⟩
  | noItems | bodyEnd | noExpressionBefore | noClauses | noMoreExpressions | noArguments
  | noElements | noProperties | noFormals | noPatternElements | noPatternDefault
  | noPatternProperties => exact .refl _
  | moreItems _ _ _ _ ih ihs => exact .forget (.append ih ihs)
  | body _ ih => exact fun s₀ _ ht => .behind ht ih
  | restartedBody hd _ _ h _ _ hn he _ _ _ ihb => exact .restartedBody hd h hn he ihb
  | noDirectives | moreDirectives => trivial
  | directiveItem _ _ _ _ _ _ ih iht | bodyItem _ _ _ _ _ ih iht => exact .forget (.append ih iht)
  | condition ho _ hc ih | parameters _ ho _ hc ih => exact .between ho ih hc
  | loopBody _ ih => exact Nonterminal.Runs.loopBody ih
  | declaringHead _ hh _ ih => exact .declaringHead hh ih
  | assigningHead _ hh _ ih => exact fun s₀ h₀ => ih s₀ (h₀.glanced (headKind?_glances hh))
  | declaringEach hd hl _ _ ihd ih =>
    have hl := TokenKind.isPlain_of_isFlat (ParseState.isFlat_of_eachLoop? hl)
    exact fun hk s₀ h₀ => ih hl s₀ (h₀.declare hk ihd hd.bare.outline)
  | declaringCounted hd _ _ _ ihd ih =>
    exact fun hk s₀ h₀ => ih s₀ (h₀.declare hk ihd hd.bare.outline)
  | patternEach ht hl _ iht ih =>
    have ht := (ht.bare fun _ _ => rfl).outline
    have hl := TokenKind.isPlain_of_isFlat (ParseState.isFlat_of_eachLoop? hl)
    exact fun s₀ h₀ => ih hl s₀ (h₀.append (iht (fun _ _ => rfl) _ rfl) ht)
  | noPatternLoop ht _ _ ih =>
    have hg := again_of_no_attempt (fun _ _ => rfl) ht rfl
    exact fun s₀ h₀ => ih s₀ (h₀.append_nil (.again hg (.refl _)) (ht.bare fun _ _ => rfl).outline)
  | expressionEach hl ho _ hw _ ihl ih => exact .expressionEach hl ho hw ihl ih
  | expressionCounted hl _ _ ihl ih => exact fun s₀ h₀ => ih s₀ (h₀.append ihl hl.bare.outline)
  | countedLoop h₁ ht h₂ hu h₃ hb hf iht ihu ihb =>
    intro s₀ h₀
    have ho := hu.bare.outline.trans ht.bare.outline
    have hh := h₀.append (.after_next h₁ (.append iht (.after_next h₂ ihu))) ho
    exact hh.loop h₃ ihb hb.bare.outline hf (by simp [Stmt.nodes])
  | forOf hr hc hb hf ihr ihb | forIn hr hc hb hf ihr ihb =>
    intro hk s₀ h₀
    have hh := h₀.append (.after_next rfl ihr hk) hr.bare.outline
    exact hh.loop hc ihb hb.bare.outline hf (by simp [Stmt.nodes])
  | someExpressionBefore _ _ ih | lastArgument _ _ _ ih | lastElement _ _ _ _ ih
  | lastProperty _ _ _ ih | method _ _ ih | lastFormal _ _ _ _ ih | lastPatternElement _ _ _ ih
  | lastPatternProperty _ _ _ ih => exact .forget ih
  | moreClauses _ _ hc _ _ iht ihb ih =>
    exact .forget (.append (.node (.append iht (.after_next hc ihb))) ih)
  | defaultClause hk => exact .next hk
  | catchClause ho hp hc hb h he hf ihp ih => exact .catchClause ho hp hc hb h he hf ihp ih
  | arrowFunction ha _ ih => exact .again (atArrowFunction_glances ha).again ih
  | patternAssignment ha ht _ iht ihv => exact Nonterminal.Runs.patternAssignment ha ht iht ihv
  | noPatternAssignment ha ht _ _ ih =>
    exact .again ((atArrowFunction_glances ha).again.trans
      (again_of_no_attempt (fun _ _ => rfl) ht rfl)) ih
  | targetAssignment _ hk _ hw _ ih ihv =>
    have hs := ParseState.sight_noteAssignment hw
    have hf := TokenKind.isPlain_of_isFlat (TokenKind.isFlat_of_assignOp hk)
    exact .node (.append (.then_still ih hs) (.after_next (ParseState.kind_congr hs) ihv hf))
  | noBracket hk => exact fun _ _ hp => by cases hp
  | noAttempt hk hf => exact fun _ _ hp => by cases hp
  | attempt _ hf _ ha hw ih =>
    rintro ha _ ⟨⟩
    exact .again (followsBrackets_glances ha hf).again
      (.then_still ih (ParseState.sight_commitWrites hw))
  | givenUp hg hk hf h ha => exact fun _ _ hp => by cases hp
  | conditional _ hk _ hc' _ iht ihc iha =>
    exact .node (.append iht (.after_next hk (.append ihc (.after_next hc' iha))))
  | binary _ _ ih ihr => exact ihr _ ih
  | @binaryEnd _ scan =>
    exact fun s₀ h₀ => h₀.map fun g ts h =>
      h.reduce (Prod.ext (Parse.reduce_zero (B := .tree) scan.waiting scan.operand) rfl)
  | binaryMore hk hr _ _ ih iht => exact .binaryMore hk hr ih iht
  | prefixUpdate hk _ _ _ hw ih =>
    have hf := TokenKind.isPlain_of_isFlat (TokenKind.isFlat_of_isUnary hk)
    exact .then_still (.node (.after_next rfl ih hf)) (ParseState.sight_noteAssignment hw)
  | prefixUnary hk _ _ _ _ ih =>
    exact .node (.after_next rfl ih (TokenKind.isPlain_of_isFlat (TokenKind.isFlat_of_isUnary hk)))
  | postfixUpdate h hk hn _ hw ih =>
    have hs := ParseState.sight_noteAssignment hw
    refine ParseState.runs_postfix (.then_still ih hs) (.then_still h.lays hs)
      (ParseState.kind_congr hs ▸ hk) ?_
    exact (congrArg (·.lexer.standing.newline) hs).trans hn
  | leftHandSide _ _ _ ihn ih ihm =>
    exact (ihm _ (.nil_append (ihn _ (.refl _)) ih)).map fun g ts => (inherits g ts).news _ _
  | newTargetSide _ _ ihn ihm =>
    exact (ihm _ (ihn _ (.refl _))).map fun g ts => (inherits g ts).news _ _
  | noNews | membersEnd => exact fun _ h₀ => h₀
  | newTarget hk hd h =>
    have hl := Runs.of_lays (ParseState.lays_newTarget hk hd h).1 fun g ts =>
      (inherits g ts).newTarget h
    exact fun _ h₀ => .nil_append h₀ hl
  | moreNews hk _ _ ih => exact fun s₀ h₀ => ih s₀ (.forget (.append_nil h₀ (.next hk)))
  | superHead hk h =>
    exact .of_lays (ParseState.lays_superExpression hk h) fun g ts =>
      (inherits g ts).superExpression h
  | member hk hn _ ih =>
    have hf := TokenKind.isPlain_of_isFlat (TokenKind.isFlat_of_isIdentifierName hn)
    exact fun s₀ h₀ => ih s₀ (.node (.append_nil h₀ (.after_next hk (.next rfl hf))))
  | index hk _ he _ ihx ih => exact fun s₀ h₀ => ih s₀ (.node (.append h₀ (.between hk ihx he)))
  | construct _ _ _ ihx ih | call _ _ _ ihx ih => exact fun s₀ h₀ => ih s₀ (.node (.append h₀ ihx))
  | namedFunctionExpression hk hn _ ih => exact .after_next hk (.after_next hn ih)
  | group hk _ he ih | arguments hk _ he ih | computedKey hk _ he ih
  | computedPatternKey hk _ he ih => exact .between hk ih he
  | array hk _ he ih | object hk _ he ih | arrayPattern hk _ he ih | objectPattern hk _ he ih =>
    exact .node (.between hk ih he)
  | literal hk => exact .of_lays (ParseState.lays_literal hk) fun g ts => (inherits g ts).literal hk
  | reference hk =>
    have hf := TokenKind.isPlain_of_isFlat (ParseState.isFlat_of_reference? hk)
    exact .node (.then_still (.next rfl hf) (ParseState.sight_use _ _))
  | regexp hk he =>
    exact .of_lays (ParseState.lays_regexp hk he) fun g ts => inherits g ts _ rfl .nil
  | sequence _ _ _ ih ihs => exact .node (.append ih ihs)
  | moreExpressions hk _ _ ih ihs => exact .forget (.after_next hk (.append ih ihs))
  | moreArguments _ _ hc _ ih ihs | moreProperties _ _ hc _ ih ihs
  | moreFormals _ _ _ hc _ ih ihs | morePatternProperties _ _ hc _ ih ihs =>
    exact .forget (.append ih (.after_next hc ihs))
  | spread hk _ ih | spreadProperty hk _ ih => exact .node (.after_next hk ih)
  | hole hk _ ih | value hk _ _ ih | patternHole hk _ ih | patternRest hk _ _ ih
  | patternDefault hk _ ih | propertyTarget hk _ ih => exact .forget (.after_next hk ih)
  | moreElements _ _ _ he _ ih ihs => exact .forget (.append ih (.after_next he ihs))
  | @accessor _ s₁ _ _ names _ _ _ _ _ hk ha _ hn _ ihx ih =>
    have hf := TokenKind.isPlain_of_isFlat (ParseState.isFlat_of_accessor? ha)
    have hn := ParseState.sight_noteAccessor s₁ names
    refine .again_of_plain (accessor?_glances ha).again hf fun hk => .node (.congr hn ?_)
    exact .after_next (ParseState.kind_congr hn) (.append ihx ih) (hk ▸ hf)
  | dataProperty _ ha _ _ _ ihx ih =>
    exact .again (accessor?_glances ha).again (.node (.append ihx ih))
  | shorthand => exact .node (.still (ParseState.sight_use _ _))
  | plainKey hk | plainPatternKey hk =>
    exact .of_lays (ParseState.lays_key hk) fun g ts => by
      rw [PropertyKey.nodes_token hk]
      exact .nil
  | functionNode _ hr ih => exact .then_still (Joins.node ih) (ParseState.sight_recordFunction hr)
  | @functionParts s s' _ _ _ h ih =>
    have ho : s'.scopes.outline = s.scopes.outline := Walk.RunsInside.outline h.bare
    exact ih (Scopes.strict_congr (s := s.scopes) ho)
  | functionInside hp hc ha _ ihp ihb => exact .functionInside rfl rfl rfl hp hc ha ihp ihb
  | soleParameter _ _ h =>
    exact .node (.of_lays (ParseState.lays_bindingName h) fun g ts => (inherits g ts).bindingName h)
  | restFormal hk _ _ ih => exact .forget (.node (.after_next hk ih))
  | formal _ _ ih => exact .node ih
  | defaultFormal _ hk _ ih ihd => exact .node (.append ih (.after_next hk ihd))
  | blockBody hk h hf ih => exact .blockBody hk h hf ih
  | expressionBody _ _ h hf ih => exact .expressionBody h hf ih
  | patternTarget _ _ _ ih => exact .then_still (.node ih) (ParseState.sight_awaitWrite _ _ _)
  | morePatternElements _ _ he _ ih ihs =>
    have hl := Runs.append ih (.after_next he ihs)
    exact .forget hl
  | patternElement _ _ ih ihd => exact .node (.append ih ihd)
  | patternProperty _ _ _ ihx iht ihd =>
    refine .node ?_
    have hl := Runs.append (Runs.append ihx iht) ihd
    simpa [Node.children] using hl
  | shorthandTarget _ h =>
    exact (Runs.still (ParseState.bindName_ok h).1).map fun g ts _ => (inherits g ts).bindName h

end Reading

theorem Program.Places.contains {p : Program} {around : List Node} {n : Node}
    (h : p.Places around n) :
    p.Contains n := by
  induction h with
  | item ha => exact ⟨_, ha, .refl _⟩
  | child _ hm ih =>
    obtain ⟨a, ha, hn⟩ := ih
    exact ⟨a, ha, hn.tail hm⟩

/-- Lines end in a program where a semicolon was left out, and do not where the grammar wants one
line. -/
structure Program.KeepsLines (p : Program) (source : Source) (text : List Char) (ts : List Token) :
    Prop where
  /-- A statement that is not in the head of a loop is ended. -/
  ended : ∀ around a, p.Places around (.statement a) → (∀ n ∈ around.head?, ¬n.IsHead a) →
    a.IsEnded (source.gaps text ts) ts
  joined : ∀ n, p.Contains n → n.IsJoined (source.gaps text ts) ts

namespace Parse

variable {source : Source} {options : ParseOptions} {recording : Bool} {p : Program}
  {s' : ParseState} {text : List Char}

/-- A program that was read keeps to lines as its source is seen. -/
theorem runProgram_lined (h : runProgram .tree source options recording = (.ok p, s')) :
    s'.kind = .eof ∧ ∃ ts y, (ParseState.entered source options).sight.Trail ts y ∧
    y.token = s'.token ∧
      (Lexer.ofSource source).Spells ts ∧ AreLined source.view.gaps ts (p.body.map .statement) := by
  obtain ⟨span, body, scope, s, hr, hf, rfl⟩ := runProgram_read h
  have hx := ParseState.ready_entered source options
  obtain ⟨ts, ht, -, hl⟩ := hr.runs _ rfl .nil hx
  have hp := (onlyScopes_finishFunction hf).spot
  simp only [ParseState.spot, Prod.mk.injEq] at hp
  have hs := ht.spells hx ((ht.passes hx).ready.spells_nil hr.closes)
  rw [List.append_nil, ParseState.origin_entered] at hs
  have hv : (ParseState.entered source options).sight.lexer.view = source.view :=
    congrArg Lexer.view (ParseState.origin_entered source options)
  exact ⟨(congrArg Token.kind hp.2.1).trans hr.closes, ts, s.sight, ht, hp.2.1.symm, hs, hv ▸ hl⟩

/-- What the parse of an accepted program consumed on its way to the end of the source is all that
the lexer reads there. Each variable, expression, `return`, `throw`, `break`, `continue` and
`debugger` statement outside the heads of loops ends with a semicolon, or with a token behind which
the source ends, a brace closes or a line terminator stands. No line terminator stands between such
a word and its operand or label, in front of an update sign behind its operand, and in front of an
arrow. -/
theorem lines_are_kept (h : runProgram .tree source options recording = (.ok p, s'))
    (ht : source.Spells text) :
    s'.kind = .eof ∧ ∃ ts y, (ParseState.entered source options).sight.Trail ts y ∧
    y.token = s'.token ∧
      (Lexer.ofSource source).Spells ts ∧ p.KeepsLines source text ts := by
  obtain ⟨hk, ts, y, htr, hy, hs, hl⟩ := runProgram_lined h
  have hg {t u : Token} (hi : [t, u] <:+: ts) :=
    Lexer.Spells.between ht (.ofSource source text) hs hi
  have he (t : Token) (_ : t ∈ ts) : source.view.gaps.mayEnd t →
      (source.gaps text ts).mayEnd t := fun hm u hi =>
    (hg hi).2 hm
  have hj (t u : Token) (hi : [t, u] <:+: ts) : source.view.gaps.sameLine t u →
      (source.gaps text ts).sameLine t u :=
    fun hn he => Bool.eq_false_iff.1 hn ((hg hi).1.1 he)
  have hc (n : Node) : p.Contains n → n.KeepsLines (source.gaps text ts) ts := fun ⟨a, ha, hn⟩ =>
    ((hl _ (List.mem_map_of_mem ha)).1 n hn).imp hj he
  refine ⟨hk, ts, y, htr, hy, hs, fun around a hp hh => ?_, fun n hn => (hc n hn).joined⟩
  by_cases hb : ∃ b, a = .block b
  · obtain ⟨b, rfl⟩ := hb
    trivial
  cases hp with
  | item ha => exact Stmt.IsEnded.imp he (hl _ (List.mem_map_of_mem ha)).2
  | @child _ n _ hp hm =>
    exact (hc n hp.contains).ended a
      (Node.mem_statements_of_mem_children hm (not_exists.1 hb) (hh n rfl))

theorem lines_are_kept_without_semicolons :
    let text := "l:for(let a of(b)){if(a)continue l}\na++\nc=>{return/*{}*/c}"
    let source := Source.ofString text ""
    ∃ p s' ts, runProgram .tree source {} false = (.ok p, s') ∧ source.Spells text.toList ∧
    s'.kind = .eof ∧
      p.KeepsLines source text.toList ts := by
  intro text source
  have h : (runProgram .tree source {} false).1.isOk = true := by decide +kernel
  have ht := Source.spells_utf8 text "" 1
  cases ho : runProgram .tree source {} false with
  | mk outcome s' =>
    rw [ho] at h
    cases outcome with
    | ok p =>
      obtain ⟨hk, ts, -, -, -, -, hl⟩ := lines_are_kept ho ht
      exact ⟨p, s', ts, rfl, ht, hk, hl⟩
    | error e => simp [Except.isOk, Except.toBool] at h

end Parse

end EcmaFront
