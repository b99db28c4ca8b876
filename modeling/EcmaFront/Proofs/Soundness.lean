import EcmaFront.Proofs.Placement

/-!
What the grammar reads is sound.
-/

set_option autoImplicit false

namespace EcmaFront

open Node (AreSound)
open Parse (FunctionHeader DeclarationList)

/-! Leaves of patterns. -/

/-- A leaf of a pattern is what the form of the pattern asks for. -/
def BindingForm.Takes (form : BindingForm) (q : Pat) : Prop :=
  if form = .assignment then ∃ e, q = .target e ∧ e.isTarget = true
  else ∃ span name, q = .binding span name ∧ ∀ kind, form = .variable kind →
    kind ≠ .var → name ≠ "let"

def BindingForm.TakesAll (form : BindingForm) (leaves : List Pat) : Prop :=
  ∀ q ∈ leaves, form.Takes q

namespace BindingForm.TakesAll

variable {form : BindingForm} {ps qs : List Pat}

theorem nil (form : BindingForm) : form.TakesAll [] := nofun

theorem single {q : Pat} (h : form.Takes q) : form.TakesAll [q] := List.forall_mem_singleton.2 h

theorem append (h : form.TakesAll ps) (h' : form.TakesAll qs) : form.TakesAll (ps ++ qs) :=
  List.forall_mem_append.2 ⟨h, h'⟩

theorem isAssignable {p : Pat} (h : BindingForm.assignment.TakesAll p.leaves) :
    p.IsAssignable := fun q hq => by
  simpa [Takes] using h q hq

theorem let_not_mem {kind : VariableKind} {p : Pat}
    (h : (BindingForm.variable kind).TakesAll p.leaves) (hk : kind ≠ .var) :
    "let" ∉ p.names := fun hm => by
  obtain ⟨q, hq, hn⟩ := List.mem_filterMap.1 hm
  have ht := h q hq
  rw [Takes, if_neg (by nofun)] at ht
  obtain ⟨span, name, rfl, hl⟩ := ht
  cases hn
  exact hl kind rfl hk rfl

end BindingForm.TakesAll

namespace Parse

variable {c : ParseContext} {s s' : ParseState} {form : BindingForm} {p : Pat}

theorem takesAll_bindName {name : String} {start : Position} {extent : Extent}
    (h : bindName .tree form name start extent c s = (.ok p, s')) : form.TakesAll p.leaves := by
  simp only [bindName, spanFrom_bind] at h
  replace h : Yields _ c s _ := h
  split at h
  · simp only [Yields, modifyScopes_bind, modify_bind, pure_ok] at h
    obtain ⟨rfl, -⟩ := h
    simp [BindingForm.TakesAll, BindingForm.Takes, Pat.leaves, Expr.isTarget]
  · next hn =>
    simp only [Yields, bind_ok, pure_ok] at h
    obtain ⟨_, _, hd, rfl, -⟩ := h
    simp only [declareBinding, declaring, ask_bind, state_bind] at hd
    replace hd : Yields _ c _ _ := hd
    split at hd
    · simp [Yields] at hd
    · next hf =>
      rintro q hq
      rw [Pat.leaves, List.mem_singleton] at hq
      rw [BindingForm.Takes, if_neg hn]
      refine ⟨_, name, hq, ?_⟩
      rintro kind rfl hk rfl
      cases kind
      · exact hk rfl
      all_goals simp [bindingFault?] at hf

theorem takesAll_bindingName (h : bindingName .tree form c s = (.ok p, s')) :
    form.TakesAll p.leaves := by
  simp only [bindingName, state_bind, ite_ok, next_bind, unexpected_ok, and_false, or_false] at h
  exact takesAll_bindName h.2

/-! Declarators. -/

/-- A declarator lacks no initializer that it needs, if that is not said. -/
structure Complete (kind : VariableKind) (inHead : Bool) (d : Declarator Expr Pat)
    (missing : Option Extent) : Prop where
  whole : missing = none → kind = .const ∨ d.target.isComposite = true → d.init ≠ none
  outside : inHead = false → missing = none
  named : kind ≠ .var → "let" ∉ d.target.names

structure DeclarationList.Tells (kind : VariableKind) (inHead : Bool)
    (list : DeclarationList .tree) : Prop where
  whole : list.missing = none → ∀ d ∈ list.declarators,
    kind = .const ∨ d.target.isComposite = true → d.init ≠ none
  outside : inHead = false → list.missing = none
  named : kind ≠ .var → ∀ d ∈ list.declarators, "let" ∉ d.target.names
  bare : list.initialized = false → ∀ d ∈ list.declarators, d.init = none

namespace DeclarationList.Tells

variable {kind : VariableKind} {inHead : Bool} {list : DeclarationList .tree}
  {d : Declarator Expr Pat} {missing : Option Extent}

theorem nil : Tells kind inHead {} := ⟨nofun, fun _ => rfl, nofun, nofun⟩

theorem cons (hd : Complete kind inHead d missing) (h : Tells kind inHead list) :
    Tells kind inHead (.cons d missing list) where
  whole hm := by
    obtain ⟨rfl, hm⟩ : missing = none ∧ list.missing = none := by
      simpa [DeclarationList.cons] using hm
    exact List.forall_mem_cons.2 ⟨hd.whole rfl, h.whole hm⟩
  outside hi := by
    show (missing <|> list.missing) = none
    rw [hd.outside hi, h.outside hi]
    rfl
  named hk := List.forall_mem_cons.2 ⟨hd.named hk, h.named hk⟩
  bare hi := by
    obtain ⟨hd, hi⟩ : d.init.isSome = false ∧ list.initialized = false := by
      simpa [DeclarationList.cons] using hi
    exact List.forall_mem_cons.2 ⟨by simpa using hd, h.bare hi⟩

theorem of_eachFault? {loop : EachLoop} (h : Tells kind true list)
    (hf : eachFault? list loop = none) :
    ∃ d, list.declarators = [d] ∧ d.init = none := by
  obtain ⟨hl, hi⟩ : list.declarators.length = 1 ∧ list.initialized = false := by
    simpa [eachFault?, ite_eq_iff] using hf
  obtain ⟨d, hd⟩ := List.length_eq_one_iff.1 hl
  exact ⟨d, hd, h.bare hi d (hd ▸ List.mem_singleton_self d)⟩

end DeclarationList.Tells

/-! Parameters. -/

/-- Only the last parameter takes the rest, and has no default then. -/
structure Ordered (ps : List (Parameter Expr Pat)) : Prop where
  last : ∀ p ∈ ps.dropLast, p.isRest = false
  rest : ∀ p ∈ ps, p.isRest = true → p.default = none

namespace Ordered

variable {q : Parameter Expr Pat} {ps : List (Parameter Expr Pat)}

theorem nil : Ordered [] := ⟨nofun, nofun⟩

theorem single (h : q.isRest = true → q.default = none) : Ordered [q] :=
  ⟨nofun, List.forall_mem_singleton.2 h⟩

theorem cons (hq : q.isRest = false) (h : Ordered ps) : Ordered (q :: ps) where
  last := by
    cases ps with
    | nil => exact nofun
    | cons q' ps => exact List.forall_mem_cons.2 ⟨hq, h.last⟩
  rest := List.forall_mem_cons.2 ⟨fun hr => (nomatch hq.symm.trans hr), h.rest⟩

end Ordered

theorem isWellFormed_of_checkParameters {header : FunctionHeader} {f : Function}
    (hm : header.mode = .arrowFunction → header.form = .arrow) (ho : Ordered f.parameters)
    (ht : s.Tells f.parameters)
    (hs : s.stances.head?.any (·.repeatedParameter) = false → f.parameterNames.Nodup)
    (hc : checkParameters header f.parameters c s = (.ok (), s'))
    (hf : f.form = header.form := by rfl) (hf' : f.mode = header.mode := by rfl) :
    f.IsWellFormed := by
  obtain ⟨-, ha, hr⟩ := checkParameters_ok hc
  refine ⟨fun hg => ?_, fun hg => ?_, ho.last, ho.rest, fun hd => hs ?_⟩
  · rw [← hf', hg] at ha
    cases hp : f.parameters with
    | nil => rfl
    | cons => simp [hp, arityFault?] at ha
  · rw [← hf', hg] at ha
    rcases hp : f.parameters with _ | ⟨q, _ | _⟩
    · simp [hp, arityFault?] at ha
    · exact ⟨q, rfl, by simpa [hp, arityFault?] using ha⟩
    · simp [hp, arityFault?] at ha
  · have hu : (header.form == .arrow || header.mode.isMethodLike || s.richParameters) = true := by
      obtain hd | hd | hd | hd := hd
      · simp [← hf, hd]
      · simp [hm (hf' ▸ hd)]
      · simp [← hf', hd]
      · suffices hrich : s.richParameters = true by simp [hrich]
        refine Bool.of_not_eq_false fun hrich => ?_
        obtain ⟨q, hq, hd⟩ := List.any_eq_true.1 hd
        cases ht hrich q hq
        cases hd
    rw [hu, Bool.true_and] at hr
    rw [ParseState.stances, Scopes.stances, List.head?_map, Option.any_map]
    exact hr

/-! Jumps. -/

theorem jump_ok {labelFault? : String → Option Label → Option Cause} {allowed : Scopes → Bool}
    {outside : Cause} {make : Span → Option String → Stmt} {a : Stmt}
    (h : jump (B := .tree) labelFault? allowed outside make c s = (.ok a, s')) :
    (∃ span name, a = make span (some name) ∧ labelFault? name (s.scopes.label? name) = none) ∨
      ∃ span, a = make span none ∧ allowed s.scopes = true := by
  simp only [jump, state_bind, next_bind] at h
  replace h : Yields _ c _ _ := h
  split at h
  · next name hn =>
    replace h : Yields _ c _ _ := h
    split at h
    · simp [Yields] at h
    · next hl =>
      simp only [Yields, next_bind, bind_ok, spanFrom_bind, pure_ok] at h
      obtain ⟨_, _, -, rfl, -⟩ := h
      exact .inl ⟨_, name, by rw [hn], hl⟩
  · next hn =>
    simp [Yields] at h
    obtain ⟨ha, -, rfl⟩ := h
    exact .inr ⟨_, by rw [hn], ha⟩

end Parse

open Frame.Stance (footing)

theorem ParseState.Glances.atBracket {s s' : ParseState} (h : s.Glances s') (hs : s.sight.Settled)
    (hb : s.atBracket = true) : s'.atBracket = true := by
  have hk : s.kind ≠ .eof := fun he => by simp [ParseState.atBracket, he] at hb
  rwa [ParseState.atBracket, show s'.kind = s.kind from congrArg Token.kind (h.again.token hs hk).1]

namespace ParseState.Stands

theorem behind {source : Source} {k : Footing} {c : ParseContext} {s s' : ParseState}
    {l : List (Finding Empty)} (h : s.Stands source k) (hl : (Walk.bare c).Leads s l s')
    (hs : s'.stances = s.stances) : s'.Stands source k :=
  h.onward (.behind hl hs)

variable {source : Source} {k : Footing} {c : ParseContext} {s s' : ParseState} {a : Stmt}

theorem footing_eq (h : s.Stands source k) : s.scopes.footing.Within k := by
  rw [Scopes.footing_eq]
  exact h.footing

theorem mem_labels {name : String} {label : Label} (h : s.Stands source k)
    (hl : s.scopes.label? name = some label) :
    label ∈ k.labels ∧ label.name = name := by
  have hm : label ∈ s.scopes.footing.labels := List.mem_of_find?_eq_some hl
  exact ⟨h.footing_eq.labels ▸ hm, by simpa using List.find?_some hl⟩

theorem name_ne {name : String} (h : s.Stands source k) (hl : s.scopes.label? name = none) :
    ∀ label ∈ k.labels, label.name ≠ name := by
  rw [← h.footing_eq.labels]
  exact fun label hm => by simpa using List.find?_eq_none.1 hl label hm

theorem breakStatement (h : s.Stands source k)
    (hj : Parse.breakStatement (B := .tree) c s = (.ok a, s')) :
    AreSound source k [.statement a] ∧ a.isLoop = false := by
  obtain ⟨span, name, rfl, hl⟩ | ⟨span, rfl, ha⟩ := Parse.jump_ok hj
  · cases hf : s.scopes.label? name with
    | none => simp [hf, Parse.breakFault?] at hl
    | some label =>
      obtain ⟨hm, rfl⟩ := h.mem_labels hf
      exact ⟨.node .nil trivial ⟨label.isLoop, hm⟩, rfl⟩
  · exact ⟨.node .nil trivial (h.footing_eq.breaks ha), rfl⟩

theorem continueStatement (h : s.Stands source k)
    (hj : Parse.continueStatement (B := .tree) c s = (.ok a, s')) :
    AreSound source k [.statement a] ∧ a.isLoop = false := by
  obtain ⟨span, name, rfl, hl⟩ | ⟨span, rfl, ha⟩ := Parse.jump_ok hj
  · cases hf : s.scopes.label? name with
    | none => simp [hf, Parse.continueFault?] at hl
    | some label =>
      obtain ⟨hm, rfl⟩ := h.mem_labels hf
      obtain ⟨name, isLoop⟩ := label
      obtain rfl : isLoop = true := by simpa [hf, Parse.continueFault?] using hl
      exact ⟨.node .nil trivial hm, rfl⟩
  · exact ⟨.node .nil trivial (h.footing_eq.continues ha), rfl⟩

theorem restart {s₀ : ParseState} {directive : Nat} {start : Checkpoint} (h : s₀.Stands source k)
    (hv : s.lexer.view = s₀.lexer.view) (hs : (s.restart directive start).stances = s₀.stances) :
    (s.restart directive start).Stands source k where
  settled := settled_lex _
  view := (Lexer.view_next _ _).trans (hv.trans h.view)
  frames := hs ▸ h.frames
  footing := hs ▸ h.footing

theorem allow (h : s.Stands source k) (allowed : Bool) : (s.allow allowed).Stands source k :=
  h.onward (.still rfl rfl)

theorem inFunction (h : s.Stands source k) (hf : s.scopes.function?.any (·.isFunction) = true) :
    k.inFunction = true :=
  h.footing_eq.inFunction ▸ hf

theorem continues (h : s.Stands source k) (hk : s.kind ≠ .identifier) :
    source.Continues s.next.lastEnd s.next.kind := by
  refine ⟨s.lexer, h.view, ?_, s.strict, rfl⟩
  obtain he | ⟨hi, -⟩ := h.settled.lexer
  · have hs := h.settled.advances.stop
    rw [← he] at hs
    exact hs.symm
  · exact absurd hi hk

end ParseState.Stands

/-- How a phrase is sound that is read where so much may be jumped to. -/
def Nonterminal.Sound (source : Source) (k : Footing) :
    (g : Nonterminal .tree) → ParseState → g.Result → ParseState → Prop
  | .item, _, a, _ => AreSound source k [.statement a]
  | .statement, s, a, _ | .statementInside, s, a, _ =>
    AreSound source k [.statement a] ∧ s.LoopHere a.isLoop
  | .functionDeclaration, _, a, _ | .variableStatement _, _, a, _ =>
    AreSound source k [.statement a] ∧ a.isLoop = false
  | .block, _, a, _ => (∃ b, a = .block b) ∧ AreSound source k [.statement a]
  | .loopBody, _, a, _ => AreSound source k.loop [.statement a]
  | .forHead _, _, a, _ | .declaringLoop _ _, _, a, _ | .assigningLoop _, _, a, _
  | .expressionLoop _, _, a, _ =>
    AreSound source k [.statement a] ∧ a.isLoop = true
  | .countedLoop _ init, _, a, _ =>
    AreSound source k.loop ((init.map ForInit.ofStmt).elim [] ForInit.nodes) →
    AreSound source k [.statement a] ∧ a.isLoop = true
  | .eachLoop _ left _, _, a, _ =>
    (∀ n ∈ left.ofStmt.nodes, n.IsSound source k.loop) → left.ofStmt.IsAssignable →
    AreSound source k [.statement a] ∧ a.isLoop = true
  | .declarators kind inHead, _, list, _ =>
    AreSound source k (list.declarators.map .declarator) ∧ list.Tells kind inHead
  | .declarator kind inHead, _, d, _ =>
    AreSound source k [.declarator d.1] ∧ Parse.Complete kind inHead d.1 d.2
  | .declaratorTarget kind, s, p, _ =>
    AreSound source k [.pattern p] ∧ (p.isComposite = true → s.atBracket = true) ∧
    (BindingForm.variable kind).TakesAll p.leaves
  | .itemsUntil _, _, as, _ | .items _ _, _, as, _ => AreSound source k (as.map .statement)
  | .body _ start, s, as, _ =>
    start.depth = s.stances.length → AreSound source k (as.map .statement)
  | .directives _, _, _, _ => True
  | .expressionBefore _, _, e, _ | .patternDefault, _, e, _ => AreSound source k (optional e)
  | .clauses hasDefault, _, cs, _ =>
    AreSound source k (cs.map .clause) ∧ cs.countP (·.test.isNone) + hasDefault.toNat ≤ 1
  | .clauseTest hasDefault, _, e, _ =>
    AreSound source k (optional e) ∧ (e = none → hasDefault = false)
  | .catchClause, _, handler, _ => AreSound source k [.handler handler.ofStmt]
  | .catchParameter, s, p, _ => s.Admits .catchParameter → AreSound source k [.pattern p]
  | .parameterTarget, _, p, _ => AreSound source k [.pattern p]
  | .condition, _, e, _ | .assignment, _, e, _ | .assignmentInside, _, e, _
  | .plainAssignment, _, e, _
  | .conditional, _, e, _ | .binary, _, e, _ | .unary _, _, e, _ | .postfixed, _, e, _
  | .leftHandSide, _, e, _
  | .head, _, e, _ | .primary, _, e, _ | .expression, _, e, _ | .spreadable, _, e, _ =>
    AreSound source k [.expression e]
  | .attempt accept, _, found, s' =>
    (∀ s j, accept (s.withJournal j) = accept s) → ∀ p, found = some p →
    AreSound source k [.pattern p] ∧ p.IsAssignable ∧ p.isComposite = true ∧
    source.Continues p.span.stop s'.kind
  | .binaryRest scan, _, e, _ =>
    (∀ w ∈ scan.waiting, AreSound source k [.expression w.left.expression]) →
    AreSound source k [.expression scan.operand.expression] → AreSound source k [.expression e]
  | .operand, _, p, _ => AreSound source k [.expression p.expression]
  | .news _, _, found, _ => AreSound source k (optional found.2)
  | .members _ _ chain, _, chain', _ =>
    AreSound source k [.expression chain.expression] →
      AreSound source k [.expression chain'.expression]
  | .moreExpressions, _, es, _ | .arguments, _, es, _ | .argumentList, _, es, _ =>
    AreSound source k (es.map .expression)
  | .elements, _, es, _ => AreSound source k (es.filterMap (·.map .expression))
  | .properties _ _, _, ps, _ => AreSound source k (ps.map .property)
  | .property _ _, _, p, _ => AreSound source k [.property p.1]
  | .propertyValue _ _ _, _, found, _ => AreSound source k [.expression found.2.1]
  | .propertyKey, _, key, _ => AreSound source k key.nodes
  | .patternKey, _, found, _ => AreSound source k found.1.nodes
  | .functionNode _ header, _, e, _ =>
    (header.mode = .arrowFunction → header.form = .arrow) → AreSound source k [.expression e]
  | .functionParts _ header, _, f, _ =>
    (header.mode = .arrowFunction → header.form = .arrow) → f.IsWellFormed ∧
      AreSound source .function f.nodes
  | .functionInside _ header _, s, f, _ => (header.mode = .arrowFunction → header.form = .arrow) →
    (∃ rest, s.stances = ⟨.function, [], 0, 0, [], false⟩ :: rest) → f.IsWellFormed ∧
    AreSound source k f.nodes
  | .functionBody _ _, _, found, _ => ∀ span, AreSound source k (found.1.nodes span)
  | .parameters _, _, ps, _ | .formals, _, ps, _ =>
    AreSound source k (ps.map .parameter) ∧ Parse.Ordered ps
  | .formal, _, p, _ => AreSound source k [.parameter p] ∧ p.isRest = false
  | .pattern form, s, p, s' | .patternInside form, s, p, s' => s.Admits form →
    AreSound source k [.pattern p] ∧ form.TakesAll p.leaves ∧
      (s.atBracket = true → p.isComposite = true ∧ source.Continues p.span.stop s'.kind)
  | .patternElements form, s, parts, _ => s.Admits form →
    AreSound source k (parts.elements.filterMap (·.map .element) ++
      parts.rest.toList.map .pattern) ∧
      form.TakesAll (Pat.elementLeaves parts.elements ++ Pat.restLeaves parts.rest)
  | .patternElement form, s, e, _ =>
    s.Admits form → AreSound source k [.element e] ∧ form.TakesAll e.target.leaves
  | .patternProperties form, s, ps, _ => s.Admits form →
    AreSound source k (ps.map .patternProperty) ∧ form.TakesAll (Pat.propertyLeaves ps)
  | .patternProperty form, s, p, _ => s.Admits form →
    AreSound source k [.patternProperty p] ∧ form.TakesAll p.target.leaves
  | .patternPropertyTarget form _ _, s, found, _ => s.Admits form →
    AreSound source k [.pattern found.1] ∧ form.TakesAll found.1.leaves

open ParseState (Onward LoopHere)
open Parse (atLetDeclaration_glances labelsLoop_glances headKind?_glances atArrowFunction_glances
  accessor?_glances followsBrackets_glances)

variable {P : Prop} {c : ParseContext} {s s₁ s₂ s₃ s' : ParseState} {source : Source} {k : Footing}

def Nonterminal.AlwaysSound (source : Source) (g : Nonterminal .tree) (s : ParseState)
    (a : g.Result) (s' : ParseState) : Prop :=
  ∀ ⦃k : Footing⦄, s.Stands source k → g.Sound source k s a s'

/-! Rules of the grammar with several parts. -/

namespace Nonterminal.Sound

variable {a : Stmt} {e : Expr} {p : Pat} {span : Span}

theorem tryStatement {handler : Option (CatchClause Stmt Pat)} {finalizer : Option Stmt}
    (hk : s.Stands source k) (hs : s.kind = .kwTry) (hn : handler ≠ none ∨ finalizer ≠ none)
    (hg : AlwaysSound source .block s.next a s₁)
    (hh : AreSound source k ((handler.map CatchClause.ofStmt).toList.map .handler))
    (hf : AreSound source k ((finalizer.map Stmt.toBlock).toList.map (.statement <| .block ·))) :
    Nonterminal.Sound source k .statementInside s
      (NodeAlgebra.tree.attempt span a handler finalizer) s' := by
  obtain ⟨⟨b, rfl⟩, hb⟩ := hg hk.next
  have hn : handler.map CatchClause.ofStmt ≠ none ∨ finalizer.map Stmt.toBlock ≠ none :=
    hn.imp (mt Option.map_eq_none_iff.1) (mt Option.map_eq_none_iff.1)
  exact ⟨.node (.append (.cons hb hh) hf) hn, .of_kind hk.settled hs⟩

theorem toBlock (h : Nonterminal.Sound source k .block s a s') :
    AreSound source k [.statement (.block a.toBlock)] := by
  obtain ⟨⟨b, rfl⟩, hb⟩ := h
  exact hb

theorem labeledStatement {isLoop : Bool} (hk : s.Stands source k) (hs : s.kind = .identifier)
    (hc : Parse.colonFollows c s = (.ok true, s₁)) (hn : s₁.scopes.label? s₁.token.text = none)
    (hc' : s₁.next.kind = .colon) (hl : Parse.labelsLoop c s₁.next.next = (.ok isLoop, s₂))
    (h : Reading .tree P c .statement (s₂.onScopes (·.pushLabel s₁.token.text isLoop)) a s')
    (ih : AlwaysSound source .statement (s₂.onScopes (·.pushLabel s₁.token.text isLoop)) a s') :
    Nonterminal.Sound source k .statementInside s (.labeled span s₁.token.text a)
      (s'.onScopes .popLabel) := by
  have ha := ParseState.again_of_colonFollows hs hc
  have h₁ := hk.behind (Walk.colonFollows hs hc) (Parse.colonFollows_resembles hc).stances
  have h₂ := h₁.next.next.onward (.glance (labelsLoop_glances hl))
  obtain ⟨hb, hlb⟩ := ih (h₂.pushLabel s₁.token.text isLoop)
  have hp : (s₂.onScopes (·.pushLabel s₁.token.text isLoop)).sight = s₂.sight :=
    ParseState.sight_touched (.mark fun _ => ⟨_, _, _, rfl⟩)
  have he : s₂.kind ≠ .eof :=
    TokenKind.ne_eof_of_isSolid (h.consumes.forward (h₂.pushLabel s₁.token.text isLoop).settled).1
  have hbody : s₁.next.next.LoopHere a.isLoop :=
    .again h₁.next.next.settled (labelsLoop_glances hl).again he (hlb.congr hp.symm)
  have hi : s.kind ≠ .eof := hs ▸ nofun
  have hs₁ : s₁.kind = .identifier := (congrArg Token.kind (ha.token hk.settled hi).1).trans hs
  obtain rfl := (ParseState.loopHere_of_labelsLoop h₁.next.next.settled hl).unique hbody
  refine ⟨.node hb trivial (h₁.name_ne hn), .again hk.settled ha (hs₁ ▸ nofun) ?_⟩
  exact .label h₁.settled hs₁ hc' hbody

theorem initializedDeclarator {kind : VariableKind} {inHead : Bool} {names : List String}
    (hk : s.Stands source k) (ht : Reading .tree P c (.declaratorTarget kind) s p s₁)
    (hn : Parse.takeBoundNames s.boundNames.length c s₁ = (.ok names, s₂))
    (hw : Parse.writeNames names c s₂.next = (.ok (), s₃))
    (iht : AlwaysSound source (.declaratorTarget kind) s p s₁)
    (ihi : AlwaysSound source .assignment s₃ e s') :
    Nonterminal.Sound source k (.declarator kind inHead) s (⟨span, p, some e⟩, none) s' := by
  obtain ⟨hp, -, hl⟩ := iht hk
  have h₁ := hk.behind ht.bare ht.stances
  have h₂ := h₁.behind (Walk.takeBoundNames hn) (Parse.stances_takeBoundNames hn)
  have h₃ := h₂.next.behind (Walk.writeNames hw) (Parse.stances_writeNames hw)
  exact ⟨.node (.cons hp (ihi h₃)), fun _ _ => nofun, fun _ => rfl, hl.let_not_mem⟩

theorem bareDeclarator {kind : VariableKind} {inHead : Bool} (hk : s.Stands source k)
    (hr : ((kind == .const || s.atBracket) && !inHead) = false)
    (iht : AlwaysSound source (.declaratorTarget kind) s p s₁) :
    Nonterminal.Sound source k (.declarator kind inHead) s
      (⟨span, p, none⟩, if kind == .const || s.atBracket then some s.token.extent else none)
        s' := by
  obtain ⟨hp, hc, hl⟩ := iht hk
  refine ⟨.node (.cons hp .nil), fun hm hn => ?_, fun hi => ?_, hl.let_not_mem⟩
  · simp at hm
    exact absurd (hn.imp_right hc) (by simp [hm])
  · simpa [hi] using hr

theorem restartedBody {close : TokenKind} {start : Checkpoint} {before as : List Stmt}
    (hk : s.Stands source k) (hd : Reading .tree P c (.directives close) s before s₁)
    (h : Reading .tree P c .item s₁ a s₂)
    (he : Parse.enableStrict s₁.token.extent c s₂ = (.ok (), s₃))
    (ihb : AlwaysSound source (.body close start) (s₃.restart s₁.token.extent.start start) as s') :
    Nonterminal.Sound source k (.body close start) s as s' := by
  intro hs
  have hl : s₃.lexer = s₂.lexer := by
    obtain ⟨rfl, -⟩ | ⟨rfl, -⟩ := Parse.enableStrict_ok he <;> rfl
  have hv : s₃.lexer.view = s.lexer.view := hl ▸ h.bare.moves.view.trans hd.bare.moves.view
  have he : s₃.stances = s.stances :=
    (Parse.stances_enableStrict he).trans (Eq.trans h.stances hd.stances)
  have hr : (s₃.restart s₁.token.extent.start start).stances = s.stances :=
    (ParseState.stances_restart _ (hs.trans (congrArg List.length he.symm))).trans he
  exact ihb (hk.restart hv hr) (hs.trans (congrArg List.length hr.symm))

theorem declaringHead {kind : VariableKind} {list : DeclarationList .tree} (hk : s.Stands source k)
    (hd : Reading .tree P c (.declarators kind true) (s.next.allow false) list s₁)
    (ihd : AlwaysSound source (.declarators kind true) (s.next.allow false) list s₁) :
    (s₁.allow s.allowsIn).Stands source k ∧
    AreSound source k.loop (list.declarators.map .declarator) ∧
      list.Tells kind true :=
  ⟨((hk.next.allow _).behind hd.bare hd.stances).onward (.still rfl rfl),
    ihd (hk.next.allow _).weaken⟩

theorem moreClauses {hasDefault : Bool} {test : Option Expr} {body : List Stmt}
    {cs : List (SwitchClause Expr Stmt)} (hk : s.Stands source k)
    (ht : Reading .tree P c (.clauseTest hasDefault) s test s₁)
    (hb : Reading .tree P c (.itemsUntil Parse.endsClause) s₁.next body s₂)
    (iht : AlwaysSound source (.clauseTest hasDefault) s test s₁)
    (ihb : AlwaysSound source (.itemsUntil Parse.endsClause) s₁.next body s₂)
    (ih : AlwaysSound source (.clauses (hasDefault || test.isNone)) s₂ cs s') :
    Nonterminal.Sound source k (.clauses hasDefault) s (⟨span, test, body⟩ :: cs) s' := by
  have h₁ := (hk.behind ht.bare ht.stances).next
  obtain ⟨ht, hd⟩ := iht hk
  obtain ⟨hc, hn⟩ := ih (h₁.behind hb.bare hb.stances)
  refine ⟨.cons (.node (.append ht (ihb h₁))) hc, ?_⟩
  rw [List.countP_cons]
  cases test with
  | none =>
    obtain rfl := hd rfl
    simpa using hn
  | some e => simpa using hn

theorem patternAssignment (hk : s.Stands source k)
    (ha : Parse.atArrowFunction c s = (.ok false, s₁))
    (ht : Reading .tree P c (.attempt (·.kind == .equal)) s₁ (some p) s₂)
    (iht : AlwaysSound source (.attempt (·.kind == .equal)) s₁ (some p) s₂)
    (ihv : AlwaysSound source .assignment s₂.next e s') :
    Nonterminal.Sound source k .assignmentInside s (.assignPattern span p e) s' := by
  have h₁ := hk.onward (.glance (atArrowFunction_glances ha))
  obtain ⟨hp, hl, hc, hn⟩ := iht h₁ (fun _ _ => rfl) _ rfl
  have h₂ := h₁.behind (ht.bare fun _ _ => rfl) (ht.stances fun _ _ => rfl)
  obtain ⟨-, t, ht, hs⟩ := ht.accepted
  have he := (congrArg Token.kind hs).trans (beq_iff_eq.1 ht)
  exact .node (.cons hp (ihv h₂.next)) ⟨hl, hc, he ▸ hn⟩

theorem attempt {accept : ParseState → Bool} (hk : s.Stands source k) (hb : s.atBracket = true)
    (hf : Parse.followsBrackets accept c s = (.ok true, s₁))
    (hw : Parse.commitWrites s₁.checkpoint c s₂ = (.ok (), s'))
    (ih : AlwaysSound source (.pattern .assignment) s₁ p s₂) :
    Nonterminal.Sound source k (.attempt accept) s (some p) s' := by
  rintro ha _ ⟨⟩
  have hg := followsBrackets_glances ha hf
  obtain ⟨hp, hl, hc⟩ := ih (hk.onward (.glance hg)) nofun
  obtain ⟨hc, hn⟩ := hc (hg.atBracket hk.settled hb)
  have hs := ParseState.kind_congr (ParseState.sight_commitWrites hw)
  exact ⟨hp, hl.isAssignable, hc, hs ▸ hn⟩

theorem functionInside {start : Position} {header : Parse.FunctionHeader} {outerIn : Bool}
    {f : Function} (hform : f.form = header.form) (hmode : f.mode = header.mode)
    (hk : s.Stands source k) (hp : Reading .tree P c (.parameters header) s f.parameters s₁)
    (hc : Parse.checkParameters header f.parameters c s₁ = (.ok (), s₂))
    (ha : (if header.form == .arrow then Parse.consumeArrow else pure ()) c s₂ = (.ok (), s₃))
    (ihp : AlwaysSound source (.parameters header) s f.parameters s₁)
    (ihb : AlwaysSound source (.functionBody header outerIn) s₃ (f.body, f.scope) s') :
    Nonterminal.Sound source k (.functionInside start header outerIn) s f s' := by
  rintro hm ⟨rest, hs⟩
  obtain ⟨hps, ho⟩ := ihp hk
  obtain ⟨hl, ht⟩ := hp.bare
  have hd : s₁.stances.head?.any (·.repeatedParameter) = false →
      (f.parameters.flatMap (·.pattern.names)).Nodup := fun hr => by
    have hp : s₁.stances = _ := hp.stances
    rw [hs, Frame.Stance.takes_cons (by simp)] at hp
    exact (Frame.Stance.nodup_of_foldl (by simpa [hp] using hr)).1
  have h₁ := hk.onward (.taking hl hp.stances)
  obtain ⟨rfl, -⟩ := Parse.checkParameters_ok hc
  have h₂ := h₁.behind (Walk.arrow ha) (Parse.stances_arrow ha)
  have hw := Parse.isWellFormed_of_checkParameters hm ho ht hd hc hform hmode
  exact ⟨hw, .append hps (ihb h₂ _)⟩

theorem morePatternElements {form : BindingForm} {q : PatternElement Expr Pat}
    {parts : Parse.ArrayParts .tree} (hk : s.Stands source k)
    (h : Reading .tree P c (.patternElement form) s q s₁)
    (ih : AlwaysSound source (.patternElement form) s q s₁)
    (ihs : AlwaysSound source (.patternElements form) s₁.next parts s') :
    Nonterminal.Sound source k (.patternElements form) s (.cons (some q) parts) s' := by
  intro ha
  obtain ⟨he, hl⟩ := ih hk ha
  have h₁ := (hk.onward (.taking (h.bare ha) h.stances)).next
  obtain ⟨hs, hls⟩ := ihs h₁ (Walk.admits (h.bare ha) ha)
  refine ⟨.cons he hs, ?_⟩
  rw [Parse.ArrayParts.cons, Pat.elementLeaves_cons, List.append_assoc]
  exact hl.append hls

theorem morePatternProperties {form : BindingForm} {q : PatternProperty Expr Pat}
    {qs : List (PatternProperty Expr Pat)} (hk : s.Stands source k)
    (h : Reading .tree P c (.patternProperty form) s q s₁)
    (ih : AlwaysSound source (.patternProperty form) s q s₁)
    (ihs : AlwaysSound source (.patternProperties form) s₁.next qs s') :
    Nonterminal.Sound source k (.patternProperties form) s (q :: qs) s' := by
  intro ha
  obtain ⟨hp, hl⟩ := ih hk ha
  have h₁ := (hk.onward (.taking (h.bare ha) h.stances)).next
  obtain ⟨hs, hls⟩ := ihs h₁ (Walk.admits (h.bare ha) ha)
  rw [Pat.propertyLeaves_cons]
  exact ⟨.cons hp hs, hl.append hls⟩

theorem patternProperty {form : BindingForm} {key : PropertyKey Expr} {name? : Option String}
    {shorthand : Bool} {default : Option Expr} (hk : s.Stands source k)
    (hx : Reading .tree P c .patternKey s (key, name?) s₁)
    (ht : Reading .tree P c (.patternPropertyTarget form s name?) s₁ (p, shorthand) s₂)
    (ihx : AlwaysSound source .patternKey s (key, name?) s₁)
    (iht : AlwaysSound source (.patternPropertyTarget form s name?) s₁ (p, shorthand) s₂)
    (ihd : AlwaysSound source .patternDefault s₂ default s') :
    Nonterminal.Sound source k (.patternProperty form) s ⟨span, key, p, default, shorthand⟩ s' := by
  intro ha
  have h₁ := hk.behind hx.bare hx.stances
  have ha₁ := Walk.admits hx.bare ha
  obtain ⟨hp, hl⟩ := iht h₁ ha₁
  have h₂ := h₁.onward (.taking (ht.bare ha₁) ht.stances)
  exact ⟨.node (.append (ihx hk) (.cons hp (ihd h₂))), hl⟩

end Nonterminal.Sound

namespace Reading

/-- By induction on the reading, in every place where it may be read. -/
theorem sound {g : Nonterminal .tree} {a : g.Result} (h : Reading .tree P c g s a s')
    (hk : s.Stands source k) :
    g.Sound source k s a s' := by
  have inherits := AreSound.inherits source
  induction h generalizing k with
  | itemFunction _ _ ih | itemConst _ _ ih | itemStatement _ _ ih => exact (ih hk).1
  | itemLet _ hl _ ih | itemLetName _ hl _ ih =>
    exact (ih (hk.onward (.glance (atLetDeclaration_glances hl)))).1
  | statement _ _ ih | assignment _ _ ih | pattern _ _ ih => exact ih (hk.onward (.still rfl rfl))
  | blockStatement hs _ ih =>
    obtain ⟨⟨b, rfl⟩, hb⟩ := ih hk
    exact ⟨hb, .of_kind hk.settled hs⟩
  | varStatement hs _ ih | functionStatement hs _ _ ih =>
    exact ⟨(ih hk).1, .of_kind hk.settled hs (by decide) (ih hk).2.symm⟩
  | emptyStatement hs | debuggerStatement hs => exact ⟨.node .nil, .of_kind hk.settled hs⟩
  | ifStatement hs ht _ _ iht ihc =>
    have h₁ := hk.next.behind ht.bare ht.stances
    exact ⟨.node (.cons (iht hk.next) (ihc h₁).1), .of_kind hk.settled hs⟩
  | ifElseStatement hs ht hc _ _ iht ihc iha =>
    have h₁ := hk.next.behind ht.bare ht.stances
    have h₂ := h₁.behind hc.bare.1 hc.stances
    exact ⟨.node (.cons (iht hk.next) (.cons (ihc h₁).1 (iha h₂.next).1)), .of_kind hk.settled hs⟩
  | forStatement hs _ _ ih =>
    obtain ⟨ha, hl⟩ := ih hk.next.next.pushBlock
    exact ⟨ha, .of_kind hk.settled hs (by decide) hl.symm⟩
  | whileStatement hs ht _ iht ihb =>
    have h₁ := hk.next.behind ht.bare ht.stances
    exact ⟨.node (.cons (iht hk.next.weaken) (ihb h₁)), .of_kind hk.settled hs⟩
  | doWhileStatement hs hb _ _ _ ihb iht =>
    have h₁ := hk.next.behind hb.bare hb.stances
    exact ⟨.node (.cons (ihb hk.next) (iht h₁.next.weaken)), .of_kind hk.settled hs⟩
  | continueStatement hs h =>
    obtain ⟨ha, hl⟩ := hk.continueStatement h
    exact ⟨ha, .of_kind hk.settled hs (by decide) hl.symm⟩
  | breakStatement hs h =>
    obtain ⟨ha, hl⟩ := hk.breakStatement h
    exact ⟨ha, .of_kind hk.settled hs (by decide) hl.symm⟩
  | returnStatement hs hf => exact ⟨.node .nil trivial (hk.inFunction hf), .of_kind hk.settled hs⟩
  | returnValueStatement hs hf _ _ _ ih =>
    exact ⟨.node (ih hk.next) trivial (hk.inFunction hf), .of_kind hk.settled hs⟩
  | withStatement hs _ ho _ iho ihb =>
    have h₁ := hk.next.behind ho.bare ho.stances
    have h₂ := h₁.onward (.still (ParseState.sight_touched .activate) (Scopes.stances_activate _))
    exact ⟨.node (.cons (iho hk.next) (ihb h₂).1), .of_kind hk.settled hs⟩
  | switchStatement hs hd _ _ _ _ ihd ihc =>
    have h₁ := (hk.next.behind hd.bare hd.stances).next
    obtain ⟨hc, hn⟩ := ihc h₁.beginSwitch
    exact ⟨.node (.cons (ihd hk.next.switch) hc) hn, .of_kind hk.settled hs⟩
  | throwStatement hs _ _ _ ih => exact ⟨.node (ih hk.next), .of_kind hk.settled hs⟩
  | tryCatch hs hg _ _ _ ihg ihh =>
    have h₁ := hk.next.behind (Walk.block_toBlock hg.bare) hg.stances
    exact .tryStatement hk hs (.inl nofun) @ihg (ihh h₁) .nil
  | tryFinally hs hg _ _ _ ihg ihb =>
    have h₁ := hk.next.behind (Walk.block_toBlock hg.bare) hg.stances
    exact .tryStatement hk hs (.inr nofun) @ihg .nil (Nonterminal.Sound.toBlock (ihb h₁.next))
  | tryCatchFinally hs hg _ hh _ _ ihg ihh ihb =>
    have h₁ := hk.next.behind (Walk.block_toBlock hg.bare) hg.stances
    have h₂ := h₁.behind hh.bare hh.stances
    exact .tryStatement hk hs (.inl nofun) @ihg (ihh h₁) (Nonterminal.Sound.toBlock (ihb h₂.next))
  | letExpressionStatement hs hl _ _ ih =>
    exact ⟨.node (ih (hk.onward (.glance (atLetDeclaration_glances hl)))), .of_kind hk.settled hs⟩
  | labeledStatement hs hc hn hc' hl h ih => exact .labeledStatement hk hs hc hn hc' hl h @ih
  | nameStatement hs hc _ _ ih =>
    have h₁ := hk.behind (Walk.colonFollows hs hc) (Parse.colonFollows_resembles hc).stances
    exact ⟨.node (ih h₁), ParseState.loopHere_of_colonFollows hk.settled hs hc⟩
  | expressionStatement hs _ _ ih =>
    have hl := LoopHere.other hk.settled (by simp_all)
    rw [show TokenKind.beginsLoop _ = false by simp_all [TokenKind.beginsLoop]] at hl
    exact ⟨.node (ih hk), hl⟩
  | functionDeclaration _ hd _ _ _ ih =>
    have h₁ := hk.next.onward
      (.still (ParseState.sight_declaresFunction hd) (Parse.stances_declaring hd))
    obtain ⟨hf, hn⟩ := ih h₁.next nofun
    exact ⟨.node hn hf, rfl⟩
  | variableStatement _ _ ih =>
    obtain ⟨hd, ht⟩ := ih hk.next
    exact ⟨.node hd ht.named trivial (ht.whole (ht.outside rfl)), rfl⟩
  | lastDeclarator _ _ ih => exact ⟨(ih hk).1, .cons (ih hk).2 .nil⟩
  | moreDeclarators h _ _ ih ihs =>
    have h₁ := (hk.behind h.bare h.stances).next
    exact ⟨.cons (ih hk).1 (ihs h₁).1, .cons (ih hk).2 (ihs h₁).2⟩
  | initializedDeclarator ht hn _ hw _ iht ihi => exact .initializedDeclarator hk ht hn hw @iht @ihi
  | bareDeclarator _ _ _ hr iht => exact .bareDeclarator hk hr @iht
  | declaratorPattern hb _ ih =>
    obtain ⟨hp, hl, -⟩ := ih hk nofun
    exact ⟨hp, fun _ => hb, hl⟩
  | declaratorName _ h =>
    refine ⟨(inherits k).bindingName h, ?_, Parse.takesAll_bindingName h⟩
    obtain ⟨span, name, rfl⟩ := Walk.binding_of_bindingName (by nofun) h
    exact nofun
  | block _ _ _ _ ih => exact ⟨⟨_, rfl⟩, .node (ih hk.next.pushBlock)⟩
  | noItems | bodyEnd | noExpressionBefore | noNews | noMoreExpressions | noArguments
  | noElements | noProperties | noPatternDefault => exact .nil
  | moreItems _ _ h _ ih ihs => exact .cons (ih hk) (ihs (hk.behind h.bare h.stances))
  | body _ ih => exact fun _ => ih hk
  | restartedBody hd _ _ h _ _ _ he _ _ _ ihb => exact .restartedBody hk hd h he @ihb
  | noDirectives | moreDirectives => trivial
  | directiveItem _ _ h _ _ _ ih iht | bodyItem _ _ h _ _ ih iht =>
    exact .cons (ih hk) (iht (hk.behind h.bare h.stances))
  | condition _ _ _ ih | moreNews _ _ _ ih | hole _ _ ih | value _ _ _ ih | computedKey _ _ _ ih
  | parameters _ _ _ _ ih | patternHole _ _ ih => exact ih hk.next
  | loopBody _ ih => exact (ih hk.beginLoop).1
  | emptyHead _ _ ih => exact ih hk .nil
  | declaringHead _ hh _ ih | assigningHead _ hh _ ih =>
    exact ih (hk.onward (.glance (headKind?_glances hh)))
  | declaringEach hd _ hf _ ihd ih =>
    obtain ⟨h₁, hs, ht⟩ := Nonterminal.Sound.declaringHead hk hd @ihd
    obtain ⟨d, hd, hi⟩ := ht.of_eachFault? hf
    exact ih h₁ (List.forall_mem_singleton.2 (AreSound.isSound hs ht.named)) ⟨d, hd, hi⟩
  | declaringCounted hd _ hf _ ihd ih =>
    obtain ⟨h₁, hs, ht⟩ := Nonterminal.Sound.declaringHead hk hd @ihd
    exact ih h₁ (.node hs ht.named trivial (ht.whole hf))
  | patternEach ht _ _ iht ih =>
    obtain ⟨hp, ha, -⟩ := iht hk.weaken (fun _ _ => rfl) _ rfl
    have h₁ := hk.behind (ht.bare fun _ _ => rfl) (ht.stances fun _ _ => rfl)
    exact ih h₁ (fun n hn => (hp n hn).1) ha
  | noPatternLoop ht _ _ ih =>
    exact ih (hk.behind (ht.bare fun _ _ => rfl) (ht.stances fun _ _ => rfl))
  | @expressionEach s _ _ _ _ _ _ _ hl _ ht hw _ ihl ih =>
    have h₁ := ((hk.allow _).behind hl.bare hl.stances).allow s.allowsIn
    have h₂ := h₁.onward
      (.still (ParseState.sight_noteAssignment hw) (Parse.stances_noteAssignment hw))
    exact ih h₂ (fun n hn => (ihl (hk.allow false).weaken n hn).1) ht
  | expressionCounted hl _ _ ihl ih =>
    have h₁ := (hk.allow _).behind hl.bare hl.stances
    exact ih (h₁.onward (.still rfl rfl)) (ihl (hk.allow false).weaken)
  | countedLoop _ ht _ hu _ _ _ iht ihu ihb =>
    have h₁ := (hk.next.behind ht.bare ht.stances).next
    have h₂ := (h₁.behind hu.bare hu.stances).next
    intro hi
    have hhead := AreSound.append (.append hi (iht hk.next.weaken)) (ihu h₁.weaken)
    exact ⟨.node (.append hhead (ihb h₂)), rfl⟩
  | forOf hr _ _ _ ihr ihb | forIn hr _ _ _ ihr ihb =>
    have h₁ := (hk.next.behind hr.bare hr.stances).next
    exact fun hl ha => ⟨.loopEach hl ha (.cons (ihr hk.next.weaken) (ihb h₁)), rfl⟩
  | someExpressionBefore _ _ ih | noAssignment _ _ ih | noConditional _ _ ih | operand _ ih
  | noUnary _ _ ih | noPostfix _ _ ih | primaryHead _ _ ih | single _ _ ih
  | lastArgument _ _ _ ih | noSpread _ _ ih | lastElement _ _ _ _ ih | lastProperty _ _ _ ih =>
    exact ih hk
  | @noClauses _ hasDefault => exact ⟨.nil, by simpa using Bool.toNat_le hasDefault⟩
  | moreClauses _ ht _ hb _ iht ihb ih => exact .moreClauses hk ht hb @iht @ihb @ih
  | caseClause _ _ ih => exact ⟨ih hk.next, nofun⟩
  | defaultClause => exact ⟨.nil, fun _ => rfl⟩
  | catchClause _ hp _ _ _ _ _ ihp ih =>
    have h₁ := hk.next.next.pushBlock
    have h₂ := (h₁.behind (hp.bare fun _ => rfl) hp.stances).next.next
    exact .node (.cons (ihp h₁ fun _ => rfl) (.node (ih h₂)))
  | catchName _ h => exact fun _ => (inherits k).bindingName h
  | catchPattern _ _ _ ih => exact fun ha => (ih hk ha).1
  | arrowFunction ha _ ih =>
    exact ih (hk.onward (.glance (atArrowFunction_glances ha))) fun _ => rfl
  | patternAssignment ha ht _ iht ihv => exact .patternAssignment hk ha ht @iht @ihv
  | noPatternAssignment ha ht _ _ ih =>
    have h₁ := hk.onward (.glance (atArrowFunction_glances ha))
    exact ih (h₁.behind (ht.bare fun _ _ => rfl) (ht.stances fun _ _ => rfl))
  | targetAssignment h _ ht hw _ ih ihv =>
    have h₁ := hk.behind h.bare h.stances
    have h₂ := h₁.onward
      (.still (ParseState.sight_noteAssignment hw) (Parse.stances_noteAssignment hw))
    exact .node (.cons (ih hk) (ihv h₂.next)) ht
  | noBracket | noAttempt | givenUp => exact fun _ _ hp => nomatch hp
  | attempt hb hf _ _ hw ih => exact .attempt hk hb hf hw @ih
  | @conditional _ s₁ _ _ _ _ _ ht _ hc _ _ iht ihc iha =>
    have h₁ := (hk.behind ht.bare ht.stances).next.allow true
    have h₂ := (h₁.behind hc.bare hc.stances).allow s₁.allowsIn
    exact .node (.cons (iht hk) (.cons (ihc h₁) (iha h₂.next)))
  | binary h _ ih ihr => exact ihr (hk.behind h.bare h.stances) nofun (ih hk)
  | binaryEnd => exact fun hw ho => ((inherits k).reduce hw ho rfl).2
  | binaryMore _ hr h _ ih iht =>
    intro hw ho
    obtain ⟨hw, hl⟩ := (inherits k).reduce hw ho hr
    exact iht (hk.next.behind h.bare h.stances) (List.forall_mem_cons.2 ⟨hl, hw⟩) (ih hk.next)
  | prefixUpdate _ _ _ ht _ ih => exact .node (ih hk.next) ht
  | prefixUnary _ _ _ _ _ ih | spread _ _ ih | spreadProperty _ _ ih => exact .node (ih hk.next)
  | postfixUpdate _ _ _ ht _ ih => exact .node (ih hk) ht
  | leftHandSide hn h _ _ ih ihm =>
    have h₁ := hk.behind hn.bare hn.stances
    exact (inherits k).news _ _ (ihm (h₁.behind h.bare h.stances) (ih h₁))
  | newTargetSide hn _ ihn ihm =>
    exact (inherits k).news _ _ (ihm (hk.behind hn.bare hn.stances) (ihn hk))
  | newTarget _ _ h => exact (inherits k).newTarget h
  | superHead _ h => exact (inherits k).superExpression h
  | membersEnd => exact id
  | member _ _ _ ih => exact fun h => ih hk.next.next (.node h)
  | @index s _ _ _ _ _ _ _ _ hx _ _ ihx ih =>
    have h₁ := ((hk.next.allow true).behind hx.bare hx.stances).allow s.allowsIn
    exact fun h => ih h₁.next (.node (.cons h (ihx (hk.next.allow _))))
  | construct _ hx _ ihx ih | call _ hx _ ihx ih =>
    exact fun h => ih (hk.behind hx.bare hx.stances) (.node (.cons h (ihx hk)))
  | functionExpression _ _ _ ih => exact ih hk.next nofun
  | namedFunctionExpression _ _ _ ih => exact ih hk.next.next nofun
  | group _ _ _ ih | arguments _ _ _ ih | patternDefault _ _ ih | computedPatternKey _ _ _ ih =>
    exact ih (hk.next.allow _)
  | array _ _ _ ih | object _ _ _ ih => exact .node (ih (hk.next.allow _))
  | literal hl => exact (inherits k).literal hl
  | reference | regexp | shorthand => exact .node .nil
  | sequence h _ _ ih ihs => exact .node (.cons (ih hk) (ihs (hk.behind h.bare h.stances)))
  | moreExpressions _ h _ ih ihs =>
    exact .cons (ih hk.next) (ihs (hk.next.behind h.bare h.stances))
  | moreArguments _ h _ _ ih ihs | moreElements _ _ h _ _ ih ihs | moreProperties _ h _ _ ih ihs =>
    exact .cons (ih hk) (ihs (hk.behind h.bare h.stances).next)
  | @accessor _ s₁ _ _ names _ _ kind _ _ _ ha hx _ _ ihx ih =>
    have h₁ := hk.onward (.glance (accessor?_glances ha))
    have h₂ := (h₁.onward (.still (ParseState.sight_noteAccessor s₁ names)
      (ParseState.stances_noteAccessor s₁ names))).next
    have hm : Parse.accessorMode kind = .arrowFunction → FunctionForm.normal = .arrow := by
      cases kind <;> nofun
    exact .node (.append (ihx h₂) (ih (h₂.behind hx.bare hx.stances) hm))
  | dataProperty _ ha hx _ _ ihx ih =>
    have h₁ := hk.onward (.glance (accessor?_glances ha))
    exact .node (.append (ihx h₁) (ih (h₁.behind hx.bare hx.stances)))
  | method _ _ ih => exact ih hk nofun
  | plainKey hk' | plainPatternKey hk' =>
    rw [Nonterminal.Sound, PropertyKey.nodes_token hk']
    exact .nil
  | functionNode _ _ ih =>
    intro hm
    obtain ⟨hf, hn⟩ := ih hk hm
    exact .node hn hf
  | functionParts _ ih => exact fun hm => ih (hk.enter _) hm ⟨_, ParseState.stances_enter _ _⟩
  | functionInside hp hc ha _ ihp ihb => exact .functionInside rfl rfl hk hp hc ha @ihp @ihb
  | soleParameter _ _ h => exact ⟨.node (.cons ((inherits k).bindingName h) .nil), .single nofun⟩
  | noFormals => exact ⟨.nil, .nil⟩
  | restFormal _ _ _ ih =>
    exact ⟨.node (.cons (ih (hk.next.onward (.still rfl rfl))) .nil), .single fun _ => rfl⟩
  | lastFormal _ _ _ _ ih => exact ⟨(ih hk).1, .single (by simp [(ih hk).2])⟩
  | moreFormals _ _ h _ _ ih ihs =>
    have h₁ := (hk.onward (.taking h.bare.1 h.stances)).next
    exact ⟨.cons (ih hk).1 (ihs h₁).1, .cons (ih hk).2 (ihs h₁).2⟩
  | formal _ _ ih => exact ⟨.node (.cons (ih hk) .nil), rfl⟩
  | defaultFormal h _ _ ih ihd =>
    have h₁ := (hk.onward (.taking h.bare.1 h.stances)).next
    exact ⟨.node (.cons (ih hk) (ihd (h₁.onward (.still rfl rfl)))), rfl⟩
  | parameterName _ h => exact (inherits k).bindingName h
  | parameterPattern _ _ _ ih => exact (ih (hk.onward (.still rfl rfl)) nofun).1
  | blockBody _ _ _ ih => exact fun _ => .node (ih hk.next (Scopes.length_stances _).symm)
  | expressionBody _ _ _ _ ih => exact fun _ => ih (hk.onward (.still rfl rfl))
  | arrayPattern _ h he ih | objectPattern _ h he ih =>
    intro ha
    obtain ⟨hp, hl⟩ := ih hk.next ha
    have h₁ := hk.next.onward (.taking (h.bare ha) h.stances)
    exact ⟨.node hp, hl, fun _ => ⟨rfl, h₁.continues (he ▸ nofun)⟩⟩
  | patternName hb _ h =>
    exact fun _ => ⟨(inherits k).bindingName h, Parse.takesAll_bindingName h,
      fun h => nomatch hb.symm.trans h⟩
  | patternTarget hb _ ht ih =>
    exact fun _ => ⟨.node (ih hk), .single ⟨_, rfl, ht⟩, fun h => nomatch hb.symm.trans h⟩
  | noPatternElements =>
    exact fun _ => ⟨.nil, by simp [Pat.elementLeaves, Pat.restLeaves, BindingForm.TakesAll]⟩
  | patternRest _ _ _ ih | propertyTarget _ _ ih =>
    exact fun ha => ⟨(ih hk.next ha).1, (ih hk.next ha).2.1⟩
  | lastPatternElement _ _ _ ih =>
    intro ha
    obtain ⟨he, hl⟩ := ih hk ha
    exact ⟨he, by simpa [Pat.elementLeaves_cons, Pat.elementLeaves, Pat.restLeaves] using hl⟩
  | morePatternElements _ h _ _ ih ihs => exact .morePatternElements hk h @ih @ihs
  | patternElement h _ ih ihd =>
    intro ha
    obtain ⟨hp, hl, -⟩ := ih hk ha
    exact ⟨.node (.cons hp (ihd (hk.onward (.taking (h.bare ha) h.stances)))), hl⟩
  | noPatternProperties => exact fun _ => ⟨.nil, .nil _⟩
  | lastPatternProperty _ _ _ ih =>
    intro ha
    obtain ⟨hp, hl⟩ := ih hk ha
    exact ⟨hp, by simpa [Pat.propertyLeaves_cons, Pat.propertyLeaves] using hl⟩
  | morePatternProperties _ h _ _ ih ihs => exact .morePatternProperties hk h @ih @ihs
  | patternProperty hx ht _ ihx iht ihd => exact .patternProperty hk hx ht @ihx @iht @ihd
  | shorthandTarget _ h => exact fun _ => ⟨(inherits k).bindName h, Parse.takesAll_bindName h⟩

end Reading

end EcmaFront
