import EcmaFront.Proofs.Composite

/-!
The steps of the grammar that go through no nonterminal, as stretches of the text: which of them
consume a token, and which leave the text as it is.
-/

set_option autoImplicit false

namespace EcmaFront

theorem PropertyKey.nodes_token {t : Token} {key : PropertyKey Expr} (h : t.key? = some key) :
    key.nodes = [] := by
  unfold Token.key? at h
  split at h
  · cases h
    rfl
  · cases h
    rfl
  · simp only [Option.ite_none_right_eq_some, Option.some.injEq] at h
    obtain ⟨-, rfl⟩ := h
    rfl

open Parse (FunctionHeader)

/-! Tokens that are no brackets. -/

namespace TokenKind

variable {kind : TokenKind}

theorem isFlat_of_isIdentifierName (h : kind.isIdentifierName = true) : kind.isFlat = true := by
  revert h
  cases kind <;> decide

theorem isFlat_of_isUnary (h : kind.isUnary = true) : kind.isFlat = true := by
  revert h
  cases kind <;> decide

theorem isFlat_of_binaryOp {op : BinaryOp} (h : BinaryOp.ofToken? kind = some op) :
    kind.isFlat = true := by
  revert h
  cases kind <;> simp [BinaryOp.ofToken?, isFlat, isPlain, isSolid, isError, opens, closes]

theorem isFlat_of_assignOp {op : AssignOp} (h : AssignOp.ofToken? kind = some op) :
    kind.isFlat = true := by
  revert h
  cases kind <;> simp [AssignOp.ofToken?, isFlat, isPlain, isSolid, isError, opens, closes]

theorem isFlat_of_updateOp {op : UpdateOp} (h : UpdateOp.ofToken? kind = some op) :
    kind.isFlat = true := by
  revert h
  cases kind <;> simp [UpdateOp.ofToken?, isFlat, isPlain, isSolid, isError, opens, closes]

end TokenKind

theorem Token.isFlat_of_literal? {t : Token} {make : Span → Expr}
    (h : t.literal? .tree = some make) :
    t.kind.isFlat = true := by
  unfold literal? at h
  split at h
  case h_7 => cases h
  all_goals next hk => rw [hk]; rfl

theorem Token.isFlat_of_key? {E : Type} {t : Token} {key : PropertyKey E} (h : t.key? = some key) :
    t.kind.isFlat = true := by
  unfold key? at h
  split at h
  · next hk => rw [hk]; rfl
  · next hk => rw [hk]; rfl
  · simp only [Option.ite_none_right_eq_some] at h
    exact TokenKind.isFlat_of_isIdentifierName h.1

namespace ParseState

variable {c : ParseContext} {s s₀ s₁ s' : ParseState}

theorem isFlat_of_atBindingName (h : s.atBindingName = true) : s.kind.isFlat = true := by
  simp only [atBindingName, Bool.or_eq_true, Bool.and_eq_true, beq_iff_eq] at h
  obtain hk | ⟨hk, -⟩ := h <;> rw [hk] <;> rfl

theorem isFlat_of_reference? {name : String} (h : s.reference? = some name) :
    s.kind.isFlat = true := by
  unfold reference? at h
  split at h
  · next hk => rw [hk]; rfl
  · split at h
    · next hk => rw [hk.1]; rfl
    · cases h

theorem isFlat_of_atWord {word : String} (h : s.atWord word = true) : s.kind.isFlat = true := by
  simp only [atWord, Bool.and_eq_true, beq_iff_eq] at h
  rw [h.1]
  rfl

theorem isFlat_of_eachLoop? {loop : EachLoop} (h : s.eachLoop? = some loop) :
    s.kind.isFlat = true := by
  unfold eachLoop? at h
  split at h
  · next hw => exact isFlat_of_atWord hw
  · split at h
    · next hk => rw [beq_iff_eq.1 hk]; rfl
    · cases h

theorem isFlat_of_binaryOp? {op : BinaryOp} (h : s.binaryOp? = some op) : s.kind.isFlat = true := by
  unfold binaryOp? at h
  split at h
  · cases h
  · exact TokenKind.isFlat_of_binaryOp h

/-! Steps that leave the text as it is. -/

theorem kind_congr (h : s'.sight = s.sight) : s'.kind = s.kind := congrArg (·.token.kind) h

theorem sight_onScopes {change : Scopes → Scopes}
    (h : (change s.scopes).outline = s.scopes.outline) :
    (s.onScopes change).sight = s.sight := sight_congr rfl (Scopes.strict_congr h)

theorem sight_touched {change : Scopes → Scopes} (h : Scopes.Touches change) :
    (s.onScopes change).sight = s.sight :=
  sight_onScopes h.outline

theorem sight_finishBlock {scope : Environment}
    (ho : s.scopes.outline = s₀.scopes.pushBlock.outline)
    (hf : Parse.finishBlock c s = (.ok scope, s')) : s'.sight = s.sight := by
  have hs : s'.strict = s₀.strict :=
    Scopes.strict_congr (by rw [Parse.outline_finishBlock hf, ho]; rfl)
  exact sight_congr (Parse.onlyScopes_finishBlock hf).spot (hs.trans (Scopes.strict_congr ho).symm)

theorem sight_commitWrites {point : Checkpoint} (h : Parse.commitWrites point c s = (.ok (), s')) :
    s'.sight = s.sight := by
  obtain ⟨ho, hs⟩ := Parse.commitWrites_ok (g := Frame.outline) (fun _ _ => rfl) h
  exact sight_congr (s := s.commit point) hs.spot (Scopes.strict_congr ho)

theorem sight_writeNames {names : List String} (h : Parse.writeNames names c s = (.ok (), s')) :
    s'.sight = s.sight := by
  simp only [Parse.writeNames, Parse.modifyScopes_run, Prod.mk.injEq, true_and] at h
  subst h
  induction names generalizing s with
  | nil => rfl
  | cons name rest ih => exact ih.trans (sight_touched (.write name))

theorem sight_takeBoundNames {mark : Nat} {names : List String}
    (h : Parse.takeBoundNames mark c s = (.ok names, s')) :
    s'.sight = s.sight := by
  simp only [Parse.takeBoundNames, Parse.ask_run, Prod.mk.injEq, Except.ok.injEq] at h
  obtain ⟨-, rfl⟩ := h
  rfl

theorem sight_noteAssignment {target : Expr} {extent : Extent}
    (h : Parse.noteAssignment .tree target extent c s = (.ok (), s')) : s'.sight = s.sight := by
  simp only [Parse.noteAssignment] at h
  cases hn : target.name? with
  | some name =>
    simp only [hn, Parse.write, Parse.state_bind, Parse.ite_ok, Parse.failAt_ok, and_false,
      false_or, Parse.modifyScopes_run, Prod.mk.injEq, true_and] at h
    obtain ⟨-, rfl⟩ := h
    exact sight_touched (.write name)
  | none =>
    simp only [hn] at h
    exact congrArg sight (Parse.pure_ok.1 h).2

theorem sight_recordFunction {f : Function} (h : Parse.recordFunction f c s = (.ok (), s')) :
    s'.sight = s.sight := by
  obtain ⟨hs, -, -, -, hp⟩ := Parse.recordFunction_ok h
  exact sight_congr hp (congrArg Scopes.strict hs)

theorem sight_checkParameters {h : FunctionHeader} {parameters : List (Parameter Expr Pat)}
    (hc : Parse.checkParameters h parameters c s = (.ok (), s')) : s'.sight = s.sight := by
  unfold Parse.checkParameters at hc
  replace hc : Parse.Yields _ c s _ := hc
  split at hc
  · simp [Parse.Yields] at hc
  · simp only [Parse.Yields, Parse.state_bind, Parse.ite_ok, Parse.fail_ok, and_false, false_or,
      Parse.pure_ok] at hc
    exact congrArg sight hc.2.2

theorem sight_noteAccessor (s : ParseState) (names : PropertyNames) :
    (s.noteAccessor names).sight = s.sight := by
  unfold noteAccessor
  split <;> rfl

theorem sight_awaitWrite (s : ParseState) (name? : Option String) (extent : Extent) :
    (s.awaitWrite name? extent).sight = s.sight := by
  unfold awaitWrite
  split <;> rfl

theorem sight_declaresFunction {name : String} {kind : VariableKind} {conflicts : Conflicts}
    (h : Parse.declaring (·.declare name kind) c s = (.ok conflicts, s')) : s'.sight = s.sight := by
  simp only [Parse.declaring, Parse.ask_run, Prod.mk.injEq, Except.ok.injEq] at h
  obtain ⟨-, rfl⟩ := h
  exact sight_congr rfl (Scopes.strict_congr (Scopes.outline_declare name kind))

theorem sight_declareBinding {form : BindingForm} {name : String} {extent : Extent}
    (h : Parse.declareBinding form name extent c s = (.ok (), s')) : s'.sight = s.sight := by
  simp only [Parse.declareBinding, Parse.declaring, Parse.ask_bind, Parse.state_bind] at h
  replace h : Parse.Yields _ c _ _ := h
  have hd : (s.onScopes fun scopes => (Parse.declarationOf name form scopes).1).sight = s.sight :=
    sight_onScopes (Scopes.outline_declarationOf name form)
  split at h
  · simp [Parse.Yields] at h
  · split at h
    · simp only [Parse.Yields, Parse.modify_run, Prod.mk.injEq, true_and] at h
      subst h
      exact hd
    · obtain ⟨-, rfl⟩ := Parse.pure_ok.1 h
      exact hd

/-! Names, and operands that are words. -/

theorem bindName_ok {form : BindingForm} {name : String} {start : Position} {extent : Extent}
    {p : Pat} (h : Parse.bindName .tree form name start extent c s = (.ok p, s')) :
    s'.sight = s.sight ∧
      (p = .binding (s'.spanFrom start) name ∨ p = .target (.ident (s'.spanFrom start) name)) := by
  simp only [Parse.bindName, Parse.spanFrom_bind] at h
  replace h : Parse.Yields _ c s _ := h
  split at h
  · simp only [Parse.Yields, Parse.modifyScopes_bind, Parse.modify_bind, Parse.pure_ok] at h
    obtain ⟨rfl, rfl⟩ := h
    exact ⟨sight_congr rfl (Scopes.strict_congr (Scopes.outline_modifyTop fun _ => rfl)), .inr rfl⟩
  · simp only [Parse.Yields, Parse.bind_ok, Parse.pure_ok] at h
    obtain ⟨_, _, hd, rfl, rfl⟩ := h
    have hs := sight_declareBinding hd
    have he : s'.lastEnd = s.lastEnd := congrArg Sight.lastEnd hs
    exact ⟨hs, .inl (by rw [spanFrom, spanFrom, he])⟩

theorem Lays.binding {p : Pat} {ns : List Node} {start : Position} {name : String}
    (h : s.Lays true 0 ns s') (hs : start = s.start)
    (hp : p = .binding (s'.spanFrom start) name ∨ p = .target (.ident (s'.spanFrom start) name)) :
    s.Lays true 0 (ns ++ [.pattern p]) s' := by
  subst hs
  obtain rfl | rfl := hp
  · have hl : s.Lays true 0 (ns ++ []) s' := by simpa using h
    exact .node_behind hl rfl fun _ => trivial
  · refine .node_behind (.node_behind ?_ rfl fun _ => trivial) rfl fun _ => trivial
    simpa [Node.children, Expr.nodes] using h

theorem lays_bindingName {form : BindingForm} {p : Pat}
    (h : Parse.bindingName .tree form c s = (.ok p, s')) :
    s.Lays true 0 [.pattern p] s' := by
  simp only [Parse.bindingName, Parse.state_bind, Parse.ite_ok, Parse.next_bind,
    Parse.unexpected_ok, and_false, or_false] at h
  obtain ⟨hk, h⟩ := h
  obtain ⟨hs, hp⟩ := bindName_ok h
  have hn : s.Lays true 0 [] s' := (Lays.next rfl (isFlat_of_atBindingName hk)).then_still hs
  exact hn.binding rfl hp

theorem lays_superExpression {a : Expr} (hk : s.kind = .kwSuper)
    (h : Parse.superExpression (B := .tree) c s = (.ok a, s')) :
    s.Lays true 0 [.expression a] s' := by
  simp only [Parse.superExpression, Parse.state_bind, Parse.next_bind] at h
  replace h : Parse.Yields _ c _ _ := h
  split at h
  all_goals
    simp only [Parse.Yields, Parse.bind_ok, Parse.ite_ok, Parse.modifyScopes_run, Parse.failAt_ok,
      and_false, or_false,
      Prod.mk.injEq, Parse.spanFrom_bind, Parse.pure_ok, false_and, exists_false] at h
  · obtain ⟨-, _, _, ⟨-, rfl⟩, rfl, rfl⟩ := h
    exact .node ((Lays.next hk rfl).then_still (sight_touched .directSuper)) rfl fun _ => trivial
  all_goals
    obtain ⟨-, _, _, ⟨-, rfl⟩, rfl, rfl⟩ := h
    exact .node ((Lays.next hk rfl).then_still (sight_touched .superBinding)) rfl fun _ => trivial

theorem lays_newTarget {a : Expr} (hk : s.kind = .kwNew) (hd : s.next.kind = .dot)
    (h : Parse.newTarget (B := .tree) s c s.next.next = (.ok a, s')) :
    s.Lays true 0 [.expression a] s' ∧ a.isNew = true := by
  simp only [Parse.newTarget, Parse.state_bind, Parse.ite_ok, Parse.unexpected_ok, and_false,
    false_or, Parse.next_bind, Parse.spanFrom_bind, Parse.pure_ok, Parse.failAt_ok, or_false] at h
  obtain ⟨hw, -, rfl, rfl⟩ := h
  have hw : s.next.next.atWord "target" = true := by simpa using hw
  have hl := Lays.after_next hk (.after_next hd (.next rfl (isFlat_of_atWord hw)) rfl) rfl
  exact ⟨.node hl rfl fun _ => trivial, rfl⟩

theorem fills_jump {labelFault? : String → Option Label → Option Cause} {allowed : Scopes → Bool}
    {outside : Cause}
    {make : Span → Option String → Stmt} {a : Stmt} {kind : TokenKind}
    (h : Parse.jump (B := .tree) labelFault? allowed outside make c s = (.ok a, s'))
      (hk : s.kind = kind)
    (hm : ∀ span label, (make span label).nodes = [] ∧ (make span label).span = span ∧
      ∀ ts, (Node.statement (make span label)).Spelled ts) (hf : kind.isFlat = true := by
  rfl) : s.Fills a s' := by
  have fills {label s'} (h : s.Lays true 0 [] s') : s.Fills (make (s'.spanFrom s.start) label) s' :=
    .node ((hm _ _).1 ▸ h) (hm _ _).2.1 (hm _ _).2.2
  simp only [Parse.jump, Parse.state_bind, Parse.next_bind] at h
  replace h : Parse.Yields _ c _ _ := h
  split at h
  · next hl =>
    replace h : Parse.Yields _ c _ _ := h
    split at h
    · simp [Parse.Yields] at h
    · simp only [Parse.Yields, Parse.next_bind, Parse.bind_ok, Parse.spanFrom_run, Prod.mk.injEq,
        Except.ok.injEq] at h
      obtain ⟨_, _, he, _, _, ⟨rfl, rfl⟩, h⟩ := h
      obtain ⟨rfl, rfl⟩ := Parse.pure_ok.1 h
      have hi : s.next.kind = .identifier := by
        simp only [Parse.jumpLabel?, Option.ite_none_right_eq_some, Bool.and_eq_true,
          beq_iff_eq] at hl
        exact hl.1.2
      exact fills (.after_next hk (.after_next hi (.ends (Parse.ends_of_consumeSemicolon he)) rfl)
        hf)
  · simp [Parse.Yields] at h
    obtain ⟨-, he, rfl⟩ := h
    exact fills (.after_next hk (.ends (Parse.ends_of_consumeSemicolon he)) hf)

theorem lays_arrow {h : FunctionHeader}
    (ha : (if h.form == .arrow then Parse.consumeArrow else pure ()) c s = (.ok (), s')) :
    s.Lays false 0 [] s' := by
  split at ha
  · simp only [Parse.consumeArrow, Parse.state_bind, Parse.ite_ok, Parse.unexpected_ok,
      Parse.fail_ok, and_false, false_or, Parse.next_run, Prod.mk.injEq, true_and] at ha
    obtain ⟨hk, -, rfl⟩ := ha
    exact .forget (.next (by simpa using hk))
  · obtain ⟨-, rfl⟩ := Parse.pure_ok.1 ha
    exact .refl _

end ParseState

end EcmaFront
