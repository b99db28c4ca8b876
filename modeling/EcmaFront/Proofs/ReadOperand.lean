import EcmaFront.Proofs.ReadFunction

/-!
What the parsers of operands accept is read so by the grammar.
-/

set_option autoImplicit false

namespace EcmaFront.Parse

variable {B : NodeAlgebra} {c : ParseContext} {r : Rules B} {s s' : ParseState}

/-! Lists of expressions -/

theorem expressionRounds_read (hr : Reads c r) {acc as : List B.Expression}
    (h : Rounds (expressionRound r) c acc s as s') :
    ∃ rest, as = acc.reverse ++ rest ∧ Reading B True c .moreExpressions s rest s' := by
  induction h with
  | done h =>
    simp [expressionRound] at h
    obtain ⟨hk, rfl, rfl⟩ := h
    exact ⟨[], by simp, .noMoreExpressions hk⟩
  | again h _ ih =>
    simp [expressionRound] at h
    obtain ⟨hk, a, ha, rfl⟩ := h
    obtain ⟨rest, rfl, hrest⟩ := ih
    exact ⟨a :: rest, by simp, .moreExpressions hk (hr.assignment ha) hrest⟩

theorem expression_read (hr : Reads c r) {a : B.Expression} (h : expression r c s = (.ok a, s')) :
    Reading B True c .expression s a s' := by
  simp [expression] at h
  obtain ⟨first, s₁, hf, ⟨hk, as, hs, rfl⟩ | ⟨hk, rfl, rfl⟩⟩ := h
  · obtain ⟨rest, rfl, hrest⟩ := expressionRounds_read hr (rounds_of_repeatFrom hs)
    exact .sequence (hr.assignment hf) hk hrest
  · exact .single (hr.assignment hf) hk

theorem spreadOrAssignment_read (hr : Reads c r) {a : B.Expression}
    (h : spreadOrAssignment r c s = (.ok a, s')) : Reading B True c .spreadable s a s' := by
  simp [spreadOrAssignment] at h
  rcases h with ⟨hk, e, he, rfl⟩ | ⟨hk, he⟩
  · exact .spread hk (hr.assignment he)
  · exact .noSpread hk (hr.assignment he)

theorem argumentRounds_read (hr : Reads c r) {acc as : List B.Expression}
    (h : Rounds (argumentRound r) c acc s as s') :
    ∃ rest, as = acc.reverse ++ rest ∧ Reading B True c .argumentList s rest s' := by
  induction h with
  | done h =>
    simp [argumentRound] at h
    rcases h with ⟨hk, rfl, rfl⟩ | ⟨hk, a, ha, hc, rfl⟩
    · exact ⟨[], by simp, .noArguments hk⟩
    · exact ⟨_, rfl, .lastArgument hk (spreadOrAssignment_read hr ha) hc⟩
  | again h _ ih =>
    simp [argumentRound] at h
    obtain ⟨hk, a, s₁, ha, hc, rfl, rfl⟩ := h
    obtain ⟨rest, rfl, hrest⟩ := ih
    exact ⟨a :: rest, by simp, .moreArguments hk (spreadOrAssignment_read hr ha) hc hrest⟩

theorem arguments_read (hr : Reads c r) {as : List B.Expression}
    (h : arguments r c s = (.ok as, s')) :
    Reading B True c .arguments s as s' := by
  simp [arguments] at h
  obtain ⟨hk, s₁, hs, he, rfl⟩ := h
  obtain ⟨rest, rfl, hrest⟩ := argumentRounds_read hr (rounds_of_repeatFrom hs)
  exact .arguments hk hrest he

theorem elementRounds_read (hr : Reads c r) {acc as : List (Option B.Expression)}
    (h : Rounds (elementRound r) c acc s as s') :
    ∃ rest, as = acc.reverse ++ rest ∧ Reading B True c .elements s rest s' := by
  induction h with
  | done h =>
    simp only [elementRound, state_bind] at h
    replace h : Yields _ c _ _ := h
    split at h
    · next hk =>
      simp [Yields] at h
      obtain ⟨rfl, rfl⟩ := h
      exact ⟨[], by simp, .noElements hk⟩
    · simp [Yields] at h
    · next hb hc =>
      simp [Yields] at h
      obtain ⟨a, ha, hk, rfl⟩ := h
      exact ⟨_, rfl, .lastElement hb hc (spreadOrAssignment_read hr ha) hk⟩
  | again h _ ih =>
    simp only [elementRound, state_bind] at h
    replace h : Yields _ c _ _ := h
    obtain ⟨rest, rfl, hrest⟩ := ih
    split at h
    · simp [Yields] at h
    · next hk =>
      simp [Yields] at h
      obtain ⟨rfl, rfl⟩ := h
      exact ⟨none :: rest, by simp, .hole hk hrest⟩
    · next hb hc =>
      simp [Yields] at h
      obtain ⟨a, s₁, ha, _, ⟨hk, rfl⟩, rfl⟩ := h
      exact ⟨some a :: rest, by simp, .moreElements hb hc (spreadOrAssignment_read hr ha) hk hrest⟩

/-! Object literals -/

@[simp] theorem settle_ok {α : Type} {result : Except Cause α} {extent : Extent} {a : α} :
    settle result extent c s = (.ok a, s') ↔ result = .ok a ∧ s' = s := by
  cases result with
  | ok b => simp [settle, eq_comm]
  | error cause => simp only [settle, failAt_ok, reduceCtorEq, false_and]

theorem propertyKey_read (hr : Reads c r) {key : PropertyKey B.Expression}
    (h : propertyKey r c s = (.ok key, s')) : Reading B True c .propertyKey s key s' := by
  simp only [propertyKey, state_bind] at h
  replace h : Yields _ c _ _ := h
  split at h
  · next hk =>
    simp [Yields] at h
    obtain ⟨rfl, rfl⟩ := h
    exact .plainKey (by simp [Token.key?, show s.token.kind = _ from hk])
  · next hk =>
    simp [Yields] at h
    obtain ⟨rfl, rfl⟩ := h
    exact .plainKey (by simp [Token.key?, show s.token.kind = _ from hk])
  · next hk =>
    simp [Yields] at h
    obtain ⟨a, s₁, ha, ⟨he, rfl⟩, rfl⟩ := h
    exact .computedKey hk (hr.assignment ha) he
  · next hs hn _ =>
    simp [Yields] at h
    obtain ⟨hk, rfl, rfl⟩ := h
    exact .plainKey (Token.key?_of_name hs hn hk)

@[simp] theorem noteAccessor_run (names : PropertyNames) :
    noteAccessor names c s = (.ok (), s.noteAccessor names) := by
  by_cases h : names.isData <;> simp [noteAccessor, ParseState.noteAccessor, h]

theorem accessorProperty_read (hr : Reads c r) {kind : PropertyKind} {t : ParseState}
    {scan scan' : ObjectScan B.Property} (hk : t.kind ≠ .dotDotDot)
    (ha : accessor? c t = (.ok (some kind), s))
    (h : accessorProperty r kind scan c s = (.ok scan', s')) :
    ∃ p, scan'.properties = p :: scan.properties ∧
      Reading B True c (.property scan.names scan.prototype) t
        (p, scan'.names, scan'.prototype) s' := by
  simp [accessorProperty] at h
  obtain ⟨key, s₁, hx, names, hn, a, hf, rfl⟩ := h
  exact ⟨_, rfl, .accessor hk ha (propertyKey_read hr hx) hn (functionNode_read hr hf)⟩

theorem propertyValue_read (hr : Reads c r) {start : ParseState} {key : PropertyKey B.Expression}
    {prototype : Bool} {a : PropertyKind × B.Expression × Bool}
    (h : propertyValue r start key prototype c s = (.ok a, s')) :
    Reading B True c (.propertyValue start key prototype) s a s' := by
  simp only [propertyValue, state_bind] at h
  replace h : Yields _ c _ _ := h
  split at h
  · next hk =>
    simp [Yields] at h
    obtain ⟨e, s₁, he, h⟩ := h
    have hp : (namesPrototype key && prototype) = false ∧
        a = (.value, e, namesPrototype key || prototype) ∧ s₁ = s' := by
      by_cases hn : namesPrototype key <;> simp_all
    obtain ⟨hp, rfl, rfl⟩ := hp
    exact .value hk (hr.assignment he) hp
  · next hk =>
    simp [Yields] at h
    obtain ⟨e, he, rfl⟩ := h
    exact .method hk (functionNode_read hr he)
  · next hk =>
    simp [Yields] at h
    obtain ⟨_, ⟨hi, hk⟩, rfl, rfl⟩ := h
    exact .shorthand hi hk

theorem dataProperty_read (hr : Reads c r) {t : ParseState}
    {scan scan' : ObjectScan B.Property} (hk : t.kind ≠ .dotDotDot)
    (ha : accessor? c t = (.ok none, s))
    (h : dataProperty r scan c s = (.ok scan', s')) :
    ∃ p, scan'.properties = p :: scan.properties ∧
      Reading B True c (.property scan.names scan.prototype) t
        (p, scan'.names, scan'.prototype) s' := by
  simp only [dataProperty, state_bind, bind_ok, settle_ok, spanFrom_bind, pure_ok] at h
  obtain ⟨key, s₁, hx, ⟨kind, a, prototype⟩, s₂, hv, names, _, ⟨hn, rfl⟩, rfl, rfl⟩ := h
  exact ⟨_, rfl, .dataProperty hk ha (propertyKey_read hr hx) (propertyValue_read hr hv) hn⟩

theorem property_read (hr : Reads c r) {scan scan' : ObjectScan B.Property}
    (h : property r scan c s = (.ok scan', s')) :
    ∃ p, scan'.properties = p :: scan.properties ∧
      Reading B True c (.property scan.names scan.prototype) s
        (p, scan'.names, scan'.prototype) s' := by
  simp [property] at h
  obtain ⟨hk, h⟩ | ⟨hk, kind?, s₁, ha, h⟩ := h
  · simp [spreadProperty] at h
    obtain ⟨a, ha, rfl⟩ := h
    exact ⟨_, rfl, .spreadProperty hk (hr.assignment ha)⟩
  · cases kind? with
    | some kind => exact accessorProperty_read hr hk ha h
    | none => exact dataProperty_read hr hk ha h

theorem propertyRounds_read (hr : Reads c r) {scan : ObjectScan B.Property} {as : List B.Property}
    (h : Rounds (propertyRound r) c scan s as s') :
    ∃ rest, as = scan.properties.reverse ++ rest ∧
      Reading B True c (.properties scan.names scan.prototype) s rest s' := by
  induction h with
  | done h =>
    simp [propertyRound] at h
    obtain ⟨hk, rfl, rfl⟩ | ⟨hk, scan', hp, hc, rfl⟩ := h
    · exact ⟨[], by simp, .noProperties hk⟩
    · obtain ⟨p, hs, hp⟩ := property_read hr hp
      exact ⟨[p], by simp [hs], .lastProperty hk hp hc⟩
  | again h _ ih =>
    simp [propertyRound] at h
    obtain ⟨hk, s₁, hp, hc, rfl⟩ := h
    obtain ⟨rest, rfl, hrest⟩ := ih
    obtain ⟨p, hs, hp⟩ := property_read hr hp
    exact ⟨p :: rest, by simp [hs], .moreProperties hk hp hc hrest⟩

theorem objectLiteral_read (hr : Reads c r) {a : B.Expression} (hk : s.kind = .leftBrace)
    (h : objectLiteral r c s = (.ok a, s')) : Reading B True c .primary s a s' := by
  simp [objectLiteral] at h
  obtain ⟨as, s₁, hs, ⟨he, rfl⟩, rfl⟩ := h
  obtain ⟨rest, rfl, hrest⟩ := propertyRounds_read hr (rounds_of_repeatFrom hs)
  exact .object hk hrest he

/-! Operands -/

theorem arrayLiteral_read (hr : Reads c r) {a : B.Expression} (hk : s.kind = .leftBracket)
    (h : arrayLiteral r c s = (.ok a, s')) : Reading B True c .primary s a s' := by
  simp [arrayLiteral] at h
  obtain ⟨as, s₁, hs, ⟨he, rfl⟩, rfl⟩ := h
  obtain ⟨rest, rfl, hrest⟩ := elementRounds_read hr (rounds_of_repeatFrom hs)
  exact .array hk hrest he

theorem functionExpression_read (hr : Reads c r) {a : B.Expression} (hk : s.kind = .kwFunction)
    (h : functionExpression r c s = (.ok a, s')) : Reading B True c .primary s a s' := by
  simp [functionExpression] at h
  obtain ⟨hn, hf⟩ | ⟨hn, hf⟩ := h
  · exact .namedFunctionExpression hk hn (functionNode_read hr hf)
  · exact .functionExpression hk hn (functionNode_read hr hf)

theorem group_read (hr : Reads c r) {a : B.Expression} (hk : s.kind = .leftParen)
    (h : group r c s = (.ok a, s')) : Reading B True c .primary s a s' := by
  simp [group] at h
  obtain ⟨s₁, ha, he, rfl⟩ := h
  exact .group hk (expression_read hr ha) he

theorem regexpLiteral_read {a : B.Expression} (hk : s.kind = .slash ∨ s.kind = .slashEqual)
    (h : regexpLiteral c s = (.ok a, s')) : Reading B True c .primary s a s' := by
  simp [regexpLiteral] at h
  obtain ⟨he, rfl, rfl⟩ := h
  exact .regexp hk he

theorem literal?_of_kind {kind : TokenKind} (hk : s.kind = kind) :
    s.token.literal? B = ({ s.token with kind } : Token).literal? B := by
  subst hk
  rfl

theorem leaf_read {make : Span → B.Expression} {a : B.Expression}
    (hk : s.token.literal? B = some make) (h : leaf make c s = (.ok a, s')) :
    Reading B True c .primary s a s' := by
  simp [leaf] at h
  obtain ⟨rfl, rfl⟩ := h
  exact .literal hk

theorem reference_read {name : String} {a : B.Expression} (hk : s.reference? = some name)
    (h : reference name c s = (.ok a, s')) : Reading B True c .primary s a s' := by
  simp [reference] at h
  obtain ⟨rfl, rfl⟩ := h
  exact .reference hk

theorem primary_read (hr : Reads c r) {a : B.Expression} (h : primary r c s = (.ok a, s')) :
    Reading B True c .primary s a s' := by
  simp only [primary, state_bind] at h
  replace h : Yields _ c _ _ := h
  split at h
  case h_1 hk => exact functionExpression_read hr hk h
  case h_2 hk => exact group_read hr hk h
  case h_3 hk => exact arrayLiteral_read hr hk h
  case h_4 hk => exact objectLiteral_read hr hk h
  case h_5 hk => exact leaf_read (literal?_of_kind hk) h
  case h_6 hk => exact leaf_read (literal?_of_kind hk) h
  case h_7 hk => exact leaf_read (literal?_of_kind hk) h
  case h_8 hk => exact leaf_read (literal?_of_kind hk) h
  case h_9 hk => exact leaf_read (literal?_of_kind hk) h
  case h_10 hk => exact leaf_read (literal?_of_kind hk) h
  case h_11 hk => exact reference_read (by simp [ParseState.reference?, hk]) h
  case h_12 hk =>
    simp [Yields] at h
    exact reference_read (by simp [ParseState.reference?, hk, h.1]) h.2
  case h_13 hk => exact regexpLiteral_read (.inl hk) h
  case h_14 hk => exact regexpLiteral_read (.inr hk) h
  all_goals simp [Yields] at h

theorem memberRounds_read (hr : Reads c r) {start first : Position}
    {chain a : MemberChain B.Expression} (h : Rounds (memberRound r start first) c chain s a s') :
    Reading B True c (.members start first chain) s a s' := by
  induction h with
  | @done chain _ _ _ h =>
    simp only [memberRound, state_bind] at h
    replace h : Yields _ c _ _ := h
    split at h
    case h_3 =>
      simp [Yields] at h
      obtain ⟨as, s₁, _, h⟩ := h
      cases hn : chain.news <;> simp [hn] at h
    case h_5 =>
      simp [Yields] at h
      obtain ⟨rfl, rfl⟩ := h
      refine .membersEnd ?_
      simp_all
    all_goals simp [Yields] at h
  | @again chain _ _ _ _ _ h _ ih =>
    obtain ⟨callee, waiting⟩ := chain
    simp only [memberRound, state_bind] at h
    replace h : Yields _ c _ _ := h
    split at h
    case h_1 hk =>
      simp [Yields, -List.isEmpty_iff] at h
      obtain ⟨hn, rfl, rfl⟩ := h
      exact .member hk hn ih
    case h_2 hk =>
      simp [Yields, -List.isEmpty_iff] at h
      obtain ⟨key, s₁, hx, ⟨he, rfl⟩, rfl⟩ := h
      exact .index hk (expression_read hr hx) he ih
    case h_3 hk =>
      simp [Yields] at h
      obtain ⟨as, s₁, hx, h⟩ := h
      cases waiting with
      | nil =>
        simp at h
        obtain ⟨rfl, rfl⟩ := h
        exact .call hk (arguments_read hr hx) ih
      | cons new waiting =>
        simp at h
        obtain ⟨rfl, rfl⟩ := h
        exact .construct hk (arguments_read hr hx) ih
    all_goals simp [Yields] at h

theorem newRounds_read {waiting : List Position} {a : List Position × Option B.Expression}
    (h : Rounds (newRound (B := B)) c waiting s a s') :
    Reading B True c (.news waiting) s a s' := by
  induction h with
  | done h =>
    simp [newRound] at h
    obtain ⟨hk, hd, target, ht, rfl⟩ | ⟨hk, rfl, rfl⟩ := h
    · exact .newTarget hk hd ht
    · exact .noNews hk
  | again h _ ih =>
    simp [newRound] at h
    obtain ⟨hk, hd, rfl, rfl⟩ := h
    exact .moreNews hk hd ih

theorem leftHandSide_read (hr : Reads c r) {a : B.Expression}
    (h : leftHandSide r c s = (.ok a, s')) :
    Reading B True c .leftHandSide s a s' := by
  simp only [leftHandSide, state_bind, bind_ok] at h
  obtain ⟨⟨waiting, target⟩, s₁, hn, h⟩ := h
  have hnews := newRounds_read (rounds_of_repeatFrom hn)
  cases target with
  | some target =>
    simp at h
    obtain ⟨chain, hm, rfl⟩ := h
    exact .newTargetSide hnews (memberRounds_read hr (rounds_of_repeatFrom hm))
  | none =>
    simp at h
    obtain ⟨hk, e, s₂, he, chain, hm, rfl⟩ | ⟨hk, e, s₂, he, chain, hm, rfl⟩ := h
    · exact .leftHandSide hnews (.superHead hk he) (memberRounds_read hr (rounds_of_repeatFrom hm))
    · exact .leftHandSide hnews (.primaryHead hk (primary_read hr he))
        (memberRounds_read hr (rounds_of_repeatFrom hm))

end EcmaFront.Parse
