import EcmaFront.Proofs.ReadOperand

/-!
What the parsers of patterns and of expressions with operators accept is read so by the grammar.
-/

set_option autoImplicit false

namespace EcmaFront.Parse

variable {B : NodeAlgebra} {c : ParseContext} {r : Rules B} {form : BindingForm} {s s' : ParseState}

/-! Patterns -/

@[simp] theorem noPattern_ok {α : Type} {a : α} :
    (noPattern form c s = (.ok (some a), s')) = False := by
  by_cases h : form == .assignment <;> simp [noPattern, h]

theorem patternTarget_read (hr : Reads c r) {a : B.Pattern} (hk : s.atBracket = false)
    (h : patternTarget r form c s = (.ok (some a), s')) :
    Reading B True c (.patternInside form) s a s' := by
  simp [patternTarget] at h
  obtain ⟨hf, e, s₁, he, ht, h⟩ | ⟨hf, ha⟩ := h
  · subst hf
    have hlhs := leftHandSide_read hr he
    cases hn : B.name? e with
    | none =>
      simp [hn] at h
      obtain ⟨rfl, rfl⟩ := h
      simpa [hn, ParseState.awaitWrite] using Reading.patternTarget hk hlhs ht
    | some name =>
      simp [hn] at h
      obtain ⟨rfl, rfl⟩ := h
      simpa [hn, ParseState.awaitWrite] using Reading.patternTarget hk hlhs ht
  · exact .patternName hk hf ha

theorem patternDefault_read (hr : Reads c r) {a : Option B.Expression}
    (h : patternDefault r c s = (.ok a, s')) : Reading B True c .patternDefault s a s' := by
  simp [patternDefault] at h
  obtain ⟨hk, a, ⟨s₁, ha, rfl⟩, rfl⟩ | ⟨hk, rfl, rfl⟩ := h
  · exact .patternDefault hk (hr.assignment ha)
  · exact .noPatternDefault hk

theorem restElement_read (hr : Reads c r)
    {acc : List (Option (PatternElement B.Expression B.Pattern))} {a : ArrayParts B}
    (hk : s.kind = .dotDotDot) (h : restElement r form acc c s = (.ok (some a), s')) :
    ∃ p, a = ⟨acc.reverse, some p⟩ ∧ s'.kind = .rightBracket ∧
      Reading B True c (.patternElements form) s ⟨[], some p⟩ s' := by
  simp [restElement] at h
  obtain ⟨found, s₁, hp, h⟩ := h
  cases found with
  | none => simp at h
  | some p =>
    simp at h
    obtain ⟨he, rfl, rfl⟩ := h
    exact ⟨p, rfl, he, .patternRest hk (hr.pattern hp) he⟩

theorem arrayPatternRounds_read (hr : Reads c r)
    {acc : List (Option (PatternElement B.Expression B.Pattern))} {a : ArrayParts B}
    (h : Rounds (arrayPatternRound r form) c acc s (some a) s') :
    ∃ parts, a = ⟨acc.reverse ++ parts.elements, parts.rest⟩ ∧ s'.kind = .rightBracket ∧
      Reading B True c (.patternElements form) s parts s' := by
  generalize hfound : some a = found at h
  induction h with
  | done h =>
    subst hfound
    simp only [arrayPatternRound, state_bind] at h
    replace h : Yields _ c _ _ := h
    split at h
    case h_1 hk =>
      simp [Yields] at h
      obtain ⟨rfl, rfl⟩ := h
      exact ⟨⟨[], none⟩, by simp, hk, .noPatternElements hk⟩
    case h_2 => simp [Yields] at h
    case h_3 hk =>
      simp [Yields] at h
      obtain ⟨p, rfl, he, hp⟩ := restElement_read hr hk h
      exact ⟨_, by simp, he, hp⟩
    case h_4 hb hc hd =>
      simp [Yields] at h
      obtain ⟨found, s₁, hp, h⟩ := h
      cases found with
      | none => simp at h
      | some p =>
        simp at h
        obtain ⟨default, hdef, he, rfl⟩ := h
        have helem := Reading.patternElement (hr.pattern hp) (patternDefault_read hr hdef)
        exact ⟨⟨[some _], none⟩, rfl, he, .lastPatternElement (by simp_all) helem he⟩
  | again h _ ih =>
    obtain ⟨parts, rfl, he, hparts⟩ := ih hfound
    simp only [arrayPatternRound, state_bind] at h
    replace h : Yields _ c _ _ := h
    split at h
    case h_1 => simp [Yields] at h
    case h_2 hk =>
      simp [Yields] at h
      obtain ⟨rfl, rfl⟩ := h
      exact ⟨parts.cons none, by simp [ArrayParts.cons], he, .patternHole hk hparts⟩
    case h_3 => simp [Yields] at h
    case h_4 hb hc hd =>
      simp [Yields] at h
      obtain ⟨found, s₁, hp, h⟩ := h
      cases found with
      | none => simp at h
      | some p =>
        simp at h
        obtain ⟨default, s₂, hdef, _, hk, rfl, rfl⟩ := h
        have helem := Reading.patternElement (hr.pattern hp) (patternDefault_read hr hdef)
        exact ⟨parts.cons (some _), by simp [ArrayParts.cons], he,
          .morePatternElements (by simp_all) helem hk hparts⟩

theorem arrayPattern_read (hr : Reads c r) {a : B.Pattern} (hk : s.kind = .leftBracket)
    (h : arrayPattern r form c s = (.ok (some a), s')) :
    Reading B True c (.patternInside form) s a s' := by
  simp [arrayPattern] at h
  obtain ⟨found, s₁, hs, h⟩ := h
  cases found with
  | none => simp at h
  | some parts =>
    simp at h
    obtain ⟨rfl, rfl⟩ := h
    obtain ⟨parts, rfl, he, hparts⟩ := arrayPatternRounds_read hr (rounds_of_repeatFrom hs)
    exact .arrayPattern hk hparts he

theorem patternKey_read (hr : Reads c r) {a : PropertyKey B.Expression × Option String}
    (h : patternKey r form c s = (.ok (some a), s')) : Reading B True c .patternKey s a s' := by
  simp only [patternKey, state_bind] at h
  replace h : Yields _ c _ _ := h
  split at h
  all_goals simp [Yields] at h
  case h_1 hk =>
    obtain ⟨rfl, rfl⟩ := h
    have hn : s.atBindingName = false := by simp [ParseState.atBindingName, hk]
    simpa [hn] using Reading.plainPatternKey (s := s)
      (by simp [Token.key?, show s.token.kind = _ from hk])
  case h_2 hk =>
    obtain ⟨rfl, rfl⟩ := h
    have hn : s.atBindingName = false := by simp [ParseState.atBindingName, hk]
    simpa [hn] using Reading.plainPatternKey (s := s)
      (by simp [Token.key?, show s.token.kind = _ from hk])
  case h_3 hk =>
    obtain ⟨a, s₁, ha, ⟨he, rfl⟩, rfl⟩ := h
    exact .computedPatternKey hk (hr.assignment ha) he
  case h_4 hs hn _ =>
    obtain ⟨hk, rfl, rfl⟩ := h
    exact .plainPatternKey (Token.key?_of_name hs hn hk)

theorem patternPropertyTarget_read (hr : Reads c r) {start : ParseState} {name? : Option String}
    {a : B.Pattern × Bool} (h : patternPropertyTarget r form start name? c s = (.ok (some a), s')) :
    Reading B True c (.patternPropertyTarget form start name?) s a s' := by
  simp [patternPropertyTarget] at h
  obtain ⟨hk, _, hp, p, rfl, rfl⟩ | ⟨hk, h⟩ := h
  · exact .propertyTarget hk (hr.pattern hp)
  · cases name? with
    | none => simp at h
    | some name =>
      simp at h
      obtain ⟨p, hp, rfl⟩ := h
      exact .shorthandTarget hk hp

theorem patternProperty_read (hr : Reads c r)
    {acc as : List (PatternProperty B.Expression B.Pattern)}
    (h : patternProperty r form acc c s = (.ok (some as), s')) :
    ∃ p, as = p :: acc ∧ Reading B True c (.patternProperty form) s p s' := by
  simp [patternProperty] at h
  obtain ⟨found, s₁, hx, h⟩ := h
  cases found with
  | none => simp at h
  | some key =>
    simp at h
    obtain ⟨found, s₂, ht, h⟩ := h
    cases found with
    | none => simp at h
    | some target =>
      simp at h
      obtain ⟨default, hd, rfl⟩ := h
      exact ⟨_, rfl, .patternProperty (patternKey_read hr hx) (patternPropertyTarget_read hr ht)
        (patternDefault_read hr hd)⟩

theorem patternPropertyRounds_read (hr : Reads c r)
    {acc as : List (PatternProperty B.Expression B.Pattern)}
    (h : Rounds (patternPropertyRound r form) c acc s (some as) s') :
    ∃ rest, as = acc.reverse ++ rest ∧ Reading B True c (.patternProperties form) s rest s' := by
  generalize hfound : some as = found at h
  induction h with
  | done h =>
    subst hfound
    simp [patternPropertyRound] at h
    obtain ⟨hk, rfl, rfl⟩ | ⟨hk, found, s₁, hp, h⟩ := h
    · exact ⟨[], by simp, .noPatternProperties hk⟩
    · cases found with
      | none => simp at h
      | some properties =>
        simp at h
        obtain ⟨hc, rfl, rfl⟩ := h
        obtain ⟨p, rfl, hread⟩ := patternProperty_read hr hp
        exact ⟨[p], by simp, .lastPatternProperty hk hread hc⟩
  | again h _ ih =>
    obtain ⟨rest, rfl, hrest⟩ := ih hfound
    simp [patternPropertyRound] at h
    obtain ⟨hk, found, s₁, hp, h⟩ := h
    cases found with
    | none => simp at h
    | some properties =>
      simp at h
      obtain ⟨hc, rfl, rfl⟩ := h
      obtain ⟨p, rfl, hread⟩ := patternProperty_read hr hp
      exact ⟨p :: rest, by simp, .morePatternProperties hk hread hc hrest⟩

theorem objectPattern_read (hr : Reads c r) {a : B.Pattern} (hk : s.kind = .leftBrace)
    (h : objectPattern r form c s = (.ok (some a), s')) :
    Reading B True c (.patternInside form) s a s' := by
  simp [objectPattern] at h
  obtain ⟨found, s₁, hs, h⟩ := h
  cases found with
  | none => simp at h
  | some properties =>
    simp at h
    obtain ⟨he, rfl, rfl⟩ := h
    obtain ⟨rest, rfl, hrest⟩ := patternPropertyRounds_read hr (rounds_of_repeatFrom hs)
    exact .objectPattern hk hrest he

theorem pattern_read (hr : Reads c r) {a : B.Pattern}
    (h : pattern r form c s = (.ok (some a), s')) :
    Reading B True c (.pattern form) s a s' := by
  simp only [pattern, nested_ok, state_bind] at h
  obtain ⟨hn, s₁, h, rfl⟩ := h
  refine .pattern hn ?_
  replace h : Yields _ c _ _ := h
  split at h
  case h_1 hk => exact arrayPattern_read hr hk h
  case h_2 hk => exact objectPattern_read hr hk h
  case h_3 hb hc => exact patternTarget_read hr (by simp_all [ParseState.atBracket]) h

theorem attempt_some {p : Parse (Option B.Pattern)} {a : B.Pattern}
    (h : attempt p c s = (.ok (some a), s')) : p c s = (.ok (some a), s') := by
  simp only [attempt] at h
  split at h
  · next hp => rw [hp, h]
  · split at h <;> simp at h

theorem assignmentPattern?_read (hr : Reads c r) {accept : ParseState → Bool} {a : Option B.Pattern}
    (h : assignmentPattern? r accept c s = (.ok a, s')) :
    Reading B True c (.attempt accept) s a s' := by
  simp [assignmentPattern?] at h
  obtain ⟨hk, rfl, rfl⟩ | ⟨hk, ⟨hf, rfl⟩ | ⟨s₁, hf, found, s₂, hp, h⟩⟩ := h
  · exact .noBracket hk
  · exact .noAttempt hk hf
  obtain ⟨⟨hs, ha⟩, hw, rfl⟩ | ⟨ha, rfl, rfl⟩ := h
  · obtain ⟨p, rfl⟩ := Option.isSome_iff_exists.1 hs
    exact .attempt hk hf (hr.pattern (attempt_some hp)) ha hw
  · obtain ⟨n, rfl⟩ := hr.bounded
    exact .givenUp trivial hk hf hp (by simpa using ha)

/-! Operators -/

theorem postfixExpression_read (hr : Reads c r) {a : B.Expression}
    (h : postfixExpression r c s = (.ok a, s')) : Reading B True c .postfixed s a s' := by
  simp only [postfixExpression, state_bind, bind_ok] at h
  obtain ⟨e, s₁, he, h⟩ := h
  have hlhs := leftHandSide_read hr he
  cases ho : UpdateOp.ofToken? s₁.kind with
  | none =>
    simp [ho] at h
    obtain ⟨rfl, rfl⟩ := h
    exact .noPostfix hlhs (.inl ho)
  | some op =>
    simp [ho] at h
    obtain ⟨hn, rfl, rfl⟩ | ⟨hn, ht, s₂, hw, rfl, rfl⟩ := h
    · exact .noPostfix hlhs (.inr hn)
    · exact .postfixUpdate hlhs ho hn ht hw

theorem applyLeading_read {first : Extent} {a b : B.Expression} {s₁ : ParseState}
    (hk : s.kind.isUnary = true) (ha : Reading B True c (.unary first) s.next a s₁)
    (h : applyLeading first a ⟨s.kind, s.start, s.token.extent⟩ c s₁ = (.ok b, s')) :
    Reading B True c (.unary first) s b s' := by
  simp only [applyLeading, spanFrom_bind] at h
  cases hu : UpdateOp.ofToken? s.kind with
  | some op =>
    simp [hu] at h
    obtain ⟨ht, hw, rfl⟩ := h
    exact .prefixUpdate hk ha hu ht hw
  | none =>
    cases ho : UnaryOp.ofToken? s.kind with
    | none => simp [hu, ho] at h
    | some op =>
      have hd : (op == .delete && s₁.strict && (B.name? a).isSome) = false ∧
          B.unary (s₁.spanFrom s.start) op a = b ∧ s₁ = s' := by
        simp [hu, ho] at h
        grind
      obtain ⟨hd, rfl, rfl⟩ := hd
      exact .prefixUnary hk ha hu ho hd

theorem applyAll_append_ok {first : Extent} {inner outer : List Leading} {a b : B.Expression} :
    applyAll first (inner ++ outer) a c s = (.ok b, s') ↔
      ∃ a' s₁, applyAll first inner a c s = (.ok a', s₁) ∧ applyAll first outer a' c s₁ =
      (.ok b, s') := by
  induction inner generalizing a s with
  | nil => simp [applyAll]
  | cons operator inner ih => simp [applyAll, ih]; grind

theorem leadingRounds_read {acc operators : List Leading} {a : B.Expression} {s₁ : ParseState}
    (h : Rounds leadingRound c acc s operators s₁) (ha : Reading B True c .postfixed s₁ a s') :
    ∃ inner, operators = inner ++ acc ∧ ∀ b t, applyAll s₁.token.extent inner a c s' = (.ok b, t) →
      Reading B True c (.unary s₁.token.extent) s b t := by
  induction h with
  | done h =>
    simp [leadingRound] at h
    obtain ⟨hk, rfl, rfl⟩ := h
    refine ⟨[], rfl, fun b t hb => ?_⟩
    simp [applyAll] at hb
    obtain ⟨rfl, rfl⟩ := hb
    exact .noUnary hk ha
  | again h _ ih =>
    simp [leadingRound] at h
    obtain ⟨hk, rfl, rfl⟩ := h
    obtain ⟨inner, rfl, hinner⟩ := ih ha
    refine ⟨inner ++ [_], List.append_cons .., fun b t hb => ?_⟩
    obtain ⟨b', t', hb', hop⟩ := applyAll_append_ok.1 hb
    simp [applyAll] at hop
    exact applyLeading_read hk (hinner _ _ hb') hop

theorem unaryExpression_read (hr : Reads c r) {a : B.Expression}
    (h : unaryExpression r c s = (.ok a, s')) :
    ∃ first, Reading B True c (.unary first) s a s' := by
  simp [unaryExpression] at h
  obtain ⟨operators, s₁, ho, e, s₂, he, h⟩ := h
  obtain ⟨inner, rfl, hinner⟩ :=
    leadingRounds_read (rounds_of_repeatFrom ho) (postfixExpression_read hr he)
  rw [List.append_nil] at h
  exact ⟨_, hinner _ _ h⟩

theorem placedOperand_read (hr : Reads c r) {a : Placed B.Expression}
    (h : placedOperand r c s = (.ok a, s')) : Reading B True c .operand s a s' := by
  simp [placedOperand] at h
  obtain ⟨e, he, rfl⟩ := h
  obtain ⟨first, he⟩ := unaryExpression_read hr he
  exact .operand he

theorem binaryRounds_read (hr : Reads c r) {scan : BinaryScan B.Expression} {a : B.Expression}
    (h : Rounds (binaryRound r) c scan s a s') : Reading B True c (.binaryRest scan) s a s' := by
  induction h with
  | @done scan s s' _ h =>
    simp only [binaryRound, state_bind] at h
    cases ho : s.binaryOp? with
    | none =>
      rw [ParseState.binaryOp?] at ho
      simp [ho] at h
      obtain ⟨rfl, rfl⟩ := h
      exact .binaryEnd ho
    | some op =>
      rw [ParseState.binaryOp?] at ho
      simp [ho] at h
  | @again scan next s s₁ s' _ h _ ih =>
    simp only [binaryRound, state_bind] at h
    cases ho : s.binaryOp? with
    | none =>
      rw [ParseState.binaryOp?] at ho
      simp [ho] at h
    | some op =>
      rw [ParseState.binaryOp?] at ho
      simp [ho] at h
      obtain ⟨operand, hp, rfl⟩ := h
      exact .binaryMore ho rfl (placedOperand_read hr hp) ih

theorem binaryExpression_read (hr : Reads c r) {a : B.Expression}
    (h : binaryExpression r c s = (.ok a, s')) : Reading B True c .binary s a s' := by
  simp [binaryExpression] at h
  obtain ⟨operand, s₁, hp, h⟩ := h
  exact .binary (placedOperand_read hr hp) (binaryRounds_read hr (rounds_of_repeatFrom h))

theorem conditionalExpression_read (hr : Reads c r) {a : B.Expression}
    (h : conditionalExpression r c s = (.ok a, s')) : Reading B True c .conditional s a s' := by
  simp [conditionalExpression] at h
  obtain ⟨test, s₁, ht, ⟨hk, e, s₂, he, hc, e', he', rfl⟩ | ⟨hk, rfl, rfl⟩⟩ := h
  · exact .conditional (binaryExpression_read hr ht) hk (hr.assignment he) hc (hr.assignment he')
  · exact .noConditional (binaryExpression_read hr ht) hk

theorem plainAssignment_read (hr : Reads c r) {a : B.Expression}
    (h : plainAssignment r c s = (.ok a, s')) : Reading B True c .plainAssignment s a s' := by
  simp only [plainAssignment, state_bind, bind_ok] at h
  obtain ⟨target, s₁, ht, h⟩ := h
  have htarget := conditionalExpression_read hr ht
  cases ho : AssignOp.ofToken? s₁.kind with
  | none =>
    simp [ho] at h
    obtain ⟨rfl, rfl⟩ := h
    exact .noAssignment htarget ho
  | some op =>
    simp [ho] at h
    obtain ⟨hi, s₂, hw, value, hv, rfl⟩ := h
    exact .targetAssignment htarget ho hi hw (hr.assignment hv)

theorem assignmentExpression_read (hr : Reads c r) {a : B.Expression}
    (h : assignmentExpression r c s = (.ok a, s')) : Reading B True c .assignment s a s' := by
  simp only [assignmentExpression, nested_ok, state_bind, bind_ok] at h
  obtain ⟨hn, s₁, ⟨isArrow, s₂, ha, h⟩, rfl⟩ := h
  refine .assignment hn ?_
  cases isArrow with
  | true =>
    simp [arrowFunction] at h
    exact .arrowFunction ha (functionNode_read hr h)
  | false =>
    simp at h
    obtain ⟨target, s₃, ht, h⟩ := h
    have hattempt := assignmentPattern?_read hr ht
    cases target with
    | none => exact .noPatternAssignment ha hattempt (plainAssignment_read hr h)
    | some target =>
      simp at h
      obtain ⟨value, hv, rfl⟩ := h
      exact .patternAssignment ha hattempt (hr.assignment hv)

end EcmaFront.Parse
