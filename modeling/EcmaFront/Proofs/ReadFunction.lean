import EcmaFront.Proofs.Reading
import Mathlib.Tactic.Simproc.ExistsAndEq

/-!
What the parsers of statement lists, functions and their parameters accept is read so by the
grammar, given that this holds of the parsers of the phrases inside.
-/

set_option autoImplicit false

namespace EcmaFront.Parse

/-- Whatever the rules accept is read so by the grammar. -/
structure Reads {B : NodeAlgebra} (c : ParseContext) (r : Rules B) : Prop where
  bounded : ∃ n, r = Rules.bounded B n
  item : ∀ {s a s'}, r.item c s = (.ok a, s') → Reading B True c .item s a s'
  statement : ∀ {s a s'}, r.statement c s = (.ok a, s') → Reading B True c .statement s a s'
  assignment : ∀ {s a s'}, r.assignment c s = (.ok a, s') → Reading B True c .assignment s a s'
  pattern : ∀ {form s a s'}, r.pattern form c s = (.ok (some a), s') →
    Reading B True c (.pattern form) s a s'

variable {B : NodeAlgebra} {c : ParseContext} {r : Rules B} {s s' : ParseState}

theorem bindingPattern_read (hr : Reads c r) {form : BindingForm} {a : B.Pattern}
    (h : bindingPattern r form c s = (.ok a, s')) : Reading B True c (.pattern form) s a s' := by
  simp only [bindingPattern, bind_ok] at h
  obtain ⟨found, s₁, hp, h⟩ := h
  cases found with
  | none => simp at h
  | some p =>
    simp only [pure_ok] at h
    obtain ⟨rfl, rfl⟩ := h
    exact hr.pattern hp

/-- The items from here to the end of a list, or the list read again because it turned strict. -/
def ReadsOn (B : NodeAlgebra) (c : ParseContext) (close : TokenKind) (start : Checkpoint)
    (scan : BodyScan B.Statement) (s : ParseState) (as : List B.Statement) (s' : ParseState) :
    Prop :=
  (∃ rest, as = scan.body.reverse ++ rest ∧
    Reading B True c (.items close scan.prologue) s rest s') ∨
    scan.prologue = true ∧ ∃ before s₁ d s₂ s₃, Reading B True c (.directives close) s before s₁ ∧
      s₁.kind ≠ close ∧ s₁.kind = .string ∧ Reading B True c .item s₁ d s₂ ∧
      B.isDirective d = true ∧
      isStrictDirective s₁.token = true ∧ s₂.strict = false ∧
      enableStrict s₁.token.extent c s₂ = (.ok (), s₃) ∧
      Reading B True c (.body close start) (s₃.restart s₁.token.extent.start start) as s'

theorem body_of_readsOn {close : TokenKind} {start : Checkpoint} {as : List B.Statement}
    (h : ReadsOn B c close start ⟨[], true⟩ s as s') :
    Reading B True c (.body close start) s as s' := by
  rcases h with ⟨rest, rfl, h⟩ | ⟨_, before, s₁, d, s₂, s₃, hd, hc, hk, h, hi, hs, hn, he, hb⟩
  · exact .body h
  · exact .restartedBody hd hc hk h hi hs hn he hb

/-- A round of a list that is not the last reads an item. The list goes on behind it, or begins
again because the item is a directive that makes it strict. -/
theorem bodyRound_again {close : TokenKind} {start : Checkpoint} {scan scan' : BodyScan B.Statement}
    (h : bodyRound r close start scan c s = (.ok (.again scan'), s')) :
    s.kind ≠ close ∧ s.kind ≠ .eof ∧ ∃ a s₁, r.item c s = (.ok a, s₁) ∧
      (s' = s₁ ∧ scan'.body = a :: scan.body ∧
          scan'.prologue = (scan.prologue && s.kind == .string && B.isDirective a) ∧
          (scan'.prologue = true → (isStrictDirective s.token && !s₁.strict) = false) ∨
        scan.prologue = true ∧ s.kind = .string ∧ B.isDirective a = true ∧
        isStrictDirective s.token = true ∧
          s₁.strict = false ∧ ∃ s₂, enableStrict s.token.extent c s₁ = (.ok (), s₂) ∧
          scan' = ⟨[], true⟩ ∧
          s' = s₂.restart s.token.extent.start start) := by
  simp [bodyRound] at h
  obtain ⟨hc, he, ⟨⟨hp, hk⟩, a, s₁, ha, h⟩ | ⟨hp, a, ha, rfl⟩⟩ := h
  · refine ⟨hc, he, a, s₁, ha, ?_⟩
    obtain ⟨hd, rfl, rfl⟩ | ⟨hd, ⟨⟨hs, hn⟩, s₂, hu, rfl, rfl⟩ | ⟨hs, rfl, rfl⟩⟩ := h
    · exact .inl ⟨rfl, rfl, by simp [hd], nofun⟩
    · exact .inr ⟨hp, hk, hd, hs, hn, s₂, hu, rfl, rfl⟩
    · exact .inl ⟨rfl, rfl, by simp [hp, hk, hd], fun _ => by simpa using hs⟩
  · refine ⟨hc, he, a, s', ha, .inl ⟨rfl, rfl, ?_, nofun⟩⟩
    cases hq : scan.prologue with
    | false => rfl
    | true => simp [hp hq]

theorem bodyRounds_read (hr : Reads c r) {close : TokenKind} {start : Checkpoint}
    {scan : BodyScan B.Statement} {as : List B.Statement}
    (h : Rounds (bodyRound r close start) c scan s as s') :
    ReadsOn B c close start scan s as s' := by
  induction h with
  | done h =>
    simp [bodyRound] at h
    obtain ⟨hk, rfl, rfl⟩ := h
    exact .inl ⟨[], by simp, .bodyEnd hk⟩
  | @again scan next s s₁ s' as h _ ih =>
    obtain ⟨hc, he, a, s₂, ha, hround⟩ := bodyRound_again h
    have ha := hr.item ha
    obtain ⟨rfl, hb, hp, hn⟩ | ⟨hp, hk, hd, hs, hn, s₃, hu, rfl, rfl⟩ := hround
    · obtain ⟨rest, rfl, hrest⟩ | ⟨hq, before, t₁, d, t₂, t₃, hds, hrest⟩ := ih
      · refine .inl ⟨a :: rest, by simp [hb], ?_⟩
        cases hq : next.prologue with
        | false => exact .bodyItem hc he ha (hp ▸ hq) (hq ▸ hrest)
        | true =>
          obtain ⟨⟨hp, hk⟩, hd⟩ : (scan.prologue = true ∧ s.kind = .string) ∧
              B.isDirective a = true := by
            simpa [hq] using hp
          exact hp ▸ .directiveItem hc hk ha hd (hn hq) (hq ▸ hrest)
      · obtain ⟨⟨hp, hk⟩, hd⟩ : (scan.prologue = true ∧ s.kind = .string) ∧
            B.isDirective a = true := by
          simpa [hq] using hp
        exact .inr ⟨hp, a :: before, t₁, d, t₂, t₃, .moreDirectives hc hk ha hd (hn hq) hds, hrest⟩
    · exact .inr ⟨hp, [], s, a, s₂, s₃, .noDirectives, hc, hk, ha, hd, hs, hn, hu,
        body_of_readsOn ih⟩

theorem body_read (hr : Reads c r) {close : TokenKind} {as : List B.Statement}
    (h : body r close c s = (.ok as, s')) :
    Reading B True c (.body close s.checkpoint) s as s' := by
  simp only [body, state_bind] at h
  exact body_of_readsOn (bodyRounds_read hr (rounds_of_repeatFrom h))

theorem itemRounds_read (hr : Reads c r) {close : TokenKind → Bool} {acc as : List B.Statement}
    (h : Rounds (itemRound r close) c acc s as s') :
    ∃ rest, as = acc.reverse ++ rest ∧ Reading B True c (.itemsUntil close) s rest s' := by
  induction h with
  | done h =>
    simp [itemRound] at h
    obtain ⟨hk, rfl, rfl⟩ := h
    exact ⟨[], by simp, .noItems hk⟩
  | again h _ ih =>
    simp [itemRound] at h
    obtain ⟨hk, he, a, ha, rfl⟩ := h
    obtain ⟨rest, rfl, hrest⟩ := ih
    exact ⟨a :: rest, by simp, .moreItems hk he (hr.item ha) hrest⟩

theorem itemsUntil_read (hr : Reads c r) {close : TokenKind → Bool} {as : List B.Statement}
    (h : itemsUntil r close c s = (.ok as, s')) : Reading B True c (.itemsUntil close) s as s' := by
  obtain ⟨rest, rfl, hrest⟩ := itemRounds_read hr (rounds_of_repeatFrom h)
  exact hrest

theorem block_read (hr : Reads c r) {a : B.Statement} (h : block r c s = (.ok a, s')) :
    Reading B True c .block s a s' := by
  simp [block, blockItems] at h
  obtain ⟨hk, body, s₁, hb, he, scope, hf, rfl⟩ := h
  exact .block hk (itemsUntil_read hr hb) he hf

@[simp] theorem noteRichParameters_run : noteRichParameters c s = (.ok (), s.noteRich) := rfl

theorem parameterTarget_read (hr : Reads c r) {a : B.Pattern}
    (h : parameterTarget r c s = (.ok a, s')) : Reading B True c .parameterTarget s a s' := by
  simp [parameterTarget] at h
  rcases h with ⟨hk, h⟩ | ⟨hn, hk, h⟩
  · exact .parameterName hk h
  · exact .parameterPattern hn hk (bindingPattern_read hr h)

theorem parameterRounds_read (hr : Reads c r) {acc as : List (Parameter B.Expression B.Pattern)}
    (h : Rounds (parameterRound r) c acc s as s') :
    ∃ rest, as = acc.reverse ++ rest ∧ Reading B True c .formals s rest s' := by
  induction h with
  | done h =>
    simp [parameterRound] at h
    rcases h with ⟨hk, rfl, rfl⟩ | ⟨hk, ⟨hd, a, ha, hc, rfl⟩ | ⟨hd, a, s₁, ha, h⟩⟩
    · exact ⟨[], by simp, .noFormals hk⟩
    · exact ⟨_, rfl, .restFormal hd (parameterTarget_read hr ha) hc⟩
    rcases h with ⟨he, default, hv, hc, rfl⟩ | ⟨he, hc, rfl, rfl⟩
    · have hp := Reading.defaultFormal (parameterTarget_read hr ha) he (hr.assignment hv)
      exact ⟨_, rfl, .lastFormal hk hd hp hc⟩
    · have hp := Reading.formal (parameterTarget_read hr ha) he
      exact ⟨_, rfl, .lastFormal hk hd hp hc⟩
  | again h _ ih =>
    simp [parameterRound] at h
    obtain ⟨hk, hd, a, s₁, ha, h⟩ := h
    obtain ⟨rest, rfl, hrest⟩ := ih
    rcases h with ⟨he, s₂, default, hv, hc, rfl, rfl⟩ | ⟨he, hc, rfl, rfl⟩
    · have hp := Reading.defaultFormal (parameterTarget_read hr ha) he (hr.assignment hv)
      exact ⟨_ :: rest, by simp, .moreFormals hk hd hp hc hrest⟩
    · have hp := Reading.formal (parameterTarget_read hr ha) he
      exact ⟨_ :: rest, by simp, .moreFormals hk hd hp hc hrest⟩

theorem parameters_read (hr : Reads c r) {header : FunctionHeader}
    {as : List (Parameter B.Expression B.Pattern)} (h : parameters r header c s = (.ok as, s')) :
    Reading B True c (.parameters header) s as s' := by
  simp [parameters, formalParameters] at h
  rcases h with ⟨⟨hf, hk⟩, a, ha, rfl⟩ | ⟨hf, ho, s₁, hs, hc, rfl⟩
  · exact .soleParameter hf hk ha
  · obtain ⟨rest, rfl, hrest⟩ := parameterRounds_read hr (rounds_of_repeatFrom hs)
    exact .parameters (by simpa using hf) ho hrest hc

theorem functionBody_read (hr : Reads c r) {header : FunctionHeader} {outerIn : Bool}
    {a : FunctionBody B.Expression B.Statement × ScopeSummary}
    (h : functionBody r header outerIn c s = (.ok a, s')) :
    Reading B True c (.functionBody header outerIn) s a s' := by
  simp [functionBody] at h
  rcases h with ⟨hk, as, s₁, hb, scope, s₂, hf, rfl, rfl⟩ | ⟨hk, ha, e, s₁, he, scope, hf, rfl⟩
  · exact .blockBody hk (body_read hr hb) hf
  · exact .expressionBody hk ha (hr.assignment he) hf

theorem functionInside_read (hr : Reads c r) {start : Position} {header : FunctionHeader}
    {outerIn : Bool} {a : FunctionParts B.Expression B.Statement B.Pattern}
    (h : functionInside r start header outerIn c s = (.ok a, s')) :
    Reading B True c (.functionInside start header outerIn) s a s' := by
  simp only [functionInside, state_bind, bind_ok] at h
  obtain ⟨as, s₁, hp, _, s₂, hc, h⟩ := h
  have harrow : ∃ s₃, (if header.form == .arrow then consumeArrow else pure ()) c
      s₂ = (.ok (), s₃) ∧
      ∃ body scope, functionBody r header outerIn c s₃ = (.ok (body, scope), s') ∧
        a = ⟨s'.spanFrom start, s.token.extent.start, s'.spanFrom s₃.start,
          header.name, header.mode,
          header.form, header.constructorKind, as, body, scope⟩ := by
    by_cases hf : header.form == .arrow
    · simp [hf] at h ⊢
      obtain ⟨s₃, ha, body, scope, hb, rfl⟩ := h
      exact ⟨s₃, ha, body, scope, hb, rfl⟩
    · simp [hf] at h ⊢
      obtain ⟨body, scope, hb, rfl⟩ := h
      exact ⟨body, scope, hb, rfl⟩
  obtain ⟨s₃, ha, body, scope, hb, rfl⟩ := harrow
  exact .functionInside (parameters_read hr hp) hc ha (functionBody_read hr hb)

theorem functionParts_read (hr : Reads c r) {start : Position} {header : FunctionHeader}
    {a : FunctionParts B.Expression B.Statement B.Pattern}
    (h : functionParts r start header c s = (.ok a, s')) :
    Reading B True c (.functionParts start header) s a s' := by
  simp only [functionParts, state_bind, modify_bind, always_ok] at h
  obtain ⟨s₁, h, rfl⟩ := h
  exact .functionParts (functionInside_read hr h)

theorem functionNode_read (hr : Reads c r) {start : Position} {header : FunctionHeader}
    {a : B.Expression} (h : functionNode r start header c s = (.ok a, s')) :
    Reading B True c (.functionNode start header) s a s' := by
  simp [functionNode] at h
  obtain ⟨parts, s₁, hp, hrec, rfl⟩ := h
  exact .functionNode (functionParts_read hr hp) hrec

theorem functionDeclaration_read (hr : Reads c r) {a : B.Statement}
    (h : functionDeclaration r c s = (.ok a, s')) :
    Reading B True c .functionDeclaration s a s' := by
  simp [functionDeclaration] at h
  obtain ⟨hk, conflicts, s₁, hd, h⟩ := h
  cases hn : functionNameFault? s.next.token.text conflicts s.next.strict with
  | some cause => simp [hn] at h
  | none =>
    simp [hn] at h
    obtain ⟨parts, s₂, hp, hrec, rfl⟩ := h
    exact .functionDeclaration hk hd hn (functionParts_read hr hp) hrec

end EcmaFront.Parse
