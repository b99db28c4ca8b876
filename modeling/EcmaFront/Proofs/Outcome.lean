import EcmaFront.Grammar.Parse

/-!
What it means for a parsing step to succeed, step by step. The equations run the steps that cannot
fail; the equivalences say when the others succeed and where they leave the state.
-/

set_option autoImplicit false

namespace EcmaFront

namespace ParseState

def deeper (s : ParseState) : ParseState := { s with nesting := s.nesting + 1 }

def shallower (s : ParseState) : ParseState := { s with nesting := s.nesting - 1 }

def allow (s : ParseState) (allowed : Bool) : ParseState := { s with allowsIn := allowed }

def onScopes (s : ParseState) (change : Scopes → Scopes) : ParseState :=
  { s with scopes := change s.scopes }

def record (s : ParseState) (event : Event) : ParseState := { s with events := event :: s.events }

def noteRich (s : ParseState) : ParseState := { s with richParameters := true }

@[simp] theorem eachLoop?_allow (s : ParseState) (allowed : Bool) :
    (s.allow allowed).eachLoop? = s.eachLoop? := rfl

@[simp] theorem allowsIn_next (s : ParseState) : s.next.allowsIn = s.allowsIn := rfl

end ParseState

namespace Parse

variable {α β σ : Type} {c : ParseContext} {s s' : ParseState}

@[simp] theorem pure_run (a : α) : (pure a : Parse α) c s = (.ok a, s) := rfl

@[simp] theorem pure_bind_run (a : α) (f : α → Parse β) : (pure a >>= f : Parse β) c s = f a c s :=
  rfl

@[simp] theorem context_bind (f : ParseContext → Parse β) : (context >>= f) c s = f c c s := rfl

@[simp] theorem state_bind (f : ParseState → Parse β) : (state >>= f) c s = f s c s := rfl

@[simp] theorem modify_run (change : ParseState → ParseState) :
    modify change c s = (.ok (), change s) := rfl

@[simp] theorem modify_bind (change : ParseState → ParseState) (f : Unit → Parse β) :
    (modify change >>= f) c s = f () c (change s) := rfl

@[simp] theorem next_run : next c s = (.ok (), s.next) := rfl

@[simp] theorem next_bind (f : Unit → Parse β) : (next >>= f) c s = f () c s.next := rfl

@[simp] theorem ask_run (question : ParseState → α × ParseState) :
    ask question c s = (.ok (question s).1, (question s).2) := rfl

@[simp] theorem ask_bind (question : ParseState → α × ParseState) (f : α → Parse β) :
    (ask question >>= f) c s = f (question s).1 c (question s).2 := rfl

@[simp] theorem modifyScopes_run (change : Scopes → Scopes) :
    modifyScopes change c s = (.ok (), s.onScopes change) := rfl

@[simp] theorem modifyScopes_bind (change : Scopes → Scopes) (f : Unit → Parse β) :
    (modifyScopes change >>= f) c s = f () c (s.onScopes change) := rfl

@[simp] theorem emit_run (event : Event) : emit event c s = (.ok (), s.record event) := rfl

@[simp] theorem emit_bind (event : Event) (f : Unit → Parse β) :
    (emit event >>= f) c s = f () c (s.record event) := rfl

@[simp] theorem spanFrom_run (start : Position) :
    spanFrom start c s = (.ok (s.spanFrom start), s) := rfl

@[simp] theorem spanFrom_bind (start : Position) (f : Span → Parse β) :
    (spanFrom start >>= f) c s = f (s.spanFrom start) c s := rfl

@[simp] theorem bind_assoc_run {γ : Type} (p : Parse α) (f : α → Parse β) (g : β → Parse γ) :
    ((p >>= f) >>= g) c s = (p >>= fun a => f a >>= g) c s := by
  simp only [bind]
  rcases p c s with ⟨_ | a, s₁⟩ <;> rfl

@[simp] theorem exists_unit {P : Unit → Prop} : (∃ u, P u) ↔ P () :=
  ⟨fun ⟨_, h⟩ => h, fun h => ⟨_, h⟩⟩

theorem pure_ok {a b : α} : (pure a : Parse α) c s = (.ok b, s') ↔ b = a ∧ s' = s := by
  simp only [pure_run, Prod.mk.injEq, Except.ok.injEq, eq_comm]

@[simp] theorem bind_ok {p : Parse α} {f : α → Parse β} {b : β} :
    (p >>= f) c s = (.ok b, s') ↔ ∃ a s₁, p c s = (.ok a, s₁) ∧ f a c s₁ = (.ok b, s') := by
  constructor
  · intro h
    simp only [bind] at h
    split at h
    · next a s₁ hp => exact ⟨a, s₁, hp, h⟩
    · cases h
  · rintro ⟨a, s₁, hp, hf⟩
    simp only [bind, hp]
    exact hf

theorem bind_run {p : Parse α} {f : α → Parse β} {a : α} (h : p c s = (.ok a, s')) :
    (p >>= f) c s = f a c s' := by
  simp only [bind, h]

theorem bind_error {p : Parse α} {f : α → Parse β} {e : ParseError} (h : (p c s).1 = .error e) :
    ((p >>= f) c s).1 = .error e := by
  obtain ⟨s₁, h⟩ : ∃ s₁, p c s = (.error e, s₁) := ⟨_, Prod.ext h rfl⟩
  simp only [bind, h]

@[simp] theorem map_ok {p : Parse α} {f : α → β} {b : β} :
    (f <$> p) c s = (.ok b, s') ↔ ∃ a, p c s = (.ok a, s') ∧ b = f a := by
  have h : (f <$> p) c s = (p >>= fun a => pure (f a)) c s := rfl
  simp only [h, bind_ok, pure_ok]
  grind

@[simp] theorem ite_ok {P : Prop} [Decidable P] {p q : Parse α} {a : α} :
    (if P then p else q) c s = (.ok a, s') ↔
      (P ∧ p c s = (.ok a, s')) ∨ (¬P ∧ q c s = (.ok a, s')) := by
  by_cases h : P <;> simp [h]

@[simp] theorem ite_eq_run {P : Prop} [Decidable P] {x y z : Except ParseError α × ParseState} :
    ((if P then x else y) = z) ↔ (P ∧ x = z) ∨ (¬P ∧ y = z) := by
  by_cases h : P <;> simp [h]

theorem ite_run {P : Prop} [Decidable P] (p q : Parse α) :
    (if P then p else q) c s = if P then p c s else q c s := by
  by_cases h : P <;> simp [h]

@[simp] theorem fail_ok (cause : Cause) (a : α) : (fail cause c s = (.ok a, s')) = False := by
  simp [fail]

@[simp] theorem failAt_ok (cause : Cause) (extent : Extent) (a : α) :
    (failAt cause extent c s = (.ok a, s')) = False := by
  simp [failAt]

@[simp] theorem unexpected_ok (a : α) : (unexpected c s = (.ok a, s')) = False := by
  simp [unexpected]

/-- The result of a step, in a form that shows the step without its arguments. -/
def Yields (p : Parse α) (c : ParseContext) (s : ParseState)
    (result : Except ParseError α × ParseState) :
    Prop :=
  p c s = result

theorem consume_run (kind : TokenKind) :
    consume kind c s = if s.kind == kind then (.ok true, s.next) else (.ok false, s) := by
  simp only [consume, state_bind, ite_run, next_bind, pure_run]

@[simp] theorem consume_bind (kind : TokenKind) (f : Bool → Parse β) :
    (consume kind >>= f) c s = if s.kind = kind then f true c s.next else f false c s := by
  simp only [bind, consume_run, beq_iff_eq]
  by_cases h : s.kind = kind <;> simp [h]

@[simp] theorem expect_ok {kind : TokenKind} {u : Unit} :
    expect kind c s = (.ok u, s') ↔ s.kind = kind ∧ s' = s.next := by
  simp only [expect, consume_bind]
  by_cases h : s.kind = kind
  · simp only [h, if_true, Bool.not_true, Bool.false_eq_true, if_false, pure_ok, true_and]
  · simp only [h, if_false, Bool.not_false, if_true, state_bind, ite_ok, unexpected_ok, fail_ok,
      and_false, or_self, false_and]

/-- A statement ends at `s` and what follows it is read from `s'` on. -/
inductive Ends : ParseState → ParseState → Prop where
  | semicolon {s : ParseState} (h : s.kind = .semicolon) : Ends s s.next
  | omitted {s : ParseState} (h : s.kind ≠ .semicolon) (hm : s.mayEnd = true) : Ends s s

theorem ends_of_consumeSemicolon {u : Unit} (h : consumeSemicolon c s = (.ok u, s')) :
    Ends s s' := by
  simp only [consumeSemicolon, consume_bind] at h
  split at h
  · next hk =>
    simp only [Bool.not_true, Bool.false_eq_true, if_false, pure_ok] at h
    obtain ⟨_, rfl⟩ := h
    exact .semicolon hk
  · next hk =>
    simp only [Bool.not_false, if_true, state_bind, ite_ok, unexpected_ok, and_false, false_or,
      pure_ok, Bool.not_eq_true, Bool.not_eq_false'] at h
    obtain ⟨hm, _, rfl⟩ := h
    exact .omitted hk (by simpa using hm)

@[simp] theorem always_ok {p : Parse α} {after : ParseState → ParseState} {a : α} :
    always p after c s = (.ok a, s') ↔ ∃ s₁, p c s = (.ok a, s₁) ∧ s' = after s₁ := by
  simp only [always]
  rcases p c s with ⟨_ | b, s₁⟩ <;> grind

@[simp] theorem nested_ok {p : Parse α} {a : α} :
    nested p c s = (.ok a, s') ↔
      s.nesting < maxNesting ∧ ∃ s₁, p c s.deeper = (.ok a, s₁) ∧ s' = s₁.shallower := by
  simp only [nested, modify_bind, state_bind, ite_ok, fail_ok, and_false, false_or, always_ok]
  show ¬ maxNesting < s.nesting + 1 ∧ _ ↔ _
  rw [Nat.not_lt, Nat.succ_le_iff]
  rfl

@[simp] theorem allowingIn_ok {allowed : Bool} {p : Parse α} {a : α} :
    allowingIn allowed p c s = (.ok a, s') ↔
      ∃ s₁, p c (s.allow allowed) = (.ok a, s₁) ∧ s' = s₁.allow s.allowsIn := by
  simp only [allowingIn, state_bind, modify_bind, always_ok]
  rfl

inductive Rounds (round : σ → Parse (Round σ α)) (c : ParseContext) :
    σ → ParseState → α → ParseState → Prop where
  | done {x : σ} {s s' : ParseState} {a : α} (h : round x c s = (.ok (.done a), s')) :
    Rounds round c x s a s'
  | again {x y : σ} {s s₁ s' : ParseState} {a : α} (h : round x c s = (.ok (.again y), s₁))
    (rest : Rounds round c y s₁ a s') : Rounds round c x s a s'

theorem rounds_of_repeatBounded {round : σ → Parse (Round σ α)} {n : Nat} {x : σ} {a : α}
    (h : repeatBounded n round x c s = (.ok a, s')) : Rounds round c x s a s' := by
  induction n generalizing x s with
  | zero => simp [repeatBounded] at h
  | succ n ih =>
    simp only [repeatBounded, bind_ok] at h
    obtain ⟨step, s₁, hround, hrest⟩ := h
    cases step with
    | again y => exact .again hround (ih hrest)
    | done b =>
      obtain ⟨rfl, rfl⟩ := pure_ok.1 hrest
      exact .done hround

theorem repeatBounded_again {round : σ → Parse (Round σ α)} {n : Nat} {x y : σ}
    (h : round x c s = (.ok (.again y), s')) :
    repeatBounded (n + 1) round x c s = repeatBounded n round y c s' :=
  bind_run h

theorem repeatBounded_done {round : σ → Parse (Round σ α)} {n : Nat} {x : σ} {a : α}
    (h : round x c s = (.ok (.done a), s')) : repeatBounded (n + 1) round x c s = (.ok a, s') :=
  bind_run h

theorem rounds_of_repeatFrom {round : σ → Parse (Round σ α)} {x : σ} {a : α}
    (h : repeatFrom x round c s = (.ok a, s')) : Rounds round c x s a s' :=
  rounds_of_repeatBounded h

end Parse

end EcmaFront
