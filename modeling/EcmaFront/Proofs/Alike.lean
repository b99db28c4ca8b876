import EcmaFront.Proofs.Sight
import EcmaFront.Proofs.Outcome

/-!
Steps that come to the same end from a state, and the end is never that a bound was too low. A
repetition gets there if each of its rounds lowers what is left of the text.
-/

set_option autoImplicit false

namespace EcmaFront.Parse

variable {α β σ : Type} {c : ParseContext} {s : ParseState}

/-- A result is as it should be, or there is an error but no bound was too low. -/
def Gives (P : α → ParseState → Prop) : Except ParseError α × ParseState → Prop
  | (.ok a, s) => P a s
  | (.error e, _) => e.cause ≠ .exhausted

/-- From a state two steps come to the same end. -/
structure Alike (c : ParseContext) (s : ParseState) (p q : Parse α)
    (P : α → ParseState → Prop := fun _ _ => True) : Prop where
  same : q c s = p c s
  gives : Gives P (p c s)

namespace Alike

variable {p q p₁ p₂ q₁ q₂ : Parse α} {P : α → ParseState → Prop} {Q : β → ParseState → Prop}

theorem pure {a : α} (h : P a s) : Alike c s (pure a) (pure a) P := ⟨rfl, h⟩

theorem fail {cause : Cause} (h : cause ≠ .exhausted) :
    Alike c s (fail cause) (Parse.fail cause) P :=
  ⟨rfl, h⟩

theorem failAt {cause : Cause} {extent : Extent} (h : cause ≠ .exhausted) :
    Alike c s (failAt cause extent) (Parse.failAt cause extent) P := ⟨rfl, h⟩

theorem unexpected : Alike c s unexpected Parse.unexpected P := by
  refine ⟨rfl, show s.unexpected ≠ .exhausted from ?_⟩
  unfold ParseState.unexpected
  split <;> nofun

theorem ite {b : Prop} [Decidable b] (h₁ : b → Alike c s p₁ q₁ P) (h₂ : ¬b → Alike c s p₂ q₂ P) :
    Alike c s (if b then p₁ else p₂) (if b then q₁ else q₂) P := by
  by_cases h : b
  · simpa only [h, if_true] using h₁ h
  · simpa only [h, if_false] using h₂ h

/-! One step after another. -/

section

variable {f g : α → Parse β}

theorem bindWith (h : Alike c s p q P)
    (hn : ∀ a s₁, p c s = (.ok a, s₁) → P a s₁ → Alike c s₁ (f a) (g a) Q) :
    Alike c s (p >>= f) (q >>= g) Q := by
  obtain ⟨hq, hp⟩ := h
  rcases he : p c s with ⟨e | a, s₁⟩
  · rw [he] at hq hp
    constructor
    · simp only [Bind.bind, hq, he]
    · simp only [Bind.bind, he]
      exact hp
  · rw [he] at hq hp
    constructor
    · simp only [Bind.bind, hq, he]
      exact (hn a s₁ he hp).same
    · simp only [Bind.bind, he]
      exact (hn a s₁ he hp).gives

theorem bind (h : Alike c s p q) (hn : ∀ a s₁, p c s = (.ok a, s₁) → Alike c s₁ (f a) (g a) Q) :
    Alike c s (p >>= f) (q >>= g) Q :=
  h.bindWith fun a s₁ ha _ => hn a s₁ ha

end

theorem mapWith {f : α → β} (h : Alike c s p q) (hf : ∀ a s', Q (f a) s') :
    Alike c s (f <$> p) (f <$> q) Q :=
  h.bind fun a s' _ => pure (hf a s')

theorem map {f : α → β} (h : Alike c s p q) : Alike c s (f <$> p) (f <$> q) :=
  h.mapWith fun _ _ => trivial

theorem state_bind {f g : ParseState → Parse β} (h : Alike c s (f s) (g s) Q) :
    Alike c s (state >>= f) (state >>= g) Q := ⟨h.same, h.gives⟩

theorem context_bind {f g : ParseContext → Parse β} (h : Alike c s (f c) (g c) Q) :
    Alike c s (context >>= f) (context >>= g) Q := ⟨h.same, h.gives⟩

theorem spanFrom_bind {start : Position} {f g : Span → Parse β}
    (h : Alike c s (f (s.spanFrom start)) (g (s.spanFrom start)) Q) :
    Alike c s (spanFrom start >>= f) (spanFrom start >>= g) Q := ⟨h.same, h.gives⟩

theorem ask_bind {question : ParseState → α × ParseState} {f g : α → Parse β}
    (h : Alike c (question s).2 (f (question s).1) (g (question s).1) Q) :
    Alike c s (ask question >>= f) (ask question >>= g) Q := ⟨h.same, h.gives⟩

section

variable {f g : Unit → Parse β}

theorem modify_bind {change : ParseState → ParseState} (h : Alike c (change s) (f ()) (g ()) Q) :
    Alike c s (modify change >>= f) (modify change >>= g) Q := ⟨h.same, h.gives⟩

theorem modifyScopes_bind {change : Scopes → Scopes}
    (h : Alike c (s.onScopes change) (f ()) (g ()) Q) :
    Alike c s (modifyScopes change >>= f) (modifyScopes change >>= g) Q := ⟨h.same, h.gives⟩

theorem next_bind (h : Alike c s.next (f ()) (g ()) Q) : Alike c s (next >>= f) (next >>= g) Q :=
  ⟨h.same, h.gives⟩

theorem emit_bind {event : Event} (h : Alike c (s.record event) (f ()) (g ()) Q) :
    Alike c s (emit event >>= f) (emit event >>= g) Q := ⟨h.same, h.gives⟩

end

theorem modify {change : ParseState → ParseState} :
    Alike c s (modify change) (Parse.modify change) := ⟨rfl, trivial⟩

theorem modifyScopes {change : Scopes → Scopes} :
    Alike c s (modifyScopes change) (Parse.modifyScopes change) :=
  ⟨rfl, trivial⟩

theorem ask {question : ParseState → α × ParseState} :
    Alike c s (ask question) (Parse.ask question) := ⟨rfl, trivial⟩

theorem consume {kind : TokenKind} : Alike c s (consume kind) (Parse.consume kind) :=
  state_bind (ite (fun _ => next_bind (pure trivial)) fun _ => pure trivial)

theorem consume_bind {kind : TokenKind} {f g : Bool → Parse β}
    (h₁ : s.kind = kind → Alike c s.next (f true) (g true) Q)
    (h₂ : s.kind ≠ kind → Alike c s (f false) (g false) Q) :
    Alike c s (Parse.consume kind >>= f) (Parse.consume kind >>= g) Q := by
  have h (k : Bool → Parse β) : (Parse.consume kind >>= k) c s =
      if s.kind = kind then k true c s.next else k false c s :=
    Parse.consume_bind kind k
  constructor
  · rw [h, h]
    split
    · next hk => exact (h₁ hk).same
    · next hk => exact (h₂ hk).same
  · rw [h]
    split
    · next hk => exact (h₁ hk).gives
    · next hk => exact (h₂ hk).gives

theorem expect {kind : TokenKind} : Alike c s (expect kind) (Parse.expect kind) :=
  consume_bind (fun _ => pure trivial) fun _ => state_bind
    (ite (fun _ => unexpected) fun _ => fail nofun)

theorem expect_bind {kind : TokenKind} {f g : Unit → Parse β}
    (h : s.kind = kind → Alike c s.next (f ()) (g ()) Q) :
    Alike c s (Parse.expect kind >>= f) (Parse.expect kind >>= g) Q :=
  expect.bind fun _ _ he => by
    obtain ⟨hk, rfl⟩ := expect_ok.1 he
    exact h hk

theorem consumeSemicolon : Alike c s consumeSemicolon Parse.consumeSemicolon :=
  consume_bind (fun _ => pure trivial) fun _ => state_bind
    (ite (fun _ => unexpected) fun _ => pure trivial)

/-! What surrounds a step. -/

theorem always {after : ParseState → ParseState} (h : Alike c s p q) :
    Alike c s (always p after) (Parse.always q after) := by
  obtain ⟨hq, hp⟩ := h
  constructor
  · simp only [Parse.always, hq]
  · simp only [Parse.always]
    rcases he : p c s with ⟨e | a, s₁⟩
    · rw [he] at hp
      exact hp
    · trivial

theorem nested (h : Alike c s.deeper p q) : Alike c s (nested p) (Parse.nested q) :=
  modify_bind (state_bind (ite (fun _ => fail nofun) fun _ => always h))

theorem allowingIn {allowed : Bool} (h : Alike c (s.allow allowed) p q) :
    Alike c s (allowingIn allowed p) (Parse.allowingIn allowed q) :=
  state_bind (modify_bind (always h))

theorem attempt {p q : Parse (Option α)} (h : Alike c s p q) :
    Alike c s (attempt p) (Parse.attempt q) := by
  obtain ⟨hq, hp⟩ := h
  constructor
  · simp only [Parse.attempt, hq]
  · simp only [Parse.attempt]
    rcases he : p c s with ⟨e | a, s₁⟩
    · rw [he] at hp
      simp only [show e.cause ≠ .exhausted from hp, if_false]
      trivial
    · trivial

/-! Repetitions. -/

/-- A round that is not the last lowers a number, and leaves a state for another round. -/
def LowersBy (left : ParseState → Nat) (I : ParseState → Prop) (s : ParseState) :
    Round σ α → ParseState → Prop
  | .again _, s' => I s' ∧ left s' < left s
  | .done _, _ => True

abbrev Lowers (I : ParseState → Prop) (s : ParseState) : Round σ α → ParseState → Prop :=
  LowersBy (·.sight.rest) I s

theorem repeatBounded {left : ParseState → Nat} {I : ParseState → Prop}
    {p q : σ → Parse (Round σ α)} {n : Nat} {x : σ} (hs : I s) (hn : left s < n)
    (h : ∀ x s, I s → Alike c s (p x) (q x) (LowersBy left I s)) :
    Alike c s (repeatBounded n p x) (Parse.repeatBounded n q x) := by
  induction n generalizing x s with
  | zero => cases hn
  | succ n ih =>
    refine (h x s hs).bindWith fun round s₁ _ hl => ?_
    cases round with
    | again y => exact ih hl.1 (Nat.lt_of_lt_of_le hl.2 (Nat.le_of_lt_succ hn))
    | done a => exact pure trivial

theorem repeatLowering (left : ParseState → Nat) (I : ParseState → Prop)
    {p q : σ → Parse (Round σ α)} {x : σ} (hs : I s) (hn : left s < c.rounds)
    (h : ∀ x s, I s → Alike c s (p x) (q x) (LowersBy left I s)) :
    Alike c s (repeatFrom x p) (Parse.repeatFrom x q) :=
  have hr : Alike c s (Parse.repeatBounded c.rounds p x) (Parse.repeatBounded c.rounds q x) :=
    repeatBounded hs hn h
  ⟨hr.same, hr.gives⟩

theorem repeatFrom (I : ParseState → Prop) {p q : σ → Parse (Round σ α)} {x : σ} (hs : I s)
    (hn : s.sight.rest < c.rounds) (h : ∀ x s, I s → Alike c s (p x) (q x) (Lowers I s)) :
    Alike c s (Parse.repeatFrom x p) (Parse.repeatFrom x q) :=
  repeatLowering (·.sight.rest) I hs hn h

end Alike

end EcmaFront.Parse
