import EcmaFront.Proofs.Asking

/-!
Chains of members, calls and `new` around an operand, as the productions of the grammar nest them.
The loop over the suffixes of an operand, with the `new` tokens in front of it waiting on a stack,
builds the one tree that the productions derive: the suffixes apply from left to right, the first
argument lists complete the `new` tokens from the innermost outwards, the others are calls, and the
`new` tokens left over get no arguments. Spans are set aside.
-/

set_option autoImplicit false

namespace EcmaFront

/-- What may stand behind an operand. -/
inductive Suffix (E : Type) where
  | member (name : String)
  | index (key : E)
  | arguments (arguments : List E)

namespace Suffix

variable {E : Type}

def argumentLists : List (Suffix E) → List (List E)
  | [] => []
  | .arguments as :: suffixes => as :: argumentLists suffixes
  | _ :: suffixes => argumentLists suffixes

end Suffix

/-- An operand with what is applied to it, without the spans. -/
inductive ChainTree (E : Type) where
  | operand (e : E)
  | member (object : ChainTree E) (name : String)
  | index (object : ChainTree E) (key : E)
  | call (callee : ChainTree E) (arguments : List E)
  | construct (callee : ChainTree E) (arguments : Option (List E))

namespace ChainTree

variable {E : Type}

/-- The expression is the tree with some spans. -/
inductive Drawn {B : NodeAlgebra} : ChainTree B.Expression → B.Expression → Prop where
  | operand (e : B.Expression) : Drawn (.operand e) e
  | member {t : ChainTree B.Expression} {e : B.Expression} (span : Span) (name : String)
    (h : Drawn t e) :
    Drawn (.member t name) (B.member span e name)
  | index {t : ChainTree B.Expression} {e : B.Expression} (span : Span) (key : B.Expression)
    (h : Drawn t e) :
    Drawn (.index t key) (B.index span e key)
  | call {t : ChainTree B.Expression} {e : B.Expression} (span : Span)
    (arguments : List B.Expression) (h : Drawn t e) :
    Drawn (.call t arguments) (B.call span e arguments)
  | construct {t : ChainTree B.Expression} {e : B.Expression} (span : Span)
    (arguments : Option (List B.Expression))
    (h : Drawn t e) : Drawn (.construct t arguments) (B.construct span e arguments)

/-- What is applied in one step. -/
inductive Layer (E : Type) where
  | member (name : String)
  | index (key : E)
  | call (arguments : List E)
  | construct (arguments : Option (List E))

def Layer.suffix? : Layer E → Option (Suffix E)
  | .member name => some (.member name)
  | .index key => some (.index key)
  | .call arguments => some (.arguments arguments)
  | .construct arguments? => arguments?.map .arguments

def Layer.takesArguments : Layer E → Bool
  | .call _ | .construct (some _) => true
  | _ => false

/-- What is applied to the operand, from the inside out. -/
def layers : ChainTree E → List (Layer E)
  | .operand _ => []
  | .member t name => t.layers ++ [.member name]
  | .index t key => t.layers ++ [.index key]
  | .call t arguments => t.layers ++ [.call arguments]
  | .construct t arguments? => t.layers ++ [.construct arguments?]

def innermost : ChainTree E → E
  | .operand e => e
  | .member t _ | .index t _ | .call t _ | .construct t _ => t.innermost

/-- The suffixes are applied in their order; the first argument lists complete `k` many `new`
tokens, the others are calls, and the `new` tokens that are left over stand around all that, without
arguments. -/
structure Arranged (p : E) (k : Nat) (suffixes : List (Suffix E)) (t : ChainTree E) : Prop where
  operand : t.innermost = p
  layers : ∃ applied,
    t.layers = applied ++ List.replicate (k - (Suffix.argumentLists suffixes).length)
    (.construct none) ∧
    applied.map Layer.suffix? = suffixes.map some ∧
    applied.filter Layer.takesArguments =
      ((Suffix.argumentLists suffixes).take k).map (.construct ∘ some) ++
        ((Suffix.argumentLists suffixes).drop k).map .call

/-! The productions. Each relation tells how many `new` tokens stand in front of the operand `p`,
which suffixes stand behind it, and what is derived from that. -/

inductive MemberExpression (p : E) : Nat → List (Suffix E) → ChainTree E → Prop where
  | primary : MemberExpression p 0 [] (.operand p)
  | member {k : Nat} {suffixes : List (Suffix E)} {t : ChainTree E}
    (h : MemberExpression p k suffixes t)
    (name : String) : MemberExpression p k (suffixes ++ [.member name]) (.member t name)
  | index {k : Nat} {suffixes : List (Suffix E)} {t : ChainTree E}
    (h : MemberExpression p k suffixes t) (key : E) :
    MemberExpression p k (suffixes ++ [.index key]) (.index t key)
  | new {k : Nat} {suffixes : List (Suffix E)} {t : ChainTree E}
    (h : MemberExpression p k suffixes t)
    (arguments : List E) :
    MemberExpression p (k + 1) (suffixes ++ [.arguments arguments]) (.construct t (some arguments))

inductive NewExpression (p : E) : Nat → List (Suffix E) → ChainTree E → Prop where
  | member {k : Nat} {suffixes : List (Suffix E)} {t : ChainTree E}
    (h : MemberExpression p k suffixes t) :
    NewExpression p k suffixes t
  | new {k : Nat} {suffixes : List (Suffix E)} {t : ChainTree E}
    (h : NewExpression p k suffixes t) :
    NewExpression p (k + 1) suffixes (.construct t none)

inductive CallExpression (p : E) : Nat → List (Suffix E) → ChainTree E → Prop where
  | first {k : Nat} {suffixes : List (Suffix E)} {t : ChainTree E}
    (h : MemberExpression p k suffixes t)
    (arguments : List E) : CallExpression p k (suffixes ++ [.arguments arguments])
    (.call t arguments)
  | call {k : Nat} {suffixes : List (Suffix E)} {t : ChainTree E}
    (h : CallExpression p k suffixes t)
    (arguments : List E) : CallExpression p k (suffixes ++ [.arguments arguments])
    (.call t arguments)
  | member {k : Nat} {suffixes : List (Suffix E)} {t : ChainTree E}
    (h : CallExpression p k suffixes t)
    (name : String) : CallExpression p k (suffixes ++ [.member name]) (.member t name)
  | index {k : Nat} {suffixes : List (Suffix E)} {t : ChainTree E}
    (h : CallExpression p k suffixes t) (key : E) :
    CallExpression p k (suffixes ++ [.index key]) (.index t key)

inductive LeftHandSideExpression (p : E) (k : Nat) (suffixes : List (Suffix E)) (t : ChainTree E) :
    Prop where
  | new (h : NewExpression p k suffixes t)
  | call (h : CallExpression p k suffixes t)

def absorb : Nat → List (Suffix E) → ChainTree E → ChainTree E
  | k, [], t => (fun t => .construct t none)^[k] t
  | k, .member name :: suffixes, t => absorb k suffixes (.member t name)
  | k, .index key :: suffixes, t => absorb k suffixes (.index t key)
  | k + 1, .arguments arguments :: suffixes, t => absorb k suffixes (.construct t (some arguments))
  | 0, .arguments arguments :: suffixes, t => absorb 0 suffixes (.call t arguments)

section

variable {p : E} {k j : Nat} {before suffixes : List (Suffix E)} {t : ChainTree E}

theorem CallExpression.derives (h : CallExpression p k before t) (suffixes : List (Suffix E)) :
    CallExpression p k (before ++ suffixes) (absorb 0 suffixes t) := by
  induction suffixes generalizing before t with
  | nil => simpa [ChainTree.absorb] using h
  | cons suffix suffixes ih =>
    rw [List.append_cons]
    cases suffix with
    | member name => exact ih (h.member name)
    | index key => exact ih (h.index key)
    | arguments arguments => exact ih (h.call arguments)

theorem NewExpression.news (h : NewExpression p k suffixes t) (j : Nat) :
    NewExpression p (k + j) suffixes ((fun t => .construct t none)^[j] t) := by
  induction j with
  | zero => exact h
  | succ j ih =>
    rw [Function.iterate_succ_apply']
    exact ih.new

/-- By induction on the suffixes: what has been taken up is a member expression until an argument
list finds no `new` that waits. -/
theorem MemberExpression.derives (h : MemberExpression p k before t) (j : Nat)
    (suffixes : List (Suffix E)) :
    LeftHandSideExpression p (k + j) (before ++ suffixes) (absorb j suffixes t) := by
  induction suffixes generalizing k j before t with
  | nil =>
    simpa [ChainTree.absorb] using LeftHandSideExpression.new ((NewExpression.member h).news j)
  | cons suffix suffixes ih =>
    rw [List.append_cons]
    cases suffix with
    | member name => simpa [ChainTree.absorb] using ih (h.member name) j
    | index key => simpa [ChainTree.absorb] using ih (h.index key) j
    | arguments arguments =>
      cases j with
      | zero => exact .call ((CallExpression.first h arguments).derives suffixes)
      | succ j =>
        rw [← Nat.add_assoc, Nat.add_right_comm]
        exact ih (h.new arguments) j

theorem MemberExpression.absorbed (h : MemberExpression p k suffixes t) (j : Nat)
    (rest : List (Suffix E)) :
    absorb (k + j) (suffixes ++ rest) (.operand p) = absorb j rest t := by
  induction h generalizing j rest with
  | primary => simp
  | member _ name ih => rw [List.append_assoc, ih]; rfl
  | index _ key ih => rw [List.append_assoc, ih]; rfl
  | new _ arguments ih => rw [List.append_assoc, Nat.add_assoc, Nat.add_comm 1, ih]; rfl

theorem NewExpression.absorbed (h : NewExpression p k suffixes t) (j : Nat) :
    absorb (k + j) suffixes (.operand p) = (fun t => .construct t none)^[j] t := by
  induction h generalizing j with
  | member h => simpa [absorb] using h.absorbed j []
  | new _ ih => rw [Nat.add_assoc, Nat.add_comm 1, ih, Function.iterate_succ_apply]

theorem CallExpression.absorbed (h : CallExpression p k suffixes t) (rest : List (Suffix E)) :
    absorb k (suffixes ++ rest) (.operand p) = absorb 0 rest t := by
  induction h generalizing rest with
  | first h arguments => rw [List.append_assoc]; exact h.absorbed 0 _
  | call _ arguments ih => rw [List.append_assoc, ih]; rfl
  | member _ name ih => rw [List.append_assoc, ih]; rfl
  | index _ key ih => rw [List.append_assoc, ih]; rfl

theorem leftHandSideExpression_iff :
    LeftHandSideExpression p k suffixes t ↔ t = absorb k suffixes (.operand p) := by
  constructor
  · rintro (h | h)
    · exact (h.absorbed 0).symm
    · simpa [absorb] using (h.absorbed []).symm
  · rintro rfl
    simpa using MemberExpression.primary.derives k suffixes

theorem news_layers (j : Nat) (t : ChainTree E) :
    ((fun t => .construct t none)^[j] t).layers = t.layers ++ List.replicate j (.construct none) ∧
      ((fun t => .construct t none)^[j] t).innermost = t.innermost := by
  induction j with
  | zero => simp
  | succ j ih =>
    rw [Function.iterate_succ_apply', List.replicate_succ']
    exact ⟨by rw [layers, ih.1, List.append_assoc], ih.2⟩

/-- By induction on the suffixes: the layers that are added to what is there are arranged. -/
theorem absorb_layers (k : Nat) (suffixes : List (Suffix E)) (t : ChainTree E) :
    (absorb k suffixes t).innermost = t.innermost ∧ ∃ applied,
      (absorb k suffixes t).layers =
        t.layers ++ (applied ++ List.replicate (k - (Suffix.argumentLists suffixes).length)
          (.construct none)) ∧
      applied.map Layer.suffix? = suffixes.map some ∧
      applied.filter Layer.takesArguments =
        ((Suffix.argumentLists suffixes).take k).map (.construct ∘ some) ++
          ((Suffix.argumentLists suffixes).drop k).map .call := by
  induction suffixes generalizing k t with
  | nil =>
    obtain ⟨hl, hi⟩ := news_layers k t
    exact ⟨hi, [], hl, rfl, by simp [Suffix.argumentLists]⟩
  | cons suffix suffixes ih =>
    cases suffix with
    | member name =>
      obtain ⟨hi, applied, hl, hs, hf⟩ := ih k (.member t name)
      refine ⟨hi, .member name :: applied, ?_, ?_, ?_⟩
      · simpa [absorb, layers, Suffix.argumentLists] using hl
      · simp [hs, Layer.suffix?]
      · simpa [Layer.takesArguments, Suffix.argumentLists] using hf
    | index key =>
      obtain ⟨hi, applied, hl, hs, hf⟩ := ih k (.index t key)
      refine ⟨hi, .index key :: applied, ?_, ?_, ?_⟩
      · simpa [absorb, layers, Suffix.argumentLists] using hl
      · simp [hs, Layer.suffix?]
      · simpa [Layer.takesArguments, Suffix.argumentLists] using hf
    | arguments arguments =>
      cases k with
      | zero =>
        obtain ⟨hi, applied, hl, hs, hf⟩ := ih 0 (.call t arguments)
        refine ⟨hi, .call arguments :: applied, ?_, ?_, ?_⟩
        · simpa [absorb, layers, Suffix.argumentLists] using hl
        · simp [hs, Layer.suffix?]
        · simpa [List.filter_cons, Layer.takesArguments, Suffix.argumentLists] using hf
      | succ k =>
        obtain ⟨hi, applied, hl, hs, hf⟩ := ih k (.construct t (some arguments))
        refine ⟨hi, .construct (some arguments) :: applied, ?_, ?_, ?_⟩
        · simpa [absorb, layers, Suffix.argumentLists] using hl
        · simp [hs, Layer.suffix?]
        · simpa [List.filter_cons, Layer.takesArguments, Suffix.argumentLists] using hf

theorem absorb_arranged (p : E) (k : Nat) (suffixes : List (Suffix E)) :
    (absorb k suffixes (.operand p)).Arranged p k suffixes := by
  obtain ⟨hi, applied, hl, hs, hf⟩ := absorb_layers k suffixes (.operand p)
  exact ⟨hi, applied, hl, hs, hf⟩

end

end ChainTree

namespace Parse

open ChainTree (Drawn LeftHandSideExpression absorb)

variable {B : NodeAlgebra} {r : Rules B} {c : ParseContext} {s s₁ s' : ParseState}

/-- So many `new` tokens stand between the states, none of them in front of a dot. -/
inductive News : Nat → ParseState → ParseState → Prop where
  | none {s : ParseState} : News 0 s s
  | more {k : Nat} {s s' : ParseState} (hk : s.kind = .kwNew) (hd : s.next.kind ≠ .dot)
    (h : News k s.next s') :
    News (k + 1) s s'

/-- The operand of a chain is read, which stands behind all `new` tokens but that of
`new.target`. -/
inductive ChainOperand (r : Rules B) (c : ParseContext) (s : ParseState) :
    B.Expression → ParseState → Prop where
  | primary {p : B.Expression} {s' : ParseState} (h : primary r c s = (.ok p, s')) :
    ChainOperand r c s p s'
  | newTarget {p : B.Expression} {s' : ParseState} (hk : s.kind = .kwNew) (hd : s.next.kind = .dot)
    (h : newTarget s c s.next.next = (.ok p, s')) : ChainOperand r c s p s'
  | super {p : B.Expression} {s' : ParseState} (hk : s.kind = .kwSuper)
    (h : superExpression c s = (.ok p, s')) :
    ChainOperand r c s p s'

/-- The suffixes stand between the states, and no other one follows. -/
inductive Suffixes (r : Rules B) (c : ParseContext) :
    ParseState → List (Suffix B.Expression) → ParseState → Prop where
  | none {s : ParseState} (hk : s.kind ∉ [.dot, .leftBracket, .leftParen, .backQuote]) :
    Suffixes r c s [] s
  | member {s s' : ParseState} {suffixes : List (Suffix B.Expression)} (hk : s.kind = .dot)
    (hn : s.next.kind.isIdentifierName = true) (h : Suffixes r c s.next.next suffixes s') :
    Suffixes r c s (.member s.next.token.name :: suffixes) s'
  | index {s s₁ s' : ParseState} {key : B.Expression} {suffixes : List (Suffix B.Expression)}
    (hk : s.kind = .leftBracket)
    (hx : allowingIn true (expression r) c s.next = (.ok key, s₁)) (he : s₁.kind = .rightBracket)
    (h : Suffixes r c s₁.next suffixes s') : Suffixes r c s (.index key :: suffixes) s'
  | arguments {s s₁ s' : ParseState} {as : List B.Expression}
    {suffixes : List (Suffix B.Expression)}
    (hk : s.kind = .leftParen) (hx : arguments r c s = (.ok as, s₁))
    (h : Suffixes r c s₁ suffixes s') :
    Suffixes r c s (.arguments as :: suffixes) s'

def MemberChain.finish (chain : MemberChain B.Expression) (stop : Position) : B.Expression :=
  chain.news.foldl (fun e new => B.construct ⟨new, stop⟩ e none) chain.expression

theorem drawn_finish {t : ChainTree B.Expression} {chain : MemberChain B.Expression}
    (h : Drawn t chain.expression) (stop : Position) :
    Drawn (absorb chain.news.length [] t) (chain.finish stop) := by
  obtain ⟨e, news⟩ := chain
  induction news generalizing t e with
  | nil => exact h
  | cons new news ih => exact ih _ (h.construct ⟨new, stop⟩ none)

/-- By induction on the suffixes: each is one round of the loop. -/
theorem Suffixes.rounds (start callee : Position) {suffixes : List (Suffix B.Expression)}
    (h : Suffixes r c s suffixes s') {m : Nat} (hm : suffixes.length < m)
      {t : ChainTree B.Expression}
    (chain : MemberChain B.Expression) (hd : Drawn t chain.expression) :
    ∃ chain', repeatBounded m (memberRound r start callee) chain c s = (.ok chain', s') ∧
      ∀ stop, Drawn (absorb chain.news.length suffixes t) (chain'.finish stop) := by
  induction h generalizing m t chain with
  | none hk =>
    obtain ⟨m, rfl⟩ := Nat.exists_eq_succ_of_ne_zero (Nat.ne_of_gt hm)
    refine ⟨chain, repeatBounded_done ?_, drawn_finish hd⟩
    simp only [memberRound, state_bind]
    split <;> simp_all
  | @member s _ _ hk hn _ ih =>
    obtain ⟨m, rfl⟩ := Nat.exists_eq_succ_of_ne_zero (Nat.ne_of_gt (Nat.zero_lt_of_lt hm))
    have hround : ∃ span, memberRound r start callee chain c s =
        (.ok (.again { chain with expression := B.member span chain.expression s.next.token.name }),
          s.next.next) := by
      simp only [memberRound, state_bind, hk, next_bind, hn, if_true, spanFrom_bind, pure_run]
      exact ⟨_, rfl⟩
    obtain ⟨span, hround⟩ := hround
    rw [repeatBounded_again hround]
    exact ih (Nat.lt_of_succ_lt_succ hm) _ (hd.member span _)
  | @index s s₁ _ key _ hk hx he _ ih =>
    obtain ⟨m, rfl⟩ := Nat.exists_eq_succ_of_ne_zero (Nat.ne_of_gt (Nat.zero_lt_of_lt hm))
    have hround : ∃ span, memberRound r start callee chain c s =
        (.ok (.again { chain with expression := B.index span chain.expression key }), s₁.next) := by
      simp only [memberRound, state_bind, hk, next_bind]
      rw [bind_run hx, bind_run (expect_ok (u := ()).2 ⟨he, rfl⟩)]
      exact ⟨_, rfl⟩
    obtain ⟨span, hround⟩ := hround
    rw [repeatBounded_again hround]
    exact ih (Nat.lt_of_succ_lt_succ hm) _ (hd.index span _)
  | @arguments s s₁ _ as _ hk hx _ ih =>
    obtain ⟨m, rfl⟩ := Nat.exists_eq_succ_of_ne_zero (Nat.ne_of_gt (Nat.zero_lt_of_lt hm))
    obtain ⟨e, news⟩ := chain
    cases news with
    | nil =>
      have hround : ∃ span, memberRound r start callee ⟨e, []⟩ c s =
          (.ok (.again ⟨B.call span e as, []⟩), s₁) := by
        simp only [memberRound, state_bind, hk]
        rw [bind_run hx]
        exact ⟨_, rfl⟩
      obtain ⟨span, hround⟩ := hround
      rw [repeatBounded_again hround]
      exact ih (Nat.lt_of_succ_lt_succ hm) _ (hd.call span _)
    | cons new news =>
      have hround : ∃ span, memberRound r start callee ⟨e, new :: news⟩ c s =
          (.ok (.again ⟨B.construct span e (some as), news⟩), s₁) := by
        simp only [memberRound, state_bind, hk]
        rw [bind_run hx]
        exact ⟨_, rfl⟩
      obtain ⟨span, hround⟩ := hround
      rw [repeatBounded_again hround]
      exact ih (Nat.lt_of_succ_lt_succ hm) _ (hd.construct span _)

theorem suffixes_of_rounds {start callee : Position} {chain a : MemberChain B.Expression}
    (h : Rounds (memberRound r start callee) c chain s a s') :
    ∃ suffixes, Suffixes r c s suffixes s' := by
  induction h with
  | @done chain _ _ _ h =>
    simp only [memberRound, state_bind] at h
    replace h : Yields _ c _ _ := h
    split at h
    case h_3 =>
      simp [Yields] at h
      obtain ⟨as, s₁, _, h⟩ := h
      cases hn : chain.news <;> simp [hn] at h
    case h_5 =>
      simp [Yields] at h
      obtain ⟨rfl, rfl⟩ := h
      exact ⟨[], .none (by simp_all)⟩
    all_goals simp [Yields] at h
  | @again chain _ _ _ _ _ h _ ih =>
    obtain ⟨suffixes, ih⟩ := ih
    obtain ⟨callee, waiting⟩ := chain
    simp only [memberRound, state_bind] at h
    replace h : Yields _ c _ _ := h
    split at h
    case h_1 hk =>
      simp [Yields, -List.isEmpty_iff] at h
      obtain ⟨hn, rfl, rfl⟩ := h
      exact ⟨_, .member hk hn ih⟩
    case h_2 hk =>
      simp only [Yields, next_bind, bind_ok, expect_ok, spanFrom_run, Prod.mk.injEq] at h
      obtain ⟨key, s₁, hx, _, _, ⟨he, rfl⟩, _, _, ⟨-, rfl⟩, h⟩ := h
      obtain ⟨-, rfl⟩ := pure_ok.1 h
      exact ⟨_, .index hk hx he ih⟩
    case h_3 hk =>
      simp [Yields] at h
      obtain ⟨as, s₁, hx, h⟩ := h
      cases waiting with
      | nil =>
        simp at h
        obtain ⟨rfl, rfl⟩ := h
        exact ⟨_, .arguments hk hx ih⟩
      | cons new waiting =>
        simp at h
        obtain ⟨rfl, rfl⟩ := h
        exact ⟨_, .arguments hk hx ih⟩
    all_goals simp [Yields] at h

theorem News.rounds {k : Nat} (h : News k s s') (m : Nat) (waiting : List Position) :
    ∃ waiting', waiting'.length = waiting.length + k ∧
      repeatBounded (m + k) (newRound (B := B)) waiting c s =
      repeatBounded m newRound waiting' c s' := by
  induction h generalizing waiting with
  | none => exact ⟨waiting, rfl, rfl⟩
  | @more k s _ hk hd _ ih =>
    have hround : newRound (B := B) waiting c s = (.ok (.again (s.start :: waiting)), s.next) := by
      simp only [newRound, state_bind, hk, BEq.rfl, if_true, next_bind, consume_bind, hd, if_false]
      rfl
    obtain ⟨waiting', hl, hw⟩ := ih (s.start :: waiting)
    exact ⟨waiting', by rw [hl, List.length_cons]; omega, (repeatBounded_again hround).trans hw⟩

theorem ChainOperand.round {p : B.Expression} (h : ChainOperand r c s p s')
    (waiting : List Position) :
    ∃ target s₁, newRound waiting c s = (.ok (.done (waiting, target)), s₁) ∧
      (match target with
        | some target => pure target
        | none =>
          if s₁.kind == .kwSuper then superExpression
            else Parse.primary r : Parse B.Expression) c s₁ =
        (.ok p, s') := by
  cases h with
  | primary h =>
    have hn : (s.kind == .kwNew) = false := by
      by_contra hk
      simp only [Bool.not_eq_false, beq_iff_eq] at hk
      simp [Parse.primary, hk] at h
    have hs : (s.kind == .kwSuper) = false := by
      by_contra hk
      simp only [Bool.not_eq_false, beq_iff_eq] at hk
      simp [Parse.primary, hk] at h
    refine ⟨none, s, ?_, ?_⟩
    · simp only [newRound, state_bind, hn]
      rfl
    · simpa only [hs, Bool.false_eq_true, if_false] using h
  | newTarget hk hd h =>
    refine ⟨some p, s', ?_, rfl⟩
    simp only [newRound, state_bind, hk, BEq.rfl, if_true, next_bind, consume_bind, hd]
    rw [bind_run h]
    rfl
  | super hk h =>
    refine ⟨none, s, ?_, ?_⟩
    · simp only [newRound, state_bind, hk]
      rfl
    · simpa only [hk, BEq.rfl, if_true] using h

theorem news_of_rounds {waiting : List Position} {a : List Position × Option B.Expression}
    (h : Rounds (newRound (B := B)) c waiting s a s') :
    ∃ k s₀, News k s s₀ ∧
    (a.2 = none ∧ s' = s₀ ∨ ∃ p, a.2 = some p ∧ ChainOperand r c s₀ p s') := by
  induction h with
  | @done _ s _ _ h =>
    simp [newRound] at h
    obtain ⟨hk, hd, target, ht, rfl⟩ | ⟨hk, rfl, rfl⟩ := h
    · exact ⟨0, s, .none, .inr ⟨target, rfl, .newTarget hk hd ht⟩⟩
    · exact ⟨0, _, .none, .inl ⟨rfl, rfl⟩⟩
  | again h _ ih =>
    simp [newRound] at h
    obtain ⟨hk, hd, rfl, rfl⟩ := h
    obtain ⟨k, s₀, hn, ho⟩ := ih
    exact ⟨k + 1, s₀, .more hk hd hn, ho⟩

theorem leftHandSide_of_suffixes {k : Nat} {s₀ : ParseState} {p : B.Expression}
    {suffixes : List (Suffix B.Expression)} (hn : News k s s₀) (ho : ChainOperand r c s₀ p s₁)
    (hs : Suffixes r c s₁ suffixes s') (hk : k < c.rounds) (hl : suffixes.length < c.rounds) :
    ∃ e, leftHandSide r c s = (.ok e, s') ∧ Drawn (absorb k suffixes (.operand p)) e := by
  obtain ⟨m, hm⟩ := Nat.exists_eq_add_of_lt hk
  obtain ⟨waiting, hw, hnews⟩ := hn.rounds (B := B) (c := c) (m + 1) []
  obtain ⟨target, t, hround, hoperand⟩ := ho.round waiting
  obtain ⟨chain, hchain, hd⟩ := hs.rounds s.start t.start hl ⟨p, waiting⟩ (.operand p)
  have hrun : repeatFrom [] (newRound (B := B)) c s = (.ok (waiting, target), t) := by
    rw [repeatFrom, hm, show k + m + 1 = m + 1 + k by omega, hnews, repeatBounded_done hround]
  refine ⟨chain.finish s'.lastEnd, ?_, ?_⟩
  · simp only [leftHandSide, state_bind]
    rw [bind_run hrun]
    have hchain : repeatFrom ⟨p, waiting⟩ (memberRound r s.start t.start) c s₁ =
        (.ok chain, s') := hchain
    cases target with
    | none =>
      by_cases hsuper : t.kind == .kwSuper
      all_goals
        simp only [state_bind, hsuper, if_true, if_false, Bool.false_eq_true] at hoperand ⊢
        rw [bind_run hoperand, bind_run hchain]
        rfl
    | some target =>
      obtain ⟨rfl, rfl⟩ := pure_ok.1 hoperand
      exact bind_run hchain
  · have hk : waiting.length = k := by simpa using hw
    exact hk ▸ hd s'.lastEnd

theorem suffixes_of_leftHandSide {e : B.Expression} (h : leftHandSide r c s = (.ok e, s')) :
    ∃ k s₀ p s₁ suffixes, News k s s₀ ∧ ChainOperand r c s₀ p s₁ ∧ Suffixes r c s₁ suffixes s' := by
  simp only [leftHandSide, state_bind, bind_ok] at h
  obtain ⟨⟨waiting, target⟩, t, hn, h⟩ := h
  obtain ⟨k, s₀, hnews, ⟨hnone, rfl⟩ | ⟨p, hsome, ho⟩⟩ :=
    news_of_rounds (r := r) (rounds_of_repeatFrom hn)
  · obtain rfl : target = none := hnone
    simp at h
    obtain ⟨hk, p, s₁, hp, chain, hm, rfl⟩ | ⟨hk, p, s₁, hp, chain, hm, rfl⟩ := h
    · obtain ⟨suffixes, hs⟩ := suffixes_of_rounds (rounds_of_repeatFrom hm)
      exact ⟨k, _, p, s₁, suffixes, hnews, .super hk hp, hs⟩
    · obtain ⟨suffixes, hs⟩ := suffixes_of_rounds (rounds_of_repeatFrom hm)
      exact ⟨k, _, p, s₁, suffixes, hnews, .primary hp, hs⟩
  · obtain rfl : target = some p := hsome
    simp at h
    obtain ⟨chain, hm, rfl⟩ := h
    obtain ⟨suffixes, hs⟩ := suffixes_of_rounds (rounds_of_repeatFrom hm)
    exact ⟨k, s₀, p, t, suffixes, hnews, ho, hs⟩

section

variable {n : Nat}

theorem News.moves {k : Nat} (h : News k s s') : s.Moves s' := by
  induction h with
  | none => exact .of_sight rfl
  | more _ _ _ ih => exact .trans (.next _) ih

theorem News.length_le {k : Nat} (h : News k s s') (hs : s.sight.Settled) : k ≤ s.sight.rest := by
  induction h with
  | none => exact Nat.zero_le _
  | @more k s _ hk _ _ ih =>
    have hc : s.Consumes s.next := .of_kind hk (.of_sight rfl) rfl
    exact Nat.lt_of_le_of_lt (ih (hs.moves hc.moves)) (hc.rest_lt hs)

theorem ChainOperand.moves {p : Expr} (h : ChainOperand (B := .tree) (.bounded .tree n) c s p s') :
    s.Moves s' := by
  have hr := bounded_reads .tree c n
  cases h with
  | primary h => exact (primary_read hr h).consumes.moves
  | newTarget hk hd h =>
    have hread : Reading .tree True c (.news []) s ([], some p) s' := .newTarget hk hd h
    exact (hread.consumes.resolve_left nofun).moves
  | super hk h =>
    have hread : Reading .tree True c .head s p s' := .superHead hk h
    exact hread.consumes.moves

theorem Suffixes.length_le {suffixes : List (Suffix NodeAlgebra.tree.Expression)}
    (h : Suffixes (.bounded .tree n) c s suffixes s') (hs : s.sight.Settled) :
    suffixes.length ≤ s.sight.rest := by
  have hr := bounded_reads .tree c n
  induction h with
  | none => exact Nat.zero_le _
  | @member s _ _ hk _ _ ih =>
    have hc : s.Consumes s.next.next := .of_kind hk (.next _) rfl
    exact Nat.lt_of_le_of_lt (ih (hs.moves hc.moves)) (hc.rest_lt hs)
  | @index s s₁ _ _ _ hk hx _ _ ih =>
    obtain ⟨t, he, rfl⟩ := allowingIn_ok.1 hx
    have hm : s.next.Moves (t.allow s.next.allowsIn) := (expression_read hr he).consumes.moves
    have hc : s.Consumes (t.allow s.next.allowsIn).next := .of_kind hk (hm.trans (.next _)) rfl
    exact Nat.lt_of_le_of_lt (ih (hs.moves hc.moves)) (hc.rest_lt hs)
  | @arguments s s₁ _ _ _ hk hx _ ih =>
    have hread : Reading .tree True c .arguments s _ s₁ := arguments_read hr hx
    cases hread with
    | @arguments s s₂ _ _ h _ =>
      have hm : s.next.Moves (s₂.allow s.allowsIn).next := h.bare.moves.trans (.next _)
      have hc : s.Consumes (s₂.allow s.allowsIn).next := .of_kind hk hm rfl
      exact Nat.lt_of_le_of_lt (ih (hs.moves hc.moves)) (hc.rest_lt hs)

end

/-- Where so many `new` tokens, an operand and suffixes stand, they are read, and what is read is
the one tree that the productions derive from them, with some spans; and nothing else is read. There
are more rounds than there is text left, as in the parse of every program. -/
theorem leftHandSide_derives {n : Nat} {c : ParseContext} {s : ParseState} (hs : s.sight.Settled)
    (hr : s.sight.rest < c.rounds) :
    (∀ k s₀ p s₁ suffixes s', News k s s₀ → ChainOperand (.bounded .tree n) c s₀ p s₁ →
      Suffixes (.bounded .tree n) c s₁ suffixes s' →
      ∃ e, ∃ t : ChainTree NodeAlgebra.tree.Expression,
      leftHandSide (.bounded .tree n) c s = (.ok e, s') ∧ t.Drawn e ∧
        (∀ t', LeftHandSideExpression p k suffixes t' ↔ t' = t) ∧ t.Arranged p k suffixes) ∧
    (∀ e s', leftHandSide (.bounded .tree n) c s = (.ok e, s') → ∃ k s₀ p s₁ suffixes, News k s s₀ ∧
      ChainOperand (.bounded .tree n) c s₀ p s₁ ∧
      Suffixes (.bounded .tree n) c s₁ suffixes s') := by
  refine ⟨fun k s₀ p s₁ suffixes s' hn ho hx => ?_, fun e s' h => suffixes_of_leftHandSide h⟩
  have hm := hn.moves.trans ho.moves
  have hk := hn.length_le hs
  have hl := hx.length_le (hs.moves hm)
  have hrest := hs.rest_moves hm
  obtain ⟨e, he, hd⟩ := leftHandSide_of_suffixes hn ho hx (by omega) (by omega)
  exact ⟨e, _, he, hd, fun t' => ChainTree.leftHandSideExpression_iff,
    ChainTree.absorb_arranged p k suffixes⟩

/-- The first argument list completes the inner `new`, the second one the outer one, and the third
one is a call. -/
theorem leftHandSide_derives_from_news :
    let source := Source.ofString "new new a.b(1)[c](d)(e)" ""
    let c : ParseContext := ⟨source, roundsFor source.size, false⟩
    let n := levelsFor source.size
    let r : Rules .tree := .bounded .tree n
    let s := ParseState.entered source {}
    s.sight.Settled ∧ s.sight.rest < c.rounds ∧ ∃ s₀ p s₁ inner key outer last s',
      let suffixes := [.member "b", .arguments inner, .index key, .arguments outer, .arguments last]
      News 2 s s₀ ∧ ChainOperand r c s₀ p s₁ ∧ Suffixes r c s₁ suffixes s' ∧
        ∃ e, ∃ t : ChainTree NodeAlgebra.tree.Expression,
        leftHandSide r c s = (.ok e, s') ∧ t.Drawn e ∧
          (∀ t', LeftHandSideExpression p 2 suffixes t' ↔ t' = t) ∧ t.Arranged p 2 suffixes := by
  intro source c n r s
  have found {α : Type} {x : Except ParseError α × ParseState} (h : x.1.isOk = true) : ∃ a,
      x = (.ok a, x.2) := by
    obtain ⟨_ | a, s'⟩ := x
    · cases h
    · exact ⟨a, rfl⟩
  have hs : s.sight.Settled := ParseState.settled_entered source {}
  have hr : s.sight.rest < c.rounds := by decide +kernel
  let s₁ := (primary r c s.next.next).2
  let s₂ := (arguments r c s₁.next.next).2
  let s₃ := (allowingIn true (expression r) c s₂.next).2
  let s₄ := (arguments r c s₃.next).2
  let s₅ := (arguments r c s₄).2
  have hn : s.kind = .kwNew ∧ s.next.kind = .kwNew ∧ s.next.next.kind ≠ .dot := by decide +kernel
  have hp : ∃ p, primary r c s.next.next = (.ok p, s₁) := found (by decide +kernel)
  have hb : s₁.kind = .dot ∧ s₁.next.kind.isIdentifierName = true ∧
      s₁.next.token.name = "b" := by decide +kernel
  have hk : s₁.next.next.kind = .leftParen ∧ s₂.kind = .leftBracket ∧ s₃.kind = .rightBracket ∧
    s₃.next.kind = .leftParen ∧ s₄.kind = .leftParen ∧
    s₅.kind ∉ [.dot, .leftBracket, .leftParen, .backQuote] := by
    decide +kernel
  have hinner : ∃ as, arguments r c s₁.next.next = (.ok as, s₂) := found (by decide +kernel)
  have hkey : ∃ key, allowingIn true (expression r) c s₂.next = (.ok key, s₃) :=
    found (by decide +kernel)
  have houter : ∃ as, arguments r c s₃.next = (.ok as, s₄) := found (by decide +kernel)
  have hlast : ∃ as, arguments r c s₄ = (.ok as, s₅) := found (by decide +kernel)
  clear_value s₅ s₄ s₃ s₂ s₁ s n c
  obtain ⟨p, hp⟩ := hp
  obtain ⟨inner, hinner⟩ := hinner
  obtain ⟨key, hkey⟩ := hkey
  obtain ⟨outer, houter⟩ := houter
  obtain ⟨last, hlast⟩ := hlast
  obtain ⟨hd, hi, hname⟩ := hb
  obtain ⟨h₁, h₂, h₃, h₄, h₅, h₆⟩ := hk
  have hnews : News 2 s s.next.next := .more hn.1 (hn.2.1 ▸ by decide) (.more hn.2.1 hn.2.2 .none)
  have hx : Suffixes r c s₂ [.index key, .arguments outer, .arguments last] s₅ :=
    .index h₂ hkey h₃ (.arguments h₄ houter (.arguments h₅ hlast (.none h₆)))
  have hx : Suffixes r c s₁ [.member "b", .arguments inner, .index key, .arguments outer,
      .arguments last] s₅ :=
    hname ▸ .member hd hi (.arguments h₁ hinner hx)
  obtain ⟨e, t, ht⟩ := (leftHandSide_derives hs hr).1 2 _ p _ _ _ hnews (.primary hp) hx
  exact ⟨hs, hr, _, p, s₁, inner, key, outer, last, s₅, hnews, .primary hp, hx, e, t, ht⟩

end Parse

end EcmaFront
