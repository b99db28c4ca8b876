import EcmaFront.Proofs.Consumption
import EcmaFront.Proofs.AllowedIn

/-!
Operands joined by binary operators. Over any sequence of operands and operators there is one tree
that has them in this order, with operators on the left of an operator that bind at least as tightly
as it and operators on its right that bind more tightly. Main statement: an expression of operands
and binary operators is this tree over the operands that are read, up to the first token that is no
operator here; and the two stacks by which a parser may build it hold at every join what the join
takes from them.
-/

set_option autoImplicit false

namespace EcmaFront

/-- Operands joined by operators. -/
inductive OperatorTree (U O : Type) where
  | operand (u : U)
  | join (left : OperatorTree U O) (operator : O) (right : OperatorTree U O)

namespace OperatorTree

variable {U O : Type}

/-- The operands and operators in the order of the text. -/
def sentence : OperatorTree U O → List (U ⊕ O)
  | operand u => [.inl u]
  | join left operator right => left.sentence ++ .inr operator :: right.sentence

/-- An operand, and after it operators with their right operands. -/
def sentenceOf (u : U) (rest : List (O × U)) : List (U ⊕ O) :=
  .inl u :: rest.flatMap fun (operator, u) => [.inr operator, .inl u]

def operators : OperatorTree U O → List O
  | operand _ => []
  | join left operator right => left.operators ++ operator :: right.operators

def first : OperatorTree U O → U
  | operand u => u
  | join left _ _ => left.first

def last : OperatorTree U O → U
  | operand u => u
  | join _ _ right => right.last

/-- Left of an operator every operator binds at least as tightly as it does, right of it more
tightly. -/
def Graded (precedence : O → Nat) : OperatorTree U O → Prop
  | operand _ => True
  | join left operator right =>
    left.Graded precedence ∧ right.Graded precedence ∧
      (∀ o ∈ left.operators, precedence operator ≤ precedence o) ∧
      ∀ o ∈ right.operators, precedence operator < precedence o

/-- The tree stands for a sentence, and groups it by precedence. -/
structure Groups (t : OperatorTree U O) (precedence : O → Nat) (u : U) (rest : List (O × U)) :
    Prop where
  sentence : t.sentence = sentenceOf u rest
  graded : t.Graded precedence

variable {precedence : O → Nat} {t t' : OperatorTree U O}

theorem forall_operand {P : O → Prop} (u : U) :
    ∀ o ∈ (operand u : OperatorTree U O).operators, P o :=
  fun _ h => absurd h List.not_mem_nil

theorem mem_sentence {o : O} : .inr o ∈ t.sentence ↔ o ∈ t.operators := by
  induction t with
  | operand u => simp [OperatorTree.sentence, operators]
  | join left operator right ihl ihr => simp [OperatorTree.sentence, operators, ihl, ihr]

theorem eq_operand {u : U} (h : t.sentence = [.inl u]) : t = operand u := by
  cases t with
  | operand u' => simpa [OperatorTree.sentence] using h
  | join left o right =>
    have ho : .inr o ∈ (join left o right).sentence := mem_sentence.2 (by simp [operators])
    simp [h] at ho

/-- The operator at the root is the last of those that bind least tightly, so it stands where it
stands in every other tree over the sentence. -/
theorem Graded.unique (h : t.Graded precedence) (h' : t'.Graded precedence)
    (hs : t.sentence = t'.sentence) :
    t = t' := by
  induction t generalizing t' with
  | operand u => exact (eq_operand hs.symm).symm
  | join left o right ihl ihr =>
    cases t' with
    | operand u' => exact eq_operand hs
    | join left' o' right' =>
      obtain ⟨hl, hr, hlo, hro⟩ := h
      obtain ⟨hl', hr', hlo', hro'⟩ := h'
      simp only [OperatorTree.sentence] at hs
      obtain ⟨m, hm, hrest⟩ | ⟨m, hm, hrest⟩ := List.append_eq_append_iff.1 hs
      all_goals
        cases m with
        | nil =>
          simp only [List.append_nil, List.nil_append, List.cons.injEq, Sum.inr.injEq] at hm hrest
          obtain ⟨rfl, hright⟩ := hrest
          rw [ihl hl hl' (by rw [hm]), ihr hr hr' (by rw [hright])]
        | cons x m => ?_
      -- The root of the one tree would stand in the left part of the other, whose root would stand
      -- in its right part.
      · obtain ⟨rfl, hright⟩ := List.cons.inj hrest
        have ho : o ∈ left'.operators := mem_sentence.1 (by simp [hm])
        have ho' : o' ∈ right.operators := mem_sentence.1 (by simp [hright])
        exact absurd (hlo' o ho) (Nat.not_le.2 (hro o' ho'))
      · obtain ⟨rfl, hright⟩ := List.cons.inj hrest
        have ho' : o' ∈ left.operators := mem_sentence.1 (by simp [hm])
        have ho : o ∈ right'.operators := mem_sentence.1 (by simp [hright])
        exact absurd (hlo o' ho') (Nat.not_le.2 (hro' o ho))

theorem Groups.unique {u : U} {rest : List (O × U)} (h : t.Groups precedence u rest)
    (h' : t'.Groups precedence u rest) : t = t' :=
  h.graded.unique h'.graded (h.sentence.trans h'.sentence.symm)

/-! The trees of a climb. -/

/-- How tightly the operator binds that waits for its right operand. -/
def floor (precedence : O → Nat) : List (OperatorTree U O × O) → Nat
  | [] => 0
  | (_, operator) :: _ => precedence operator

/-- What stands in front of the last operand: the waiting trees with their operators, the last one
first. -/
def lead : List (OperatorTree U O × O) → List (U ⊕ O)
  | [] => []
  | (left, operator) :: waiting => lead waiting ++ left.sentence ++ [.inr operator]

/-- Trees wait for their right operands, each operator binding more tightly than the one before it.
The last tree may become a right operand as well as a left one. -/
inductive Spine (precedence : O → Nat) : List (OperatorTree U O × O) → OperatorTree U O → Prop where
  | start {t : OperatorTree U O} (ht : t.Graded precedence) (hp : ∀ o ∈ t.operators,
    0 < precedence o) :
    Spine precedence [] t
  | wait {waiting : List (OperatorTree U O × O)} {left t : OperatorTree U O} {operator : O}
    (h : Spine precedence waiting left) (hl : ∀ o ∈ left.operators,
      precedence operator ≤ precedence o)
    (hf : floor precedence waiting < precedence operator) (ht : t.Graded precedence)
    (hr : ∀ o ∈ t.operators, precedence operator < precedence o) :
    Spine precedence ((left, operator) :: waiting) t

namespace Spine

variable {waiting : List (OperatorTree U O × O)} {left : OperatorTree U O} {operator : O}

theorem graded (h : Spine precedence waiting t) : t.Graded precedence := by
  cases h with
  | start ht => exact ht
  | wait _ _ _ ht => exact ht

theorem above (h : Spine precedence waiting t) :
    ∀ o ∈ t.operators, floor precedence waiting < precedence o := by
  cases h with
  | start _ hp => exact hp
  | wait _ _ _ _ hr => exact hr

theorem replace (h : Spine precedence waiting t) (ht : t'.Graded precedence)
    (hp : ∀ o ∈ t'.operators, floor precedence waiting < precedence o) :
    Spine precedence waiting t' := by
  cases h with
  | start => exact .start ht hp
  | wait h hl hf => exact .wait h hl hf ht hp

theorem join (h : Spine precedence ((left, operator) :: waiting) t) :
    Spine precedence waiting (left.join operator t) := by
  cases h with
  | wait h hl hf ht hr =>
    refine h.replace ⟨h.graded, ht, hl, hr⟩ fun o ho => ?_
    simp only [operators, List.mem_append, List.mem_cons] at ho
    obtain ho | rfl | ho := ho
    · exact h.above o ho
    · exact hf
    · exact hf.trans (hr o ho)

end Spine

end OperatorTree

/-- A kind of token that writes a binary operator. -/
structure BinaryToken where
  kind : TokenKind
  op : BinaryOp
  writes : BinaryOp.ofToken? kind = some op

def BinaryToken.precedence (o : BinaryToken) (allowsIn : Bool) : Nat := o.kind.precedence allowsIn

namespace OperatorTree

open Parse (Placed Waiting BinaryScan)

variable {B : NodeAlgebra}

/-- The expression that the tree stands for. What two operands are joined to reaches from the start
of the first operand in it to the end of the last one. -/
def expression : OperatorTree (Placed B.Expression) BinaryToken → B.Expression
  | operand u => u.expression
  | join left operator right =>
    B.binary ⟨left.first.span.start, right.last.span.stop⟩ operator.op left.expression
      right.expression

def placed (t : OperatorTree (Placed B.Expression) BinaryToken) : Placed B.Expression :=
  ⟨t.expression, t.first.span.start, t.last.span.stop⟩

def waits (allowsIn : Bool) (w : OperatorTree (Placed B.Expression) BinaryToken × BinaryToken) :
    Waiting B.Expression :=
  ⟨w.1.placed, w.2.op, w.2.precedence allowsIn⟩

variable {allowsIn : Bool} {t : OperatorTree (Placed B.Expression) BinaryToken}
  {waiting : List (OperatorTree (Placed B.Expression) BinaryToken × BinaryToken)}

/-- By induction on what waits: an operator joins its operands unless it binds less tightly than the
next one. -/
theorem Spine.reduce {p : Nat} (h : Spine (·.precedence allowsIn) waiting t)
    (hp : ∀ o ∈ t.operators, p ≤ o.precedence allowsIn) :
    ∃ waiting' t', Parse.reduce p (waiting.map (waits allowsIn)) t.placed =
    (waiting'.map (waits allowsIn), t'.placed) ∧
      Spine (·.precedence allowsIn) waiting' t' ∧ (∀ o ∈ t'.operators, p ≤ o.precedence allowsIn) ∧
      (waiting' = [] ∨ floor (·.precedence allowsIn) waiting' < p) ∧
      lead waiting' ++ t'.sentence = lead waiting ++ t.sentence := by
  induction waiting generalizing t with
  | nil => exact ⟨[], t, rfl, h, hp, .inl rfl, rfl⟩
  | cons w waiting ih =>
    obtain ⟨left, operator⟩ := w
    by_cases hle : p ≤ operator.precedence allowsIn
    · have hjoin : ∀ o ∈ (left.join operator t).operators,
          p ≤ o.precedence allowsIn := fun o ho => by
        simp only [operators, List.mem_append, List.mem_cons] at ho
        cases h with
        | wait _ hl =>
          obtain ho | rfl | ho := ho
          · exact hle.trans (hl o ho)
          · exact hle
          · exact hp o ho
      obtain ⟨waiting', t', hr, hs, hp', hf, hlead⟩ := ih h.join hjoin
      refine ⟨waiting', t', ?_, hs, hp', hf, ?_⟩
      · rw [← hr]
        simp only [List.map_cons, Parse.reduce, waits, hle, if_true]
        rfl
      · simpa [lead, OperatorTree.sentence] using hlead
    · refine ⟨_, t, ?_, h, hp, .inr (Nat.not_le.1 hle), rfl⟩
      simp only [List.map_cons, Parse.reduce, waits, hle, if_false]

end OperatorTree

namespace Parse

variable {B : NodeAlgebra}

open OperatorTree (forall_operand Spine lead sentenceOf waits floor)

def BinaryScan.result (scan : BinaryScan B.Expression) : B.Expression :=
  (reduce 0 scan.waiting scan.operand).2.expression

def BinaryScan.follow (allowsIn : Bool) (scan : BinaryScan B.Expression)
    (next : BinaryToken × Placed B.Expression) :
    BinaryScan B.Expression :=
  let reduced := reduce (next.1.precedence allowsIn) scan.waiting scan.operand
  ⟨⟨reduced.2, next.1.op, next.1.precedence allowsIn⟩ :: reduced.1, next.2⟩

/-- By induction on the operators that follow: each keeps the trees graded and their sentence. -/
theorem follow_groups {allowsIn : Bool}
    {waiting : List (OperatorTree (Placed B.Expression) BinaryToken × BinaryToken)}
    {u : Placed B.Expression} {rest : List (BinaryToken × Placed B.Expression)}
    (h : Spine (·.precedence allowsIn) waiting (.operand u))
    (hp : ∀ next ∈ rest, 0 < next.1.precedence allowsIn) :
    ∃ t : OperatorTree (Placed B.Expression) BinaryToken,
      t.Graded (·.precedence allowsIn) ∧ t.sentence = lead waiting ++ sentenceOf u rest ∧
      (rest.foldl (·.follow allowsIn ·) ⟨waiting.map (waits allowsIn), u⟩ : BinaryScan
        B.Expression).result =
        t.expression := by
  induction rest generalizing waiting u with
  | nil =>
    obtain ⟨waiting', t, hr, hs, -, hf, hlead⟩ := h.reduce (p := 0) (forall_operand u)
    obtain rfl := hf.resolve_right (Nat.not_lt_zero _)
    refine ⟨t, hs.graded, by simpa [lead, sentenceOf, OperatorTree.sentence] using hlead, ?_⟩
    exact congrArg (fun r => r.2.expression) hr
  | cons next rest ih =>
    obtain ⟨operator, v⟩ := next
    obtain ⟨hpo, hp⟩ := List.forall_mem_cons.1 hp
    obtain ⟨waiting', t, hr, hs, hle, hf, hlead⟩ :=
      h.reduce (p := operator.precedence allowsIn) (forall_operand u)
    have hfloor : floor (·.precedence allowsIn) waiting' < operator.precedence allowsIn := by
      obtain rfl | hf := hf
      · exact hpo
      · exact hf
    have hwait : Spine (·.precedence allowsIn) ((t, operator) :: waiting') (.operand v) :=
      .wait hs hle hfloor trivial (forall_operand v)
    obtain ⟨t', hg, hsent, hres⟩ := ih hwait hp
    refine ⟨t', hg, ?_, ?_⟩
    · rw [hsent]
      simp only [OperatorTree.lead, hlead]
      simp [OperatorTree.sentence, OperatorTree.sentenceOf]
    · rw [← hres, List.foldl_cons]
      congr 2
      have hr : reduce (operator.precedence allowsIn) (waiting.map (waits allowsIn)) u = _ := hr
      simp only [BinaryScan.follow, hr]
      rfl

theorem exists_groups {allowsIn : Bool} (u : Placed B.Expression)
    {rest : List (BinaryToken × Placed B.Expression)}
    (hp : ∀ next ∈ rest, 0 < next.1.precedence allowsIn) :
    ∃ t : OperatorTree (Placed B.Expression) BinaryToken, t.Groups (·.precedence allowsIn) u rest ∧
      (rest.foldl (·.follow allowsIn ·) (⟨[], u⟩ : BinaryScan B.Expression)).result =
      t.expression := by
  obtain ⟨t, hg, hsent, he⟩ := follow_groups (.start trivial (forall_operand u)) hp
  exact ⟨t, ⟨hsent, hg⟩, he⟩

/-- From one state to the other stand operators with their right operands, and no operator
follows. -/
inductive Operands (r : Rules B) (c : ParseContext) (allowsIn : Bool) :
    ParseState → List (BinaryToken × Placed B.Expression) → ParseState → Prop where
  | none {s : ParseState} (hp : s.kind.precedence allowsIn = 0) : Operands r c allowsIn s [] s
  | more {s s₁ s' : ParseState} {operator : BinaryToken} {u : Placed B.Expression}
    {rest : List (BinaryToken × Placed B.Expression)} (hk : s.kind = operator.kind)
    (hp : 0 < operator.precedence allowsIn) (hu : placedOperand r c s.next = (.ok u, s₁))
    (h : Operands r c allowsIn s₁ rest s') : Operands r c allowsIn s ((operator, u) :: rest) s'

variable {r : Rules B} {c : ParseContext} {s s' : ParseState}

theorem Operands.precedence_pos {allowsIn : Bool} {rest : List (BinaryToken × Placed B.Expression)}
    (h : Operands r c allowsIn s rest s') : ∀ next ∈ rest, 0 < next.1.precedence allowsIn := by
  induction h with
  | none => exact fun _ h => absurd h List.not_mem_nil
  | more _ hp _ _ ih => exact List.forall_mem_cons.2 ⟨hp, ih⟩

theorem binaryOp?_eq_none (s : ParseState) :
    s.binaryOp? = none ↔ s.kind.precedence s.allowsIn = 0 := by
  have hop := BinaryOp.isSome_ofToken? s.kind
  unfold ParseState.binaryOp?
  cases s.allowsIn <;> cases hk : s.kind <;> simp_all [TokenKind.precedence, BinaryOp.ofToken?]

theorem exists_binaryToken (h : ¬s.kind.precedence s.allowsIn = 0) :
    ∃ operator : BinaryToken, s.kind = operator.kind ∧ 0 < operator.precedence s.allowsIn := by
  obtain ⟨op, hop⟩ := Option.ne_none_iff_exists'.1 (mt (binaryOp?_eq_none s).1 h)
  exact ⟨⟨s.kind, op, by simpa [ParseState.binaryOp?, h] using hop⟩, rfl, Nat.pos_of_ne_zero h⟩

theorem binaryRound_none {scan : BinaryScan B.Expression} (h : s.kind.precedence s.allowsIn = 0) :
    binaryRound r scan c s = (.ok (.done scan.result), s) := by
  simp only [binaryRound, state_bind, h, if_true]
  rfl

theorem binaryRound_more {scan : BinaryScan B.Expression} {operator : BinaryToken}
    (hk : s.kind = operator.kind) (hp : 0 < operator.precedence s.allowsIn) :
    binaryRound r scan c s =
      (placedOperand r >>= fun u => pure (.again (scan.follow s.allowsIn (operator, u)))) c
        s.next := by
  have hp : s.kind.precedence s.allowsIn ≠ 0 := hk ▸ Nat.ne_of_gt hp
  have hop : BinaryOp.ofToken? s.kind = some operator.op := hk ▸ operator.writes
  simp only [binaryRound, state_bind, hp, if_false, hop, next_bind]
  simp only [BinaryScan.follow, BinaryToken.precedence, hk]

theorem allowsIn_placedOperand {n : Nat} {u : Placed B.Expression}
    (h : placedOperand (.bounded B n) c s = (.ok u, s')) : s'.allowsIn = s.allowsIn :=
  (placedOperand_read (bounded_reads B c n) h).allowsIn

/-- By induction on the rounds: a round that is not the last reads an operator and its right
operand. -/
theorem binaryRounds_ok {n m : Nat} {scan : BinaryScan B.Expression} {e : B.Expression} :
    repeatBounded m (binaryRound (.bounded B n)) scan c s = (.ok e, s') ↔
      ∃ rest, Operands (.bounded B n) c s.allowsIn s rest s' ∧ rest.length < m ∧
        e = (rest.foldl (·.follow s.allowsIn ·) scan).result := by
  induction m generalizing s scan with
  | zero => simp [repeatBounded]
  | succ m ih =>
    by_cases hp : s.kind.precedence s.allowsIn = 0
    · rw [repeatBounded_done (binaryRound_none hp)]
      constructor
      · intro h
        obtain ⟨rfl, rfl⟩ : scan.result = e ∧ s = s' := by simpa using h
        exact ⟨[], .none hp, Nat.succ_pos m, rfl⟩
      · rintro ⟨rest, h, -, rfl⟩
        cases h with
        | none => rfl
        | more hk hpo => exact absurd hp (hk ▸ Nat.ne_of_gt hpo)
    · constructor
      · intro h
        obtain ⟨operator, hk, hpo⟩ := exists_binaryToken hp
        simp only [repeatBounded, bind_ok, binaryRound_more hk hpo] at h
        obtain ⟨_, _, ⟨u, s₁, hu, hround⟩, h⟩ := h
        obtain ⟨rfl, rfl⟩ := pure_ok.1 hround
        obtain ⟨rest, hrest, hlen, rfl⟩ := ih.1 h
        rw [allowsIn_placedOperand hu] at hrest ⊢
        exact ⟨_, .more hk hpo hu hrest, Nat.succ_lt_succ hlen, rfl⟩
      · rintro ⟨rest, h, hlen, rfl⟩
        cases h with
        | none hp' => exact absurd hp' hp
        | more hk hpo hu hrest =>
          have hround : binaryRound (.bounded B n) scan c s = _ := binaryRound_more hk hpo
          rw [bind_run hu, pure_run] at hround
          rw [repeatBounded_again hround, ih]
          have hin := allowsIn_placedOperand hu
          rw [ParseState.allowsIn_next] at hin
          rw [hin]
          exact ⟨_, hrest, Nat.lt_of_succ_lt_succ hlen, rfl⟩

theorem Operands.length_le {n : Nat} {allowsIn : Bool}
    {rest : List (BinaryToken × Placed NodeAlgebra.tree.Expression)}
    (h : Operands (Rules.bounded .tree n) c allowsIn s rest s') (hs : s.sight.Settled) :
    rest.length ≤ s.sight.rest := by
  induction h with
  | none => exact Nat.zero_le _
  | @more t _ _ operator _ _ hk _ hu _ ih =>
    have hu := (placedOperand_read (bounded_reads .tree c n) hu).consumes
    have hc : t.Consumes _ := .of_kind hk hu.moves (TokenKind.isSolid_of_binaryOp operator.writes)
    exact Nat.lt_of_le_of_lt (ih (hs.moves hc.moves)) (hc.rest_lt hs)

/-- An expression of operands and operators is read if and only if operands with operators between
them are read, and it is what they are joined to. -/
theorem binaryExpression_ok {n : Nat} {e : B.Expression} :
    binaryExpression (.bounded B n) c s = (.ok e, s') ↔
      ∃ u s₁ rest, placedOperand (.bounded B n) c s = (.ok u, s₁) ∧
        Operands (.bounded B n) c s.allowsIn s₁ rest s' ∧ rest.length < c.rounds ∧
        e = (rest.foldl (·.follow s.allowsIn ·) (⟨[], u⟩ : BinaryScan B.Expression)).result := by
  simp only [binaryExpression, bind_ok, repeatFrom, binaryRounds_ok]
  constructor
  · rintro ⟨u, s₁, hu, rest, hrest, hlen, rfl⟩
    rw [allowsIn_placedOperand hu] at hrest ⊢
    exact ⟨u, s₁, rest, hu, hrest, hlen, rfl⟩
  · rintro ⟨u, s₁, rest, hu, hrest, hlen, rfl⟩
    rw [← allowsIn_placedOperand hu] at hrest ⊢
    exact ⟨u, s₁, hu, rest, hrest, hlen, rfl⟩

/-! Two stacks. -/

/-- Operands and operators that are not yet joined, the last ones first. -/
structure Stacks (E : Type) where
  operands : List (Placed E)
  operators : List (BinaryOp × Nat)

namespace Stacks

/-- Take an operator and two operands, and put back what they are joined to, as long as the operator
binds at least as tightly as the next one. There is no result if a stack has too little on it. -/
def reduce? (precedence : Nat) :
    List (BinaryOp × Nat) → List (Placed B.Expression) → Option (Stacks B.Expression)
  | [], operands => some ⟨operands, []⟩
  | (op, top) :: operators, operands =>
    if precedence ≤ top then
      match operands with
      | right :: left :: operands =>
        let span := ⟨left.span.start, right.span.stop⟩
        reduce? precedence operators
          (⟨B.binary span op left.expression right.expression, span⟩ :: operands)
      | _ => none
    else some ⟨operands, (op, top) :: operators⟩

def result? (held : Stacks B.Expression) : Option B.Expression :=
  match reduce? 0 held.operators held.operands with
  | some ⟨[operand], []⟩ => some operand.expression
  | _ => none

end Stacks

/-- An operator is pushed when those that bind at least as tightly have been joined, then its right
operand. -/
def stackRound (r : Rules B) (held : Stacks B.Expression) :
    Parse (Round (Stacks B.Expression) (Option B.Expression)) := do
  let s ← state
  let precedence := s.kind.precedence s.allowsIn
  match if precedence = 0 then none else BinaryOp.ofToken? s.kind with
  | none => pure (.done held.result?)
  | some op =>
    next
    match Stacks.reduce? precedence held.operators held.operands with
    | none => pure (.done none)
    | some rest =>
      let operand ← placedOperand r
      pure (.again ⟨operand :: rest.operands, (op, precedence) :: rest.operators⟩)

/-- Operands and binary operators, by two stacks. There is no result if one of them has too little
on it. -/
def stackExpression (r : Rules B) : Parse (Option B.Expression) := do
  let operand ← placedOperand r
  repeatFrom ⟨[operand], []⟩ (stackRound r)

def Round.map {α β σ τ : Type} (f : σ → τ) (g : α → β) : Round σ α → Round τ β
  | .again x => .again (f x)
  | .done a => .done (g a)

/-- The stacks that hold what waits in a scan, and its last operand. -/
def BinaryScan.stacks (scan : BinaryScan B.Expression) : Stacks B.Expression :=
  ⟨scan.operand :: scan.waiting.map (·.left), scan.waiting.map fun w => (w.op, w.precedence)⟩

theorem reduce?_stacks (p : Nat) (waiting : List (Waiting B.Expression))
    (operand : Placed B.Expression) :
    Stacks.reduce? p (waiting.map fun w => (w.op, w.precedence)) (operand :: waiting.map (·.left)) =
      some (BinaryScan.stacks ⟨(reduce p waiting operand).1, (reduce p waiting operand).2⟩) := by
  induction waiting generalizing operand with
  | nil => rfl
  | cons w waiting ih =>
    by_cases h : p ≤ w.precedence
    · simp only [List.map_cons, Stacks.reduce?, reduce, h, if_true]
      exact ih (w.join operand)
    · simp only [List.map_cons, Stacks.reduce?, reduce, h, if_false]
      rfl

theorem result?_stacks (scan : BinaryScan B.Expression) :
    scan.stacks.result? = some scan.result := by
  simp only [Stacks.result?, BinaryScan.stacks, reduce?_stacks, reduce_zero, List.map_nil]
  rfl

theorem repeatBounded_mirror {α β σ τ : Type} {round : σ → Parse (Round σ α)}
    {round' : τ → Parse (Round τ β)} {f : σ → τ} {g : α → β}
    (h : ∀ x, round' (f x) = Round.map f g <$> round x) (n : Nat) (x : σ) :
    repeatBounded n round' (f x) = g <$> repeatBounded n round x := by
  induction n generalizing x with
  | zero => rfl
  | succ n ih =>
    funext c s
    simp only [repeatBounded, h, Functor.map, bind]
    rcases round x c s with ⟨e | step, s₁⟩
    · rfl
    · cases step with
      | again y => exact congrFun (congrFun (ih y) c) s₁
      | done a => rfl

theorem stackRound_stacks (r : Rules B) (scan : BinaryScan B.Expression) :
    stackRound r scan.stacks = Round.map BinaryScan.stacks some <$> binaryRound r scan := by
  funext c s
  by_cases hp : s.kind.precedence s.allowsIn = 0
  · simp only [Functor.map, binaryRound_none hp]
    simp only [stackRound, state_bind, hp, if_true, result?_stacks]
    rfl
  · obtain ⟨operator, hk, hpo⟩ := exists_binaryToken hp
    have hop : BinaryOp.ofToken? s.kind = some operator.op := hk ▸ operator.writes
    have hr := reduce?_stacks (s.kind.precedence s.allowsIn) scan.waiting scan.operand
    simp only [Functor.map, binaryRound_more hk hpo]
    simp only [stackRound, state_bind, hp, if_false, hop, next_bind, BinaryScan.stacks, hr]
    simp only [bind]
    rcases placedOperand r c s.next with ⟨e | u, s₁⟩
    · rfl
    · simp only [BinaryScan.follow, BinaryToken.precedence, ← hk]
      rfl

theorem stackExpression_eq (r : Rules B) : stackExpression r = some <$> binaryExpression r := by
  funext c s
  simp only [stackExpression, binaryExpression, Functor.map, bind]
  rcases placedOperand r c s with ⟨e | u, s₁⟩
  · rfl
  · have h := repeatBounded_mirror (stackRound_stacks r) c.rounds ⟨[], u⟩
    exact congrFun (congrFun h c) s₁

/-- What is read is the one graded tree over the operands and operators, whatever `in` is taken for:
the operators are those that have a precedence then. There are more rounds than there is text left,
as in the parse of every program. -/
theorem binaryExpression_groups {n : Nat} {c : ParseContext} {s : ParseState} (hs : s.sight.Settled)
    (hr : s.sight.rest < c.rounds) :
    (∀ e s', binaryExpression (.bounded .tree n) c s = (.ok e, s') ↔
      ∃ u s₁ rest, ∃ t : OperatorTree (Placed NodeAlgebra.tree.Expression) BinaryToken,
        placedOperand (.bounded .tree n) c s = (.ok u, s₁) ∧
        Operands (.bounded .tree n) c s.allowsIn s₁ rest s' ∧
        t.Groups (·.precedence s.allowsIn) u rest ∧ e = t.expression) ∧
    (∀ u rest, (∀ next ∈ rest, 0 < next.1.precedence s.allowsIn) →
      ∃! t : OperatorTree (Placed NodeAlgebra.tree.Expression) BinaryToken,
      t.Groups (·.precedence s.allowsIn) u rest) ∧
    stackExpression (.bounded .tree n) = some <$> binaryExpression (.bounded .tree n) := by
  refine ⟨fun e s' => ⟨fun h => ?_, ?_⟩, fun u rest hp => ?_, stackExpression_eq _⟩
  · obtain ⟨u, s₁, rest, hu, hrest, -, rfl⟩ := binaryExpression_ok.1 h
    obtain ⟨t, ht, he⟩ := exists_groups u hrest.precedence_pos
    exact ⟨u, s₁, rest, t, hu, hrest, ht, he⟩
  · rintro ⟨u, s₁, rest, t, hu, hrest, ht, rfl⟩
    obtain ⟨t', ht', he⟩ := exists_groups u hrest.precedence_pos
    obtain rfl := ht.unique ht'
    have hc := (placedOperand_read (bounded_reads .tree c n) hu).consumes
    have hlen := hrest.length_le (hs.moves hc.moves)
    have hlt := hc.rest_lt hs
    exact binaryExpression_ok.2 ⟨u, s₁, rest, hu, hrest, by omega, he.symm⟩
  · obtain ⟨t, ht, -⟩ := exists_groups u hp
    exact ⟨t, ht, fun t' ht' => ht'.unique ht⟩

theorem settled_allow (h : s.sight.Settled) (allowed : Bool) : (s.allow allowed).sight.Settled := h

/-- Where `in` is no operator, it ends the expression. -/
theorem binaryExpression_groups_before_in :
    let source := Source.ofString "a-b*c-d in e" ""
    let c : ParseContext := ⟨source, roundsFor source.size, false⟩
    let n := levelsFor source.size
    let s := (ParseState.entered source {}).allow false
    s.sight.Settled ∧ s.sight.rest < c.rounds ∧ ∃ u s₁ rest s',
      ∃ t : OperatorTree (Placed NodeAlgebra.tree.Expression) BinaryToken,
      placedOperand (.bounded .tree n) c s = (.ok u, s₁) ∧
      Operands (.bounded .tree n) c false s₁ rest s' ∧
      t.Groups (·.precedence false) u rest ∧
      binaryExpression (.bounded .tree n) c s = (.ok t.expression, s') ∧ s'.kind = .kwIn := by
  intro source c n s
  have hs : s.sight.Settled := settled_allow (ParseState.settled_entered source {}) false
  have hr : s.sight.rest < c.rounds := by decide +kernel
  have hok : (binaryExpression (.bounded .tree n) c s).1.isOk = true := by decide +kernel
  have hk : (binaryExpression (.bounded .tree n) c s).2.kind = .kwIn := by decide +kernel
  have hin : s.allowsIn = false := rfl
  clear_value s n c
  cases he : (binaryExpression (.bounded .tree n) c s).1 with
  | error e =>
    rw [he] at hok
    cases hok
  | ok e =>
    have h : binaryExpression (.bounded .tree n) c s = (.ok e, _) := Prod.ext he rfl
    obtain ⟨u, s₁, rest, t, hu, hrest, ht, rfl⟩ := ((binaryExpression_groups hs hr).1 _ _).1 h
    rw [hin] at hrest ht
    exact ⟨hs, hr, u, s₁, rest, _, t, hu, hrest, ht, h, hk⟩

end Parse

end EcmaFront
