import EcmaFront.Proofs.Phrase

/-!
Expressions that grow while they are read: an operand with member accesses and arguments behind it
and `new` in front, and operands between binary operators. What is known of the parts so far is kept
until the whole is made.
-/

set_option autoImplicit false

namespace EcmaFront

open Parse (MemberChain Placed Waiting)

namespace ParseState

/-- Only `new` was read, each at one of these places, the last one first. -/
def Waits (s : ParseState) (news : List Position) (s' : ParseState) : Prop :=
  s.sight.Ready → (∃ ts, s.sight.Stretch false 0 ts [] s'.sight) ∧
    (∀ new ∈ news, s.sight.position ≤ new.offset ∧ new.offset ≤ s'.sight.position) ∧
    news.Pairwise fun a b => b.offset ≤ a.offset

/-- How an expression lies behind the `new` that wait for it, the first token after them being at
`first`. -/
structure Behind (s : ParseState) (first : Position) (chain : MemberChain Expr) (s' : ParseState) :
    Prop where
  reached : chain.news ≠ [] → min first.offset s'.lexer.view.limit ≤ s'.sight.position
  inside : chain.news ≠ [] → first.offset ≤ chain.expression.span.start.offset ∨
    chain.expression.isNew = true
  news : ∀ new ∈ chain.news, s.sight.position ≤ new.offset ∧ new.offset ≤ first.offset ∧
    new.offset ≤ s'.sight.position ∧ new.offset ≤ chain.expression.span.start.offset
  sorted : chain.news.Pairwise fun a b => b.offset ≤ a.offset

def Chains (s : ParseState) (first : Position) (chain : MemberChain Expr) (s' : ParseState) :
    Prop :=
  s.sight.Ready → s.Behind first chain s' ∧
    ∃ ts, s.sight.Stretch true 0 ts [.expression chain.expression] s'.sight

variable {solid : Bool} {s s₁ s' : ParseState} {news : List Position} {new first : Position}
  {chain : MemberChain Expr} {ns : List Node} {e e' : Expr}

namespace Waits

theorem refl (s : ParseState) : s.Waits [] s := fun _ => ⟨⟨[], .refl _⟩, by simp, .nil⟩

theorem more (h : s.Waits news s') (hk : s'.kind = .kwNew) :
    s.Waits (s'.start :: news) s'.next := fun hs => by
  obtain ⟨⟨ts, h⟩, hn, ho⟩ := h hs
  have hp := h.trail.passes hs
  have hf : s'.sight.Stretch true 0 [s'.token] [] s'.next.sight :=
    .flat (x := s'.sight) (show s'.kind.isFlat = true by rw [hk]; rfl) id
  have hq := hf.trail.passes hp.ready
  have hb : s'.sight.position = s'.start.offset := hq.position_eq (by simp)
  have hpos := hp.position
  have hnext := hq.position
  refine ⟨⟨_, (h.append hs hf).forget⟩, ?_, .cons ?_ ho⟩
  · rw [List.forall_mem_cons]
    refine ⟨by omega, fun new hm => ?_⟩
    have := hn new hm
    omega
  · intro new hm
    have := hn new hm
    omega

theorem operand (h : s.Waits news s₁) (he : s₁.Lays true 0 [.expression e] s') :
    s.Chains s₁.start ⟨e, news⟩ s' :=
  fun hs => by
    obtain ⟨⟨ts, h⟩, hn, ho⟩ := h hs
    have hp := h.trail.passes hs
    obtain ⟨us, he⟩ := he hp.ready
    have hq := he.trail.passes hp.ready
    have hb : s₁.sight.position = s₁.start.offset := hq.position_eq (he.solid rfl)
    have hl := (he.within _ (List.mem_singleton_self _)).1
    have hpos := hq.position
    refine ⟨⟨fun _ => by omega, fun _ => .inl (hb ▸ hl), fun new hm => ?_, ho⟩, _, h.append hs he⟩
    · obtain ⟨h₁, h₂⟩ := hn new hm
      exact ⟨h₁, hb ▸ h₂, Nat.le_trans h₂ hpos, Nat.le_trans h₂ hl⟩

theorem target (h : s.Waits news s₁) (he : s₁.Lays true 0 [.expression e] s')
    (hn : e.isNew = true) :
    s.Chains s'.start ⟨e, news⟩ s' := fun hs => by
  obtain ⟨⟨ts, h⟩, hw, ho⟩ := h hs
  have hp := h.trail.passes hs
  obtain ⟨us, he⟩ := he hp.ready
  have hq := he.trail.passes hp.ready
  have hl := (he.within _ (List.mem_singleton_self _)).1
  have hpos := hq.position
  refine ⟨⟨fun _ => Nat.le_refl _, fun _ => .inr hn, fun new hm => ?_, ho⟩, _, h.append hs he⟩
  obtain ⟨h₁, h₂⟩ := hw new hm
  exact ⟨h₁, Nat.le_trans h₂ (Nat.le_trans hpos (Nat.min_le_left _ _)), Nat.le_trans h₂ hpos,
    Nat.le_trans h₂ hl⟩

end Waits

namespace Chains

theorem complete {first : Position} (h : s.Lays true 0 [.expression e] s') :
    s.Chains first ⟨e, []⟩ s' := fun hs =>
  ⟨⟨fun h => absurd rfl h, fun h => absurd rfl h, by simp, .nil⟩, h hs⟩

theorem lays (h : s.Chains first chain s') : s.Lays true 0 [.expression chain.expression] s' :=
  fun hs => (h hs).2

theorem member (h : s.Chains first chain s₁) (hk : s₁.Lays true 0 ns s')
    (hn : e.nodes = .expression chain.expression :: ns)
    (hs : e.span = s'.spanFrom (if chain.news.isEmpty then s.start else first))
    (hm : chain.expression.isNew = true →
      (Node.expression e).IsMemberOfNew (.expression chain.expression))
    (hp : ∀ ts, (Node.expression e).Spelled ts) : s.Chains first ⟨e, chain.news⟩ s' := by
  obtain ⟨object, news⟩ := chain
  have hl : s.Lays true 0 e.nodes s' := hn ▸ Lays.append h.lays hk
  cases news with
  | nil => exact complete (.node (n := .expression e) hl hs hp)
  | cons new news =>
    intro hr
    obtain ⟨hb, ts, h⟩ := h hr
    have hq := h.trail.passes hr
    obtain ⟨us, hk⟩ := hk hq.ready
    have hv := hk.trail.passes hq.ready
    have hl : s.sight.Stretch true 0 (ts ++ us) ([] ++ (Node.expression e).children) s'.sight :=
      show s.sight.Stretch true 0 (ts ++ us) e.nodes s'.sight from hn ▸ h.append hr hk
    have hs : (Node.expression e).span = ⟨first, s'.lastEnd⟩ := hs
    -- The member begins at the first token behind `new`, and that one was reached before.
    have hf : first.offset ≤ s₁.sight.position := by
      have hc := hb.reached (by simp)
      have hi : s₁.sight.position < s₁.lexer.view.limit :=
        hv.position_eq (hk.solid rfl) ▸ hv.start_lt (hk.solid rfl)
      omega
    have hw : s.sight.position ≤ first.offset :=
      Nat.le_trans (hb.news new (List.mem_cons_self ..)).1 (hb.news new (List.mem_cons_self ..)).2.1
    have hc : (Node.expression e).children = .expression object :: ns := hn
    have hstart : first.offset ≤ (Node.expression e).span.start.offset := by rw [hs]
    have hbehind : s.Behind first ⟨e, new :: news⟩ s' := {
      reached := fun _ => Nat.le_trans (Nat.min_le_left _ _) (Nat.le_trans hf hv.position)
      inside := fun _ => .inl hstart
      news := fun w hm => by
        obtain ⟨h₁, h₂, h₃, -⟩ := hb.news w hm
        exact ⟨h₁, h₂, Nat.le_trans h₃ hv.position, Nat.le_trans h₂ hstart⟩
      sorted := hb.sorted }
    have hlaid : (Node.expression e).Laid (ts ++ us) := {
      nonempty := by
        rw [hs]
        have hx := Nat.le_trans hf (Nat.min_le_left _ _)
        exact Nat.lt_of_le_of_lt hx (hv.nonempty (hk.solid rfl))
      start := fun m hm' => by
        rw [hc] at hm'
        rw [hs]
        obtain rfl | hm' := List.mem_cons.1 hm'
        · exact (hb.inside (by simp)).imp id hm
        · exact .inl (Nat.le_trans hf (hk.within m hm').1)
      stop := fun m hm' => by
        rw [hs]
        exact (hl.within m hm').2
      spelled := hp _ }
    refine ⟨hbehind, _, hl.form ?_ ?_ hlaid⟩
    · exact Nat.le_trans hw hstart
    · rw [hs]
      exact Nat.le_refl _

theorem construct {args : List Node} {waiting : List Position} {object : Expr} {new : Position}
    (h : s.Chains first ⟨object, new :: waiting⟩ s₁) (hk : s₁.Lays solid 0 args s')
    (hn : e.nodes = .expression object :: args) (hs : (Node.expression e).span = ⟨new, s'.lastEnd⟩)
    (he : e.isNew = true) (hp : ∀ ts, (Node.expression e).Spelled ts) :
    s.Chains first ⟨e, waiting⟩ s' := fun hr => by
  obtain ⟨hb, ts, h⟩ := h hr
  have hq := h.trail.passes hr
  obtain ⟨us, hk⟩ := hk hq.ready
  have hv := hk.trail.passes hq.ready
  have hl : s.sight.Stretch true 0 (ts ++ us) ([] ++ (Node.expression e).children) s'.sight :=
    show s.sight.Stretch true 0 (ts ++ us) e.nodes s'.sight from hn ▸ h.append hr hk
  have hc : (Node.expression e).children = .expression object :: args := hn
  have ho : (Node.expression object).Laid ts := h.laid _ (List.mem_singleton_self _) _ (.refl _)
  obtain ⟨hw, hsorted⟩ := List.pairwise_cons.1 hb.sorted
  obtain ⟨h₁, -, h₃, h₄⟩ := hb.news new (List.mem_cons_self ..)
  have hstart : new.offset ≤ (Node.expression e).span.start.offset := by rw [hs]
  have hbehind : s.Behind first ⟨e, waiting⟩ s' := {
    reached := fun _ => Nat.le_trans (hv.view ▸ hb.reached (by simp)) hv.position
    inside := fun _ => .inr he
    news := fun w hm => by
      obtain ⟨g₁, g₂, g₃, -⟩ := hb.news w (List.mem_cons_of_mem _ hm)
      exact ⟨g₁, g₂, Nat.le_trans g₃ hv.position, Nat.le_trans (hw w hm) hstart⟩
    sorted := hsorted }
  have hlaid : (Node.expression e).Laid (ts ++ us) := {
    nonempty := by
      rw [hs]
      have hx := hl.within (.expression object) (by simp [hc])
      exact Nat.lt_of_le_of_lt h₄ (Nat.lt_of_lt_of_le ho.nonempty hx.2)
    start := fun m hm => by
      rw [hc] at hm
      rw [hs]
      obtain rfl | hm := List.mem_cons.1 hm
      · exact .inl h₄
      · exact .inl (Nat.le_trans h₃ (hk.within m hm).1)
    stop := fun m hm => by
      rw [hs]
      exact (hl.within m hm).2
    spelled := hp _ }
  refine ⟨hbehind, _, hl.form ?_ ?_ hlaid⟩
  · exact Nat.le_trans h₁ hstart
  · rw [hs]
    exact Nat.le_refl _

theorem finish (h : s.Chains first chain s') :
    s.Lays true 0 [.expression (chain.news.foldl (fun e new => .construct ⟨new, s'.lastEnd⟩ e none)
      chain.expression)] s' := by
  obtain ⟨object, news⟩ := chain
  induction news generalizing object with
  | nil => exact h.lays
  | cons new news ih => exact ih _ (h.construct (.refl s') rfl rfl rfl fun _ => trivial)

end Chains

end ParseState

def Parse.BinaryScan.operands (scan : Parse.BinaryScan Expr) : List (Placed Expr) :=
  scan.waiting.reverse.map (·.left) ++ [scan.operand]

namespace ParseState

/-- Operands were read between two states, each inside the place that is kept for it; one behind
another begins and ends behind it. -/
structure Aligns (s : ParseState) (solid : Bool) (ts : List Token) (operands : List (Placed Expr))
    (s' : ParseState) :
    Prop where
  stretch : s.sight.Stretch solid 0 ts (operands.map fun p => .expression p.expression) s'.sight
  start : ∀ p ∈ operands, s.sight.position ≤ p.span.start.offset ∧
    p.span.start.offset ≤ p.expression.span.start.offset
  stop : ∀ p ∈ operands, p.expression.span.stop.offset ≤ p.span.stop.offset ∧
    p.span.stop.offset ≤ s'.lastEnd.offset
  ordered : operands.Pairwise fun p q =>
    p.span.start.offset ≤ q.span.start.offset ∧ p.span.stop.offset ≤ q.span.stop.offset

def Scans (s : ParseState) (scan : Parse.BinaryScan Expr) (s' : ParseState) : Prop :=
  s.sight.Ready → ∃ ts, s.Aligns true ts scan.operands s'

variable {solid : Bool} {s s₁ s' : ParseState} {scan : Parse.BinaryScan Expr}
  {operand : Placed Expr}

namespace Aligns

variable {ts us : List Token} {operands : List (Placed Expr)} {left right : Placed Expr}

theorem refl (s : ParseState) : s.Aligns false [] [] s := ⟨.refl _, by simp, by simp, .nil⟩

theorem append (h : s.Aligns solid ts operands s₁) (hs : s.sight.Ready)
    (he : s₁.sight.Stretch true 0 us [.expression operand.expression] s'.sight)
    (hb : s₁.sight.position ≤ operand.span.start.offset)
    (hi : operand.span.start.offset ≤ operand.expression.span.start.offset)
    (hp : operand.span.stop = s'.lastEnd) :
    s.Aligns true (ts ++ us) (operands ++ [operand]) s' := by
  have hq := h.stretch.trail.passes hs
  have hv := he.trail.passes hq.ready
  have hn := he.solid rfl
  have hl : s₁.lastEnd.offset ≤ s₁.sight.position := by
    have hl := hq.ready.lastEnd_le_position
    have hx := hv.position_eq hn ▸ hv.start_lt hn
    replace hl : min s₁.lastEnd.offset _ ≤ s₁.sight.position := hl
    omega
  have hpos := hq.position
  have hend : s₁.lastEnd.offset ≤ s'.lastEnd.offset := hv.lastEnd
  constructor
  case stretch =>
    have hst := h.stretch.append hs he
    simpa using hst
  case start =>
    refine List.forall_mem_append.2 ⟨h.start, List.forall_mem_singleton.2 ?_⟩
    exact ⟨Nat.le_trans hpos hb, hi⟩
  case stop =>
    refine List.forall_mem_append.2 ⟨fun p hm => ?_, List.forall_mem_singleton.2 ?_⟩
    · exact ⟨(h.stop p hm).1, Nat.le_trans (h.stop p hm).2 hend⟩
    · rw [hp]
      exact ⟨(he.within _ (List.mem_singleton_self _)).2, Nat.le_refl _⟩
  case ordered =>
    refine List.pairwise_append.2 ⟨h.ordered, List.pairwise_singleton .., fun p hm q hm' => ?_⟩
    rw [List.mem_singleton.1 hm']
    obtain ⟨-, h₁⟩ := h.start p hm
    obtain ⟨h₂, h₃⟩ := h.stop p hm
    have ho := (h.stretch.laid (.expression p.expression) (List.mem_map_of_mem hm) _
      (.refl _)).nonempty
    replace ho : p.expression.span.start.offset < p.expression.span.stop.offset := ho
    rw [hp]
    omega

theorem join {op : BinaryOp} {precedence : Nat}
    (h : s.Aligns solid ts (operands ++ [left, right]) s') :
    s.Aligns solid ts (operands ++ [Waiting.join (B := .tree) ⟨left, op, precedence⟩ right])
      s' := by
  have hl := h.start left (by simp)
  have hr := h.start right (by simp)
  have hl' := h.stop left (by simp)
  have hr' := h.stop right (by simp)
  obtain ⟨ho, hlr, hc⟩ := List.pairwise_append.1 h.ordered
  have hlr : left.span.start.offset ≤ right.span.start.offset ∧
      left.span.stop.offset ≤ right.span.stop.offset := by
    simpa using hlr
  have hn := (h.stretch.laid (.expression left.expression) (by simp) _ (.refl _)).nonempty
  replace hn : left.expression.span.start.offset < left.expression.span.stop.offset := hn
  have hst := h.stretch
  rw [List.map_append] at hst
  have hj := hst.form (n := .expression
    (.binary ⟨left.span.start, right.span.stop⟩ op left.expression right.expression))
    hl.1 hr'.2 ⟨?_, List.forall_mem_cons.2
      ⟨.inl hl.2, List.forall_mem_singleton.2 (.inl (Nat.le_trans hlr.1 hr.2))⟩,
      List.forall_mem_cons.2 ⟨Nat.le_trans hl'.1 hlr.2, List.forall_mem_singleton.2 hr'.1⟩, trivial⟩
  · refine ⟨by rw [List.map_append]; exact hj, ?_, ?_, ?_⟩
    · exact List.forall_mem_append.2 ⟨fun p hm => h.start p (List.mem_append_left _ hm),
        List.forall_mem_singleton.2 ⟨hl.1, Nat.le_refl _⟩⟩
    · exact List.forall_mem_append.2 ⟨fun p hm => h.stop p (List.mem_append_left _ hm),
        List.forall_mem_singleton.2 ⟨Nat.le_refl _, hr'.2⟩⟩
    · refine List.pairwise_append.2 ⟨ho, List.pairwise_singleton .., fun p hm q hm' => ?_⟩
      rw [List.mem_singleton.1 hm']
      exact ⟨(hc p hm left (by simp)).1, (hc p hm right (by simp)).2⟩
  · show left.span.start.offset < right.span.stop.offset
    omega

end Aligns

namespace Scans

theorem first (h : s.Lays true 0 [.expression operand.expression] s')
    (hp : operand.span = s'.spanFrom s.start) :
    s.Scans ⟨[], operand⟩ s' := fun hs => by
  obtain ⟨ts, h⟩ := h hs
  have hb := (h.trail.passes hs).position_eq (h.solid rfl)
  have hi := (h.within _ (List.mem_singleton_self _)).1
  rw [hb] at hi
  refine ⟨_, (Aligns.refl s).append hs h ?_ ?_ ?_⟩
  · rw [hp]
    exact Nat.le_of_eq hb
  · rw [hp]
    exact hi
  · rw [hp]
    rfl

theorem reduce {precedence : Nat} {waiting : List (Waiting Expr)} {left : Placed Expr}
    (h : s.Scans scan s')
    (hr : Parse.reduce (B := .tree) precedence scan.waiting scan.operand = (waiting, left)) :
    s.Scans ⟨waiting, left⟩ s' := by
  obtain ⟨before, operand⟩ := scan
  induction before generalizing operand with
  | nil =>
    cases hr
    exact h
  | cons w rest ih =>
    rw [Parse.reduce] at hr
    split at hr
    · refine ih _ (fun hs => ?_) hr
      obtain ⟨ts, h⟩ := h hs
      have h : s.Aligns true ts (rest.reverse.map (·.left) ++ [w.left, operand]) s' := by
        simpa [Parse.BinaryScan.operands] using h
      exact ⟨ts, h.join⟩
    · cases hr
      exact h

theorem more {w : Waiting Expr} {waiting : List (Waiting Expr)} (h : s.Scans ⟨waiting, w.left⟩ s₁)
    (hk : s₁.kind.isFlat = true) (ho : s₁.next.Lays true 0 [.expression operand.expression] s')
    (hp : operand.span = s'.spanFrom s₁.next.start) :
    s.Scans ⟨w :: waiting, operand⟩ s' := fun hs => by
  obtain ⟨ts, h⟩ := h hs
  have hq := h.stretch.trail.passes hs
  have hf : s₁.sight.Stretch true 0 [s₁.token] [] s₁.next.sight := .flat (x := s₁.sight) hk id
  have hv := hf.trail.passes hq.ready
  obtain ⟨us, ho⟩ := ho hv.ready
  have hb := (ho.trail.passes hv.ready).position_eq (ho.solid rfl)
  have hi := (ho.within _ (List.mem_singleton_self _)).1
  rw [hb] at hi
  have he : Parse.BinaryScan.operands ⟨w :: waiting, operand⟩ =
      Parse.BinaryScan.operands ⟨waiting, w.left⟩ ++ [operand] := by
      simp [Parse.BinaryScan.operands]
  have hn := h.append hs (hf.append hq.ready ho) ?_ ?_ ?_
  · exact ⟨_, he ▸ hn⟩
  · rw [hp]
    exact Nat.le_trans hv.position (Nat.le_of_eq hb)
  · rw [hp]
    exact hi
  · rw [hp]
    rfl

theorem finish (h : s.Scans scan s') :
    s.Lays true 0 [.expression (Parse.reduce (B := .tree) 0 scan.waiting scan.operand).2.expression]
      s' := fun hs => by
  obtain ⟨ts, h⟩ := h.reduce
    (Prod.ext (Parse.reduce_zero (B := .tree) scan.waiting scan.operand) rfl) hs
  exact ⟨ts, h.stretch⟩

end Scans

end ParseState

end EcmaFront
