import EcmaFront.Proofs.Stretch

/-!
What is read between two states of a parse, as a stretch of the text: the nodes of a phrase, a
statement that takes all of its tokens, and statements that share theirs out.
-/

set_option autoImplicit false

namespace EcmaFront

namespace ParseState

/-- From one state to the other a stretch of the text was taken for nodes. -/
def Lays (s : ParseState) (solid : Bool) (depth : Nat) (ns : List Node) (s' : ParseState) : Prop :=
  s.sight.Ready → ∃ ts, s.sight.Stretch solid depth ts ns s'.sight

def Fills (s : ParseState) (a : Stmt) (s' : ParseState) : Prop :=
  s.sight.Ready → a.span.start.offset = s.start.offset ∧ a.span.stop.offset = s'.lastEnd.offset ∧
    ∃ ts, s.sight.Stretch true 0 ts [.statement a] s'.sight

/-- What was read are statements, and each token belongs to one of them. -/
def Shares (s : ParseState) (ss : List Stmt) (s' : ParseState) : Prop :=
  s.sight.Ready → ∃ ts, s.sight.Stretch false 0 ts (ss.map .statement) s'.sight ∧ SharedOut ts ss

variable {solid solid' : Bool} {depth depth' : Nat} {s s₁ s₂ s' : ParseState} {ns ms : List Node}
  {n : Node} {a : Stmt} {ss : List Stmt} {kind : TokenKind}

namespace Lays

theorem still (h : s'.sight = s.sight) : s.Lays false 0 [] s' := fun _ => ⟨[], h ▸ .refl _⟩

theorem refl (s : ParseState) : s.Lays false 0 [] s := still rfl

theorem glance (h : s.sight.Again s'.sight) : s.Lays false 0 [] s' := fun _ => ⟨[], .still h.trail⟩

theorem append (h : s.Lays solid depth ns s₁) (h' : s₁.Lays solid' depth' ms s') :
    s.Lays (solid || solid') (depth + depth') (ns ++ ms) s' := fun hs => by
  obtain ⟨ts, h⟩ := h hs
  obtain ⟨us, h'⟩ := h' (h.trail.passes hs).ready
  exact ⟨ts ++ us, h.append hs h'⟩

theorem nil_append (h : s.Lays solid 0 [] s₁) (h' : s₁.Lays solid' depth ns s') :
    s.Lays (solid || solid') depth ns s' := by
  simpa using append h h'

theorem append_nil (h : s.Lays solid depth ns s₁) (h' : s₁.Lays solid' 0 [] s') :
    s.Lays (solid || solid') depth ns s' := by
  simpa using append h h'

theorem again (ha : s.sight.Again s₁.sight) (h : s₁.Lays solid depth ns s') :
    s.Lays solid depth ns s' := by
  simpa using nil_append (glance ha) h

theorem then_still (h : s.Lays solid depth ns s₁) (hs : s'.sight = s₁.sight) :
    s.Lays solid depth ns s' := by
  simpa using append_nil h (still hs)

theorem forget (h : s.Lays solid depth ns s') : s.Lays false depth ns s' := fun hs => by
  obtain ⟨ts, h⟩ := h hs
  exact ⟨ts, h.forget⟩

theorem next (hk : s.kind = kind) (hf : kind.isFlat = true := by rfl) :
    s.Lays true 0 [] s.next := by
  subst hk
  exact fun _ => ⟨_, .flat (x := s.sight) hf id⟩

theorem after_next (hk : s.kind = kind) (h : s.next.Lays solid depth ns s')
    (hf : kind.isFlat = true := by rfl) :
    s.Lays true depth ns s' := nil_append (next hk hf) h

theorem then_next (h : s.Lays solid depth ns s') (hk : s'.kind = kind)
    (hf : kind.isFlat = true := by rfl) :
    s.Lays true depth ns s'.next := by
  simpa using append_nil h (next hk hf)

theorem opening (hk : s.kind = kind) (ho : kind.opens = true := by rfl) :
    s.Lays true 1 [] s.next := by
  subst hk
  exact fun _ => ⟨_, .opening (x := s.sight) ho id⟩

theorem closing (h : s.Lays solid (depth + 1) ns s') (hk : s'.kind = kind)
    (hc : kind.closes = true := by rfl) :
    s.Lays true depth ns s'.next := by
  subst hk
  intro hs
  obtain ⟨ts, h⟩ := h hs
  exact ⟨_, h.closing hs hc h.trail.strict⟩

theorem bracketed {kind' : TokenKind} (ho : s.kind = kind) (h : s.next.Lays solid 0 ns s')
    (hc : s'.kind = kind')
    (hk : kind.opens = true := by rfl) (hk' : kind'.closes = true := by rfl) :
    s.Lays true 0 ns s'.next :=
  closing (append (opening ho hk) h) hc hk'

theorem node_behind (h : s.Lays true depth (ns ++ n.children) s')
    (hn : n.span = s'.spanFrom s.start := by rfl) (hp : ∀ ts, n.Spelled ts := by intro; trivial) :
    s.Lays true depth (ns ++ [n]) s' := fun hs => by
  obtain ⟨ts, h⟩ := h hs
  exact ⟨ts, h.node_behind hs hn (hp ts)⟩

theorem node (h : s.Lays true depth n.children s') (hn : n.span = s'.spanFrom s.start := by rfl)
    (hp : ∀ ts, n.Spelled ts := by intro; trivial) : s.Lays true depth [n] s' := fun hs => by
  obtain ⟨ts, h⟩ := h hs
  exact ⟨ts, h.node hs hn (hp ts)⟩

theorem ends (h : Parse.Ends s s') : s.Lays false 0 [] s' := by
  cases h with
  | semicolon hk => exact forget (next hk)
  | omitted => exact refl s

end Lays

namespace Fills

theorem lays (h : s.Fills a s') : s.Lays true 0 [.statement a] s' := fun hs => (h hs).2.2

theorem of_lays (h : s.Lays true 0 [.statement a] s')
    (hn : a.span = s'.spanFrom s.start := by rfl) : s.Fills a s' :=
  fun hs => ⟨by rw [hn]; rfl, by rw [hn]; rfl, h hs⟩

theorem node (h : s.Lays true 0 a.nodes s') (hn : a.span = s'.spanFrom s.start := by rfl)
    (hp : ∀ ts, (Node.statement a).Spelled ts := by intro; trivial) : s.Fills a s' :=
  of_lays (Lays.node (n := .statement a) h hn hp) hn

theorem again (ha : s.sight.Again s₁.sight) (h : s₁.Fills a s') : s.Fills a s' := fun hs => by
  have hg := ha.trail.passes hs
  obtain ⟨hb, he, ts, h⟩ := h hg.ready
  have h' := (Sight.Stretch.still ha.trail).append hs h
  have hp := (h'.trail.passes hs).position_eq (h'.solid rfl)
  have hp₁ := (h.trail.passes hg.ready).position_eq (h.solid rfl)
  exact ⟨hb.trans (hp₁.symm.trans ((ha.position hs.settled).trans hp)), he, ts, h'⟩

end Fills

namespace Shares

theorem nil (s : ParseState) : s.Shares [] s := fun _ => ⟨[], .refl _, .nil⟩

theorem behind (ht : s.sight.Trail [] s₁.sight) (h : s₁.Shares ss s') :
    s.Shares ss s' := fun hs => by
  obtain ⟨ts, h, ho⟩ := h (ht.passes hs).ready
  exact ⟨ts, (Sight.Stretch.still ht).append hs h, ho⟩

theorem cons (h : s.Fills a s₁) (hs : s₁.Shares ss s') : s.Shares (a :: ss) s' := fun hr => by
  obtain ⟨hb, he, ts, h⟩ := h hr
  have hp := h.trail.passes hr
  obtain ⟨us, h', ho⟩ := hs hp.ready
  have hq := h'.trail.passes hp.ready
  have hn := h.solid rfl
  have hf : s.sight.position = a.span.start.offset := (hp.position_eq hn).trans hb.symm
  have hw : ∀ t ∈ ts, t.extent.start < t.extent.stop ∧ t.Within a.span := fun t ht =>
    ⟨hp.ordered t ht, hf ▸ hp.start t ht, he ▸ hp.stop t ht⟩
  have hfirst : (ts.head hn).extent.start = a.span.start.offset :=
    (hp.first _ (List.head?_eq_some_head hn)).trans hb.symm
  have hlast : (ts.getLast hn).extent.stop = a.span.stop.offset :=
    (hp.last _ (List.getLast?_eq_some_getLast hn)).trans he.symm
  have hu : ∀ t ∈ us, t.extent.start < t.extent.stop ∧ a.span.stop.offset ≤ t.extent.start :=
    fun t ht => ⟨hq.ordered t ht, he ▸ hq.behind t ht⟩
  refine ⟨ts ++ us, (h.append hr h').forget, ho.cons hw ?_ ?_ hu⟩
  · exact ⟨_, List.head_mem hn, hfirst⟩
  · exact ⟨_, List.getLast_mem hn, hlast⟩

theorem braced {strict : Bool} (ho : s.kind = .leftBrace) (h : s.next.Shares ss s₁)
    (hc : s₁.kind = .rightBrace) (hs : s.strict = true → s₁.strict = true → strict = true)
    (he : s'.sight = s₁.sight.next strict) (hn : n.span = s'.spanFrom s.start := by rfl)
    (hm : n.children = ss.map .statement := by rfl)
    (hp : ∀ ts, Braced ts n.span ss → n.Spelled ts := by exact fun _ h => h) :
    s.Lays true 0 [n] s' := by
  intro hr
  have hb : s.sight.Stretch true 1 [s.token] [] s.next.sight :=
    .opening (x := s.sight) (show s.kind.opens = true by rw [ho]; rfl) id
  obtain ⟨ts, h, hd⟩ := h (hb.trail.passes hr).ready
  have ht : s.sight.Stretch true 1 (s.token :: ts) (ss.map .statement) s₁.sight := hb.append hr h
  have hl : s.sight.Stretch true 0 (s.token :: ts ++ [s₁.token]) (ss.map .statement)
      (s₁.sight.next strict) :=
    ht.closing hr (show s₁.kind.closes = true by rw [hc]; rfl) fun h => hs h (ht.trail.strict h)
  rw [← he, ← hm] at hl
  refine ⟨_, hl.node hr hn (hp _ ?_)⟩
  refine ⟨[], s.token, ts, s₁.token, [], by simp, ho, ?_, hc, ?_, hd⟩
  · rw [hn]; rfl
  · rw [hn]
    exact (congrArg (·.lastEnd.offset) he).symm

theorem clause {test : Option Expr} {solid : Bool}
    (hk : s.kind = if test.isSome then .kwCase else .kwDefault)
    (ht : s.next.Lays solid 0 (optional test) s₁) (hc : s₁.kind = .colon)
      (h : s₁.next.Shares ss s₂) :
    s.Lays true 0 [.clause ⟨s₂.spanFrom s.start, test, ss⟩] s₂ := by
  intro hr
  have hf : s.kind.isFlat = true := by
    rw [hk]
    split <;> rfl
  have hw : s.sight.Stretch true 0 [s.token] [] s.next.sight := .flat (x := s.sight) hf id
  obtain ⟨ts, ht⟩ := ht (hw.trail.passes hr).ready
  have hh : s.sight.Stretch true 0 (s.token :: ts) (optional test) s₁.sight := hw.append hr ht
  have hm : s₁.sight.Stretch true 0 [s₁.token] [] s₁.next.sight :=
    .flat (x := s₁.sight) (show s₁.kind.isFlat = true by rw [hc]; rfl) id
  obtain ⟨us, h, ho⟩ := h (hm.trail.passes (hh.trail.passes hr).ready).ready
  have hl : s.sight.Stretch true 0 (s.token :: ts ++ s₁.token :: us)
      (optional test ++ ss.map .statement) s₂.sight :=
    hh.append hr (hm.append (hh.trail.passes hr).ready h)
  refine ⟨_, Sight.Stretch.node (n := .clause ⟨s₂.spanFrom s.start, test, ss⟩) hl hr rfl ?_⟩
  refine ⟨[], s.token, ts, s₁.token, us, [], by simp, hk, rfl, hc, fun t ht => ?_, ho⟩
  refine (hl.trail.passes hr).last t ?_
  rw [List.getLast?_append, Option.mem_def.1 ht]
  rfl

end Shares

end ParseState

end EcmaFront
