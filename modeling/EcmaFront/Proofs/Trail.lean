import EcmaFront.Proofs.Sight

/-!
The tokens that a reading consumes. A sight that a parse can have knows where the last token ended;
from it tokens are consumed in the order of the text, each behind the one before, and none is left
out. All of them up to the end of the text are one way to read the text.
-/

set_option autoImplicit false

namespace EcmaFront

/-- Such a token is read by itself, and the grammar has a use for it. -/
def TokenKind.isPlain (kind : TokenKind) : Bool :=
  kind.isSolid && kind != .regexp && kind != .backQuote

theorem TokenKind.isSolid_of_isPlain {kind : TokenKind} (h : kind.isPlain = true) :
    kind.isSolid = true := by
  simp only [isPlain, Bool.and_eq_true] at h
  exact h.1.1

namespace Lexer

/-- From where the lexer stands the rest of the text can be read as these tokens, each in some mode,
and a slash as a division or as the beginning of a regular expression. -/
inductive Spells : Lexer → List Token → Prop where
  | nil {l : Lexer} {strict : Bool} (h : (l.next strict).1.kind = .eof) : Spells l []
  | token {l : Lexer} {strict : Bool} {ts : List Token} (hk : (l.next strict).1.kind.isSolid = true)
    (h : Spells (l.next strict).2 ts) : Spells l ((l.next strict).1 :: ts)
  | regexp {l m : Lexer} {strict : Bool} {slash t : Token} {ts : List Token}
    (hl : l.next strict = (slash, m))
    (hk : slash.kind = .slash ∨ slash.kind = .slashEqual)
    (hr : (m.regexp slash (if slash.kind == .slashEqual then "=" else "")).1 = t)
      (he : t.kind.isError = false)
    (h : Spells (m.regexp slash (if slash.kind == .slashEqual then "=" else "")).2 ts) :
      Spells l (t :: ts)

/-- The same is read: they stand in the same place, or both at the end. -/
structure Alike (l m : Lexer) : Prop where
  view : m.view = l.view
  standing : m.standing = l.standing ∨
    l.view.limit ≤ l.standing.offset ∧ l.view.limit ≤ m.standing.offset

theorem kind_next_of_limit_le {l : Lexer} (h : l.view.limit ≤ l.standing.offset) (strict : Bool) :
    (l.next strict).1.kind = .eof :=
  Decidable.byContradiction fun hk => Nat.not_lt.2 h (lt_limit_of_next hk)

theorem alike_goTo (l : Lexer) (s : Standing) : Alike ⟨l.view, s, none⟩ (l.goTo s) := by
  refine ⟨rfl, ?_⟩
  by_cases h : s.offset ≤ l.view.limit
  · exact .inl (by rw [goTo, Nat.min_eq_left h])
  · have hl := Nat.le_of_not_le h
    exact .inr ⟨hl, Nat.le_min.2 ⟨hl, Nat.le_refl _⟩⟩

theorem Spells.congr {l m : Lexer} {ts : List Token} (ha : Alike l m) (h : Spells m ts) :
    Spells l ts := by
  obtain ⟨hv, hs | ⟨hl, hm⟩⟩ := ha
  · cases h with
    | nil h => exact .nil (by rwa [next_congr hv hs] at h)
    | token hk h =>
      rw [next_congr hv hs] at hk h ⊢
      exact .token hk h
    | regexp hn hk hr he h =>
      rw [next_congr hv hs] at hn
      exact .regexp hn hk hr he h
  · have hm : ∀ strict, (m.next strict).1.kind = .eof := kind_next_of_limit_le (hv ▸ hm)
    cases h with
    | nil => exact .nil (kind_next_of_limit_le hl false)
    | token hk => simp [hm, TokenKind.isSolid] at hk
    | regexp hn hk =>
      have hm := (congrArg (·.1.kind) hn).symm.trans (hm _)
      obtain hk | hk := hk <;> cases hk.symm.trans hm

end Lexer

namespace Sight

/-- What is consumed from one sight to another, one token after the other. Code that is strict stays
so. -/
inductive Trail (x : Sight) : List Token → Sight → Prop where
  | nil : Trail x [] x
  | next {ts : List Token} {y : Sight} {strict : Bool} (h : Trail x ts y)
    (hs : x.strict = true → strict = true)
    (hk : y.token.kind.isPlain = true) : Trail x (ts ++ [y.token]) (y.next strict)
  | regexp {ts : List Token} {y : Sight} (h : Trail x ts y)
    (hk : y.token.kind = .slash ∨ y.token.kind = .slashEqual)
    (he : y.regexp.token.kind.isError = false) :
    Trail x (ts ++ [y.regexp.token]) (y.regexp.next y.strict)
  | reread {ts : List Token} {y : Sight} {strict : Bool} (h : Trail x ts y)
    (hs : x.strict = true → strict = true) : Trail x ts (y.reread strict)
  | lookAhead {ts : List Token} {y : Sight} (h : Trail x ts y) (hk : y.token.kind = .identifier) :
    Trail x ts y.lookAhead

namespace Trail

variable {x y z : Sight} {ts us : List Token}

theorem strict (h : Trail x ts y) (hs : x.strict = true) : y.strict = true := by
  induction h with
  | nil => exact hs
  | next _ h => exact h hs
  | regexp _ _ _ ih => exact ih
  | reread _ h => exact h hs
  | lookAhead _ _ ih => exact ih

theorem trans (h : Trail x ts y) (h' : Trail y us z) : Trail x (ts ++ us) z := by
  induction h' with
  | nil => simpa using h
  | next _ hs hk ih =>
    rw [← List.append_assoc]
    exact .next ih (fun hx => hs (h.strict hx)) hk
  | regexp _ hk he ih =>
    rw [← List.append_assoc]
    exact .regexp ih hk he
  | reread _ hs ih => exact .reread ih fun hx => hs (h.strict hx)
  | lookAhead _ hk ih => exact .lookAhead ih hk

end Trail

/-- The current token is what was read where the last one had ended. -/
structure Ready (x : Sight) : Prop where
  settled : x.Settled
  behind : min x.lastEnd.offset x.lexer.view.limit ≤ x.tokenStart.offset

namespace Ready

variable {x : Sight}

theorem lastEnd_le_position (h : x.Ready) :
    min x.lastEnd.offset x.lexer.view.limit ≤ x.position := by
  have hb := h.behind
  have hs : x.tokenStart.offset ≤ x.token.extent.start := h.settled.advances.start
  rw [position]
  omega

theorem lastEnd_le_start (h : x.Ready) (hk : x.token.kind ≠ .eof) :
    x.lastEnd.offset ≤ x.token.extent.start := by
  have hp := h.lastEnd_le_position
  have hi : x.token.extent.start < x.lexer.view.limit := h.settled.advances.inside hk
  rw [position] at hp
  omega

end Ready

structure Takes (x : Sight) (t : Token) (y : Sight) : Prop where
  ready : y.Ready
  view : y.lexer.view = x.lexer.view
  start : t.extent.start = x.token.extent.start
  inside : t.extent.start < x.lexer.view.limit
  ordered : t.extent.start < t.extent.stop
  behind : x.lastEnd.offset ≤ t.extent.start
  lastEnd : y.lastEnd.offset = t.extent.stop
  position : x.position ≤ y.position

theorem Ready.next {x : Sight} (h : x.Ready) (hk : x.token.kind.isSolid = true) (strict : Bool) :
    x.Takes x.token (x.next strict) := by
  have hn : x.token.kind ≠ .eof := fun he => by simp [he, TokenKind.isSolid] at hk
  refine ⟨⟨.read _ _ _, ?_⟩, Lexer.view_next _ _, rfl, h.settled.advances.inside hn,
    h.settled.advances.solid hk, h.lastEnd_le_start hn, rfl, ?_⟩
  · have hs := h.settled.stop_le
    have hv : (x.next strict).lexer.view = x.lexer.view := Lexer.view_next _ _
    rw [hv]
    exact hs
  · exact Nat.le_trans (Nat.le_add_right _ _) (h.settled.position_step (.next strict))

theorem Ready.regexp {x : Sight} (h : x.Ready)
    (hk : x.token.kind = .slash ∨ x.token.kind = .slashEqual) :
    x.Takes x.regexp.token (x.regexp.next x.strict) := by
  have hs : x.token.kind.isSolid = true := by obtain hk | hk := hk <;> rw [hk] <;> rfl
  have hn : x.token.kind ≠ .eof := by obtain hk | hk := hk <;> rw [hk] <;> nofun
  obtain ⟨-, hr, hf⟩ :=
    x.lexer.regexp_advances x.token (if x.token.kind == .slashEqual then "=" else "")
  have hv : (x.regexp.next x.strict).lexer.view = x.lexer.view :=
    (Lexer.view_next _ _).trans x.view_regexp
  have hstop : x.regexp.token.extent.stop = x.regexp.lexer.standing.offset :=
    Lexer.regexp_stop _ _ _
  replace hr : x.regexp.token.extent.start = x.token.extent.start := hr
  replace hf : x.lexer.standing.offset ≤ x.regexp.lexer.standing.offset := hf
  have hl : x.token.extent.stop ≤ x.lexer.standing.offset := by
    have ha : x.token.extent.stop = _ := h.settled.advances.stop
    obtain he | ⟨hi, -⟩ := h.settled.lexer
    · rw [he]
      exact Nat.le_of_eq ha
    · obtain hk | hk := hk <;> cases hk.symm.trans hi
  have hi : x.token.extent.start < x.lexer.view.limit := h.settled.advances.inside hn
  have ho := h.settled.advances.solid hs
  refine ⟨⟨.read _ _ _, ?_⟩, hv, hr, hr ▸ hi, by omega, hr ▸ h.lastEnd_le_start hn, rfl, ?_⟩
  · show min x.regexp.token.extent.stop _ ≤ x.regexp.lexer.standing.offset
    omega
  · exact Nat.le_trans (Nat.le_add_right _ _) (h.settled.position_step (.regexp hk))

theorem Ready.reread {x : Sight} (h : x.Ready) (strict : Bool) : (x.reread strict).Ready := by
  refine ⟨.read _ _ _, ?_⟩
  have hv : (x.reread strict).lexer.view = x.lexer.view := Lexer.view_next _ _
  have hb := h.behind
  rw [hv]
  show min x.lastEnd.offset _ ≤ min x.tokenStart.offset x.lexer.view.limit
  omega

structure Passes (x : Sight) (ts : List Token) (y : Sight) : Prop where
  ready : y.Ready
  view : y.lexer.view = x.lexer.view
  position : x.position ≤ y.position
  lastEnd : x.lastEnd.offset ≤ y.lastEnd.offset
  inside : ∀ t ∈ ts, t.extent.start < x.lexer.view.limit
  ordered : ∀ t ∈ ts, t.extent.start < t.extent.stop
  behind : ∀ t ∈ ts, x.lastEnd.offset ≤ t.extent.start
  start : ∀ t ∈ ts, x.position ≤ t.extent.start
  stop : ∀ t ∈ ts, t.extent.stop ≤ y.lastEnd.offset
  nothing : ts = [] → y.position = x.position ∧ y.lastEnd = x.lastEnd
  first : ∀ t ∈ ts.head?, t.extent.start = x.token.extent.start
  last : ∀ t ∈ ts.getLast?, t.extent.stop = y.lastEnd.offset

namespace Passes

variable {x y z : Sight} {ts us : List Token} {t : Token}

theorem take (h : Passes x ts y) (ht : Takes y t z) : Passes x (ts ++ [t]) z := by
  have hx := ht.inside
  have hp : y.position ≤ t.extent.start := by
    rw [Sight.position, ht.start]
    exact Nat.min_le_left _ _
  have hl := ht.lastEnd
  have ho := ht.ordered
  have hb := ht.behind
  have h₁ := h.position
  have h₂ := h.lastEnd
  rw [h.view] at hx
  refine ⟨ht.ready, ht.view.trans h.view, Nat.le_trans h₁ ht.position,
    by omega, ?_, ?_, ?_, ?_, ?_, by simp, ?_, ?_⟩
  · exact List.forall_mem_append.2 ⟨h.inside, by simpa using hx⟩
  · exact List.forall_mem_append.2 ⟨h.ordered, by simpa using ho⟩
  · exact List.forall_mem_append.2 ⟨h.behind, by simp; omega⟩
  · exact List.forall_mem_append.2 ⟨h.start, by simp; omega⟩
  · refine List.forall_mem_append.2 ⟨fun u hu => ?_, by simp [hl]⟩
    have hs := h.stop u hu
    omega
  · cases ts with
    | nil =>
      -- Nothing was consumed before, so the token stands where the first one stood.
      have hn := (h.nothing rfl).1
      have hs := ht.start
      simp only [Sight.position, h.view] at hn
      simp
      omega
    | cons u us => exact h.first
  · simp [hl]

theorem reread (h : Passes x ts y) (strict : Bool) : Passes x ts (y.reread strict) := by
  have hp := h.ready.settled.position_reread strict
  exact { h with
    ready := h.ready.reread strict
    view := (Lexer.view_next _ _).trans h.view
    position := hp ▸ h.position
    nothing := hp ▸ h.nothing }

theorem lookAhead (h : Passes x ts y) (hk : y.token.kind = .identifier) :
    Passes x ts y.lookAhead :=
  { h with ready := ⟨h.ready.settled.step (.lookAhead hk), h.ready.behind⟩ }

theorem start_lt (h : Passes x ts y) (hn : ts ≠ []) :
    x.token.extent.start < x.lexer.view.limit := by
  obtain ⟨t, ts, rfl⟩ := List.exists_cons_of_ne_nil hn
  exact h.first t rfl ▸ h.inside t (List.mem_cons_self ..)

theorem position_eq (h : Passes x ts y) (hn : ts ≠ []) : x.position = x.token.extent.start :=
  Nat.min_eq_left (Nat.le_of_lt (h.start_lt hn))

theorem nonempty (h : Passes x ts y) (hn : ts ≠ []) : x.token.extent.start < y.lastEnd.offset := by
  obtain ⟨t, ts, rfl⟩ := List.exists_cons_of_ne_nil hn
  have hf := h.first t rfl
  have ho := h.ordered t (List.mem_cons_self ..)
  have hs := h.stop t (List.mem_cons_self ..)
  omega

end Passes

/-- By induction on the trail, one case for each step. -/
theorem Trail.passes {x y : Sight} {ts : List Token} (hx : x.Ready) (h : Trail x ts y) :
    Passes x ts y := by
  induction h with
  | nil =>
    exact ⟨hx, rfl, Nat.le_refl _, Nat.le_refl _, by simp, by simp, by simp, by simp, by simp,
      fun _ => ⟨rfl, rfl⟩, by simp, by simp⟩
  | next _ _ hk ih => exact ih.take (ih.ready.next (TokenKind.isSolid_of_isPlain hk) _)
  | regexp _ hk _ ih => exact ih.take (ih.ready.regexp hk)
  | reread _ _ ih => exact ih.reread _
  | lookAhead _ hk ih => exact ih.lookAhead hk

theorem origin_read (x : Sight) (lexer : Lexer) (strict : Bool) :
    (x.read lexer strict).origin = ⟨lexer.view, lexer.standing, none⟩ :=
  congrArg (fun v => (⟨v, lexer.standing, none⟩ : Lexer)) (lexer.view_next strict)

theorem Settled.alike {x : Sight} (h : x.Settled) :
    Lexer.Alike (x.origin.next x.strict).2 ⟨x.lexer.view, x.lexer.standing, none⟩ := by
  have hv : (x.origin.next x.strict).2.view = x.lexer.view := Lexer.view_next _ _
  obtain he | ⟨-, he⟩ := h.lexer
  · exact ⟨hv.symm, .inl (by rw [← he])⟩
  · obtain ⟨-, hs⟩ := (x.origin.next x.strict).2.alike_goTo (x.origin.next x.strict).2.standing
    rw [← he] at hs
    exact ⟨hv.symm, hs⟩

theorem Trail.spells {x y : Sight} {ts us : List Token} (hx : x.Ready) (h : Trail x ts y)
    (hu : y.origin.Spells us) : x.origin.Spells (ts ++ us) := by
  induction h generalizing us with
  | nil => exact hu
  | @next ts y strict h _ hk ih =>
    have hy := (h.passes hx).ready.settled
    rw [List.append_assoc]
    refine ih ?_
    replace hu : Lexer.Spells ⟨y.lexer.view, y.lexer.standing, none⟩ us :=
      origin_read _ y.lexer strict ▸ hu
    have hs : (y.origin.next y.strict).1.kind.isSolid = true := by
      rw [hy.token]
      exact TokenKind.isSolid_of_isPlain hk
    have ht : y.origin.Spells ((y.origin.next y.strict).1 :: us) := .token hs (hu.congr hy.alike)
    rwa [hy.token] at ht
  | @regexp ts y h hk he ih =>
    have hy := (h.passes hx).ready.settled
    rw [List.append_assoc]
    refine ih ?_
    have hl : y.lexer = (y.origin.next y.strict).2 := hy.lexer.resolve_right fun ⟨hi, _⟩ => by
      obtain hk | hk := hk <;> cases hk.symm.trans hi
    have hn : y.origin.next y.strict = (y.token, y.lexer) := Prod.ext hy.token hl.symm
    refine .regexp hn hk rfl he (Lexer.Spells.congr (m := (y.regexp.next y.strict).origin)
      ⟨?_, .inl rfl⟩ hu)
    exact Lexer.view_next _ _
  | @reread ts y strict h _ ih =>
    refine ih ?_
    replace hu : Lexer.Spells ⟨y.lexer.view, (y.lexer.goTo y.tokenStart).standing, none⟩ us :=
      origin_read y (y.lexer.goTo y.tokenStart) strict ▸ hu
    exact hu.congr (y.lexer.alike_goTo y.tokenStart)
  | lookAhead _ _ ih => exact ih hu

end Sight

end EcmaFront
