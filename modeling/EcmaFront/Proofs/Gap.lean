import EcmaFront.Proofs.LineTracking
import EcmaFront.Proofs.Trail

/-!
What lies between a token and the next one. Where the next token begins, whether a line ends on the
way and whether a closing brace comes there can be told from the offset where the token before it
ends, in whatever state a parse came to that offset. A line ends on the way just if the text has a
line terminator there.
-/

set_option autoImplicit false

namespace EcmaFront

namespace View

def behind (v : View) (i : Nat) : Trivia := v.trivia ⟨i, 0, 0⟩

/-- The end of the view, a closing brace or the next line comes behind an offset. -/
def Closes (v : View) (i : Nat) : Prop :=
  (v.behind i).newline = true ∨ v.limit ≤ (v.behind i).place.offset ∨
    v.code (v.behind i).place.offset = 0x7D

structure Trivia.Alike (t u : Trivia) : Prop where
  offset : u.place.offset = t.place.offset
  newline : u.newline = t.newline
  unclosed : u.unclosed.isSome = t.unclosed.isSome

variable {v : View} {p q : Place} {newline : Bool}

theorem offset_afterLine (h : q.offset = p.offset) :
    (v.afterLine q).offset = (v.afterLine p).offset := by
  simp only [afterLine, h]

theorem blockComment_alike (h : q.offset = p.offset) (n : Nat) (newline : Bool) :
    (v.blockComment n q newline).place.offset = (v.blockComment n p newline).place.offset ∧
      (v.blockComment n q newline).newline = (v.blockComment n p newline).newline ∧
      (v.blockComment n q newline).closed = (v.blockComment n p newline).closed := by
  induction n generalizing p q newline with
  | zero => exact ⟨h, rfl, rfl⟩
  | succ n ih =>
    simp only [blockComment, h]
    split
    · exact ⟨h, rfl, rfl⟩
    split
    · exact ⟨rfl, rfl, rfl⟩
    split
    · exact ih (offset_afterLine h) true
    · exact ih (p := { p with offset := v.after p.offset })
        (q := { q with offset := v.after p.offset }) rfl newline

theorem triviaFrom_alike (h : q.offset = p.offset) (n : Nat) (newline : Bool) :
    (v.triviaFrom n p newline).Alike (v.triviaFrom n q newline) := by
  induction n generalizing p q newline with
  | zero => exact ⟨h, rfl, rfl⟩
  | succ n ih =>
    have along (i : Nat) : (v.triviaFrom n { p with offset := i } newline).Alike
        (v.triviaFrom n { q with offset := i } newline) :=
      ih (p := { p with offset := i }) (q := { q with offset := i }) rfl newline
    have hb := blockComment_alike (v := v) (p := { p with offset := p.offset + 2 })
      (q := { q with offset := p.offset + 2 }) rfl (v.steps p.offset) newline
    simp only [triviaFrom, h]
    split
    · exact ⟨h, rfl, rfl⟩
    split
    · exact ih (offset_afterLine h) true
    split
    · exact along _
    split
    · exact along _
    split
    · rw [hb.2.2, hb.2.1]
      split
      · exact ih hb.1 _
      · exact ⟨hb.1, rfl, rfl⟩
    · exact ⟨h, rfl, rfl⟩

theorem behind_alike (v : View) (p : Place) : (v.behind p.offset).Alike (v.trivia p) :=
  triviaFrom_alike (p := ⟨p.offset, 0, 0⟩) (q := p) rfl (v.steps p.offset) false

theorem behind_of_limit_le {i : Nat} (h : v.limit ≤ i) : v.behind i = ⟨⟨i, 0, 0⟩, false, none⟩ :=
  v.trivia_of_isEnd (decide_eq_true h)

/-! The closing brace. -/

theorem wordKind_ne_rightBrace {strict escaped : Bool} {name : String} :
    wordKind strict escaped name ≠ .ok .rightBrace := fun h => by
  have hw {kind : TokenKind} (h : TokenKind.ofWord? name = some kind) : kind ≠ .rightBrace := by
    unfold TokenKind.ofWord? at h
    split at h
    all_goals cases h
    all_goals decide
  unfold wordKind at h
  split at h
  · cases h
  · next hk =>
    split at h
    · cases h
    · split at h
      · cases h
      · cases h
        exact hw hk rfl

end View

theorem punctuator?_rightBrace {c₀ c₁ c₂ c₃ : Char} {length : Nat}
    (h : punctuator? c₀ c₁ c₂ c₃ = some (.rightBrace, length)) : c₀ = '\x7d' := by
  unfold punctuator? at h
  split at h
  all_goals
    simp only [Option.some.injEq, doubled, assigning, reduceCtorEq] at h
    repeat' split at h
    all_goals first | rfl | cases h

theorem View.token_of_rightBrace {v : View} {p : Place} (h : v.code p.offset = 0x7D)
    (strict : Bool) :
    v.token strict p = (.ok (.rightBrace, .none), { p with offset := p.offset + 1 }) := by
  have hi : v.isEnd p.offset = false := isEnd_eq_false (lt_limit (by rw [h]; decide))
  simp only [token, hi, h, Nat.add_zero, show CodePoint.toChar 0x7D = '\x7d' by decide, punctuator?]
  rfl

theorem View.token_rightBrace_iff {v : View} {strict : Bool} {p : Place} :
    (∃ x, (v.token strict p).1 = .ok (.rightBrace, x)) ↔ v.code p.offset = 0x7D := by
  constructor
  · rintro ⟨x, h⟩
    simp only [token] at h
    split at h
    · cases h
    split at h
    · obtain ⟨_, _, hk, -⟩ := v.wordFrom_ok h
      exact absurd hk wordKind_ne_rightBrace
    split at h
    · cases v.numeral_ok h
    split at h
    · cases v.stringFrom_ok h
    split at h
    · next kind length hc =>
      cases h
      exact CodePoint.eq_of_toChar (punctuator?_rightBrace hc) (by decide)
    · cases h
  · intro h
    exact ⟨.none, congrArg Prod.fst (token_of_rightBrace h strict)⟩

namespace Lexer

variable {l : Lexer} {strict : Bool}

theorem newline_next (l : Lexer) (strict : Bool) :
    (l.next strict).2.standing.newline = (l.view.behind l.standing.offset).newline := by
  have ha := l.view.behind_alike l.place
  rw [show l.standing.offset = l.place.offset from rfl, ← ha.newline]
  simp only [next]
  split
  · rfl
  · split <;> rfl

theorem start_next (h : (l.next strict).1.kind.isError = false) :
    (l.next strict).1.extent.start = (l.view.behind l.standing.offset).place.offset ∧
      ((l.next strict).1.kind = .rightBrace ↔
        l.view.code (l.next strict).1.extent.start = 0x7D) := by
  have ha := l.view.behind_alike l.place
  rw [show l.standing.offset = l.place.offset from rfl, ← ha.offset]
  have hb := @View.token_rightBrace_iff l.view strict (l.view.trivia l.place).place
  simp only [next] at h ⊢
  split at h
  · cases h
  · next hu =>
    generalize l.view.token strict (l.view.trivia l.place).place = x at h hb ⊢
    obtain ⟨⟨fault⟩ | ⟨kind, value⟩, stop⟩ := x
    · cases (LexFault.kind_isError fault).symm.trans h
    · refine ⟨rfl, Iff.trans ⟨fun hk => ⟨value, by rw [show kind = .rightBrace from hk]⟩, ?_⟩ hb⟩
      rintro ⟨x, hx⟩
      cases hx
      rfl

theorem next_of_rightBrace (h : (l.next strict).1.kind = .rightBrace) (mode : Bool) :
    l.next mode = l.next strict := by
  obtain ⟨hs, hb⟩ := @start_next l strict (by rw [h]; rfl)
  have hc : l.view.code (l.view.trivia l.place).place.offset = 0x7D := by
    rw [(l.view.behind_alike l.place).offset,
      show l.place.offset = l.standing.offset from rfl, ← hs]
    exact hb.1 h
  simp only [next, View.token_of_rightBrace hc]

end Lexer

namespace Sight

/-- The current token was read right behind the last one. -/
structure Follows (x : Sight) : Prop extends x.Ready where
  snug : x.tokenStart.offset ≤ x.lastEnd.offset

theorem Trail.follows {x y : Sight} {ts : List Token} (hx : x.Ready) (h : x.Trail ts y)
    (hn : ts ≠ []) : y.Follows := by
  refine ⟨(h.passes hx).ready, ?_⟩
  induction h with
  | nil => exact absurd rfl hn
  | @next _ y _ h =>
    have hy := (h.passes hx).ready.settled
    have hs : y.token.extent.stop = _ := hy.advances.stop
    show y.lexer.standing.offset ≤ y.token.extent.stop
    rw [hs]
    obtain he | ⟨-, he⟩ := hy.lexer
    · rw [he]
    · rw [he]
      exact Nat.min_le_left _ _
  | @regexp _ y _ hk =>
    show y.regexp.lexer.standing.offset ≤ y.regexp.token.extent.stop
    exact Nat.le_of_eq (Lexer.regexp_stop _ _ _).symm
  | reread _ _ ih => exact Nat.le_trans (Nat.min_le_left _ _) (ih hn)
  | lookAhead _ _ ih => exact ih hn

namespace Follows

variable {x : Sight}

theorem offset_eq (h : x.Follows) : x.tokenStart.offset = x.lastEnd.offset ∨
    x.lexer.view.limit ≤ x.tokenStart.offset ∧ x.lexer.view.limit ≤ x.lastEnd.offset := by
  have hb := h.behind
  have hs := h.snug
  omega

theorem newline (h : x.Follows) :
    x.lexer.standing.newline = (x.lexer.view.behind x.lastEnd.offset).newline := by
  have hl : x.lexer.standing.newline = (x.origin.next x.strict).2.standing.newline := by
    obtain he | ⟨-, he⟩ := h.settled.lexer
    · rw [← he]
    · rw [he]
      rfl
  rw [hl, Lexer.newline_next]
  show (x.lexer.view.behind x.tokenStart.offset).newline = _
  obtain he | ⟨ht, he⟩ := h.offset_eq
  · rw [he]
  · rw [View.behind_of_limit_le ht, View.behind_of_limit_le he]

theorem closes (h : x.Follows)
    (hc : x.lexer.standing.newline = true ∨ x.token.kind = .rightBrace ∨ x.token.kind = .eof) :
    x.lexer.view.Closes x.lastEnd.offset := by
  obtain hc | hc := hc
  · exact .inl (h.newline ▸ hc)
  right
  obtain he | ⟨-, he⟩ := h.offset_eq
  · have ht := h.settled.token
    have hs := @Lexer.start_next x.origin x.strict (by rw [ht]; obtain hk | hk := hc <;>
      rw [hk] <;> rfl)
    rw [ht] at hs
    replace hs : x.token.extent.start = (x.lexer.view.behind x.tokenStart.offset).place.offset ∧
      (x.token.kind = .rightBrace ↔ x.lexer.view.code x.token.extent.start = 0x7D) := hs
    rw [← he, ← hs.1]
    exact hc.symm.imp (fun hk => h.settled.advances.atEnd hk) hs.2.1
  · rw [View.behind_of_limit_le he]
    exact .inl he

end Follows

end Sight

/-! Line terminators of a text. -/

theorem Encoding.offset_le_iff (e : Encoding) {text : List Char} {k m : Nat} (hk : k ≤ text.length)
    (hm : m ≤ text.length) :
    e.offset text k ≤ e.offset text m ↔ k ≤ m := by
  refine ⟨fun h => ?_, fun h => e.offset_mono h hm⟩
  by_contra hn
  have hs := e.offset_mono (Nat.lt_of_not_le hn) hk
  have hl : m < text.length := by omega
  have hp := e.width_pos text[m].toNat
  rw [e.offset_succ hl] at hs
  omega

namespace Source

/-- A line ends between two offsets: a line terminator of the text lies there. -/
def EndsLine (s : Source) (text : List Char) (i j : Nat) : Prop :=
  ∃ k c, text[k]? = some c ∧ CodePoint.isLineTerminator c.toNat = true ∧
    i ≤ s.start + s.buffer.encoding.offset text k ∧
    s.start + s.buffer.encoding.offset text (k + 1) ≤ j

namespace Spells

variable {s : Source} {text : List Char} {k : Nat} {o i : Nat} {p q : Place} {newline : Bool}

theorem exists_char (ht : s.Spells text) (hk : k ≤ text.length)
    (ho : o = s.start + s.buffer.encoding.offset text k) (hl : o < s.stop) :
    ∃ c, text[k]? = some c ∧ k < text.length ∧ s.view.code o = c.toNat := by
  obtain rfl | hk := Nat.eq_or_lt_of_le hk
  · rw [ho, ht.stop] at hl
    exact absurd hl (Nat.lt_irrefl _)
  · have hv := ht.viewCode (Nat.le_of_lt hk)
    rw [List.getElem?_eq_getElem hk] at hv
    exact ⟨_, List.getElem?_eq_getElem hk, hk, ho ▸ hv⟩

theorem clear (ht : s.Spells text) (h : s.view.Clear o i) (hk : k ≤ text.length)
    (ho : o = s.start + s.buffer.encoding.offset text k) :
    ∃ m, k ≤ m ∧ m ≤ text.length ∧ i = s.start + s.buffer.encoding.offset text m ∧
      ∀ j c, text[j]? = some c → k ≤ j → j < m → CodePoint.isLineTerminator c.toNat = false := by
  induction h with
  | here => exact ⟨k, Nat.le_refl k, hk, ho, fun j _ _ hj hj' => absurd hj (Nat.not_le.2 hj')⟩
  | after _ hl hc ih =>
    obtain ⟨m, hkm, hm, hi, hn⟩ := ih
    obtain ⟨c, hcm, hm, hv⟩ := ht.exists_char hm hi hl
    refine ⟨m + 1, Nat.le_succ_of_le hkm, hm, hi ▸ ht.after hm, fun j c' hj hkj hjm => ?_⟩
    obtain rfl | hjm := Nat.eq_or_lt_of_le (Nat.le_of_lt_succ hjm)
    · rw [hcm] at hj
      cases hj
      rwa [hv] at hc
    · exact hn j c' hj hkj hjm

theorem afterLine (ht : s.Spells text) (hk : k ≤ text.length)
    (ho : p.offset = s.start + s.buffer.encoding.offset text k) (hl : p.offset < s.stop) :
    ∃ m, k < m ∧ m ≤ text.length ∧
    (s.view.afterLine p).offset = s.start + s.buffer.encoding.offset text m := by
  obtain ⟨c, hc, hk, hv⟩ := ht.exists_char hk ho hl
  rw [View.afterLine]
  dsimp only
  split
  · next hcr =>
    rw [Bool.and_eq_true, beq_iff_eq, beq_iff_eq, hv] at hcr
    rw [List.getElem?_eq_getElem hk, Option.some.injEq] at hc
    obtain ⟨ho₁, hv₁⟩ := ht.viewCode_succ hk (by rw [hc, hcr.1]; decide)
    rw [← ho, hcr.2] at hv₁
    have hk₁ : k + 1 < text.length := by
      by_contra hk₁
      rw [List.getElem?_eq_none (Nat.not_lt.1 hk₁)] at hv₁
      cases hv₁
    rw [List.getElem?_eq_getElem hk₁] at hv₁
    have ho₂ := (ht.viewCode_succ hk₁
      (by rw [show text[k + 1].toNat = 0x0A from hv₁.symm]; decide)).1
    exact ⟨k + 2, by omega, hk₁, by rw [ho₂, ho₁, ho, Nat.add_assoc]⟩
  · exact ⟨k + 1, Nat.lt_succ_self k, hk, ho ▸ ht.after hk⟩

theorem passes (ht : s.Spells text) (hq : s.view.Passes p q newline) (hk : k ≤ text.length)
    (hp : p.offset = s.start + s.buffer.encoding.offset text k) :
    ∃ m, k ≤ m ∧ m ≤ text.length ∧ q.offset = s.start + s.buffer.encoding.offset text m ∧
      (newline = true ↔ ∃ j c, text[j]? = some c ∧ CodePoint.isLineTerminator c.toNat = true ∧
        k ≤ j ∧ j < m) := by
  induction hq with
  | here =>
    exact ⟨k, Nat.le_refl k, hk, hp, nofun,
      fun ⟨j, _, _, _, hkj, hj⟩ => absurd hkj (Nat.not_le.2 hj)⟩
  | along _ hc ih =>
    obtain ⟨m, hkm, hm, ho, hn⟩ := ih
    obtain ⟨m', hmm, hm', ho', hclear⟩ := ht.clear hc hm ho
    refine ⟨m', Nat.le_trans hkm hmm, hm', ho', hn.trans ⟨?_, ?_⟩⟩
    · rintro ⟨j, c, hj, hl, hkj, hjm⟩
      exact ⟨j, c, hj, hl, hkj, Nat.lt_of_lt_of_le hjm hmm⟩
    · rintro ⟨j, c, hj, hl, hkj, hjm⟩
      refine ⟨j, c, hj, hl, hkj, Nat.lt_of_not_le fun hmj => ?_⟩
      rw [hclear j c hj hmj hjm] at hl
      cases hl
  | line _ hl hc ih =>
    obtain ⟨m, hkm, hm, ho, -⟩ := ih
    obtain ⟨c, hcm, -, hv⟩ := ht.exists_char hm ho hl
    obtain ⟨m', hmm, hm', ho'⟩ := ht.afterLine hm ho hl
    exact ⟨m', Nat.le_trans hkm (Nat.le_of_lt hmm), hm', ho',
      fun _ => ⟨m, c, hcm, hv ▸ hc, hkm, hmm⟩, fun _ => rfl⟩

theorem endsLine_iff {m : Nat} (hk : k ≤ text.length) (hm : m ≤ text.length) :
    s.EndsLine text (s.start + s.buffer.encoding.offset text k)
      (s.start + s.buffer.encoding.offset text m) ↔
      ∃ j c, text[j]? = some c ∧ CodePoint.isLineTerminator c.toNat = true ∧ k ≤ j ∧ j < m := by
  refine exists_congr fun j => exists_congr fun c => and_congr_right fun hj =>
    and_congr_right fun _ => ?_
  have hj : j < text.length := (List.getElem?_eq_some_iff.1 hj).1
  rw [Nat.add_le_add_iff_left, Nat.add_le_add_iff_left,
    s.buffer.encoding.offset_le_iff hk (Nat.le_of_lt hj), s.buffer.encoding.offset_le_iff hj hm]
  rfl

end Spells

end Source

namespace Lexer

variable {s : Source} {text : List Char} {l : Lexer} {before after : List Token} {t u : Token}

/-- The lexer stands where a character of the text begins, or at its end. -/
structure Within (s : Source) (text : List Char) (l : Lexer) : Prop where
  view : l.view = s.view
  character : ∃ k ≤ text.length, l.standing.offset = s.start + s.buffer.encoding.offset text k

theorem Within.passes {m : Lexer} {newline : Bool} (ht : s.Spells text) (h : l.Within s text)
    (hv : m.view = l.view) (hp : l.view.Passes l.place m.place newline) : m.Within s text := by
  obtain ⟨hl, k, hk, ho⟩ := h
  obtain ⟨j, -, hj, hq, -⟩ := ht.passes (hl ▸ hp) hk ho
  exact ⟨hv.trans hl, j, hj, hq⟩

theorem Within.endsLine_iff {strict : Bool} (ht : s.Spells text) (h : l.Within s text)
    (hk : (l.next strict).1.kind.isSolid = true) :
    s.EndsLine text l.standing.offset (l.next strict).1.extent.start ↔
      (s.view.behind l.standing.offset).newline = true := by
  obtain ⟨hl, k, hk', ho⟩ := h
  obtain ⟨-, -, hp⟩ := l.next_passes strict
  obtain ⟨m, -, hm, hq, hn⟩ := ht.passes (hl ▸ hp (by simp [fault_next_of_isSolid hk])) hk' ho
  rw [← hl, ← newline_next l strict, hn, show (l.next strict).1.extent.start = _ from hq, ho]
  exact Source.Spells.endsLine_iff hk' hm

theorem Spells.tail (ht : s.Spells text) (hl : l.Within s text) (h : l.Spells (t :: after)) :
    ∃ m : Lexer, m.Within s text ∧ m.standing.offset = t.extent.stop ∧ m.Spells after := by
  cases h with
  | @token _ strict _ hk h =>
    obtain ⟨⟨_, hp⟩, -⟩ := l.next_passes strict
    exact ⟨_, hl.passes ht (view_next ..) hp, (l.next_advances strict).stop.symm, h⟩
  | @regexp _ m strict slash _ _ hn hk hr he h =>
    obtain ⟨⟨_, hp⟩, -⟩ := l.next_passes strict
    have hm := hl.passes ht (view_next ..) hp
    rw [hn] at hm
    obtain ⟨hp, -⟩ := m.regexp_passes slash (if slash.kind == .slashEqual then "=" else "")
    refine ⟨_, hm.passes ht (regexp_advances m slash _).1 hp, ?_, h⟩
    rw [← hr, regexp_stop]

theorem Spells.gap (ht : s.Spells text) (hl : l.Within s text) (h : l.Spells (u :: after)) :
    (s.EndsLine text l.standing.offset u.extent.start ↔
      (s.view.behind l.standing.offset).newline = true) ∧
      (s.view.Closes l.standing.offset → u.kind = .rightBrace ∨
        s.EndsLine text l.standing.offset u.extent.start) := by
  -- A slash that is read on begins where it would as a token of its own, and is no brace.
  obtain ⟨strict, hk, hs, hb⟩ : ∃ strict, (l.next strict).1.kind.isSolid = true ∧
      u.extent.start = (l.next strict).1.extent.start ∧
      ((l.next strict).1.kind = .rightBrace → u.kind = .rightBrace) := by
    cases h with
    | @token _ strict _ hk => exact ⟨strict, hk, rfl, id⟩
    | @regexp _ m strict slash _ _ hn hk hr =>
      refine ⟨strict, ?_, ?_, fun hb => ?_⟩
      · rw [hn]
        obtain hk | hk := hk <;> rw [hk] <;> rfl
      · rw [← hr, hn]
        exact congrArg Place.offset (m.regexp_passes slash _).2.1
      · rw [hn] at hb
        obtain hk | hk := hk <;> cases hk.symm.trans hb
  have hi := hl.endsLine_iff ht hk
  rw [hs]
  refine ⟨hi, fun hc => ?_⟩
  have he : (l.next strict).1.kind.isError = false := Bool.eq_false_iff.2 fun he => by
    rw [TokenKind.isSolid_of_isError he] at hk
    cases hk
  obtain ⟨hstart, hbrace⟩ := start_next he
  rw [hl.view] at hstart hbrace
  obtain hc | hc | hc := hc
  · exact .inr (hi.2 hc)
  · have hx := (l.next_advances strict).inside fun he => by
      rw [he] at hk
      cases hk
    rw [hstart, hl.view] at hx
    exact absurd hc (Nat.not_le.2 hx)
  · exact .inl (hb (hbrace.2 (hstart ▸ hc)))

theorem Spells.between (ht : s.Spells text) (hl : l.Within s text) {ts : List Token}
    (h : l.Spells ts) (hi : [t, u] <:+: ts) :
    (s.EndsLine text t.extent.stop u.extent.start ↔ (s.view.behind t.extent.stop).newline = true) ∧
      (s.view.Closes t.extent.stop → u.kind = .rightBrace ∨
        s.EndsLine text t.extent.stop u.extent.start) := by
  obtain ⟨before, after, rfl⟩ := hi
  induction before generalizing l with
  | nil =>
    obtain ⟨m, hm, ho, h⟩ := Spells.tail ht hl h
    exact ho ▸ h.gap ht hm
  | cons _ _ ih =>
    obtain ⟨m, hm, -, h⟩ := Spells.tail ht hl h
    exact ih hm h

theorem Within.ofSource (s : Source) (text : List Char) : (ofSource s).Within s text :=
  ⟨rfl, 0, Nat.zero_le _, rfl⟩

end Lexer

end EcmaFront
