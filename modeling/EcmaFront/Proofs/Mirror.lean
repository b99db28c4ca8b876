import EcmaFront.Proofs.TokenStream
import Mathlib.Tactic.IntervalCases

/-!
Two views that show the same code points. Their buffers may differ, also in encoding, so a place may
have another offset in each; which offsets stand for each other is kept by a step over a code point.
A token is read by such steps alone, since what is stepped over as one unit is ASCII. So both views
have the same tokens at the same places.
-/

set_option autoImplicit false

namespace EcmaFront

namespace CodePoint

/-- One unit wide in every encoding, and not what is read beyond the end of a view. -/
abbrev IsAscii (code : CodePoint) : Prop := 0 < code ∧ code < 0x80

theorem isAscii_of_between {code low high : Nat} (h : low ≤ code ∧ code ≤ high) (hl : 0 < low)
    (hh : high < 0x80) :
    IsAscii code :=
  ⟨Nat.lt_of_lt_of_le hl h.1, Nat.lt_of_le_of_lt h.2 hh⟩

theorem isAscii_of_beq {code c : CodePoint} (h : (code == c) = true) (hc : IsAscii c) :
    IsAscii code := by
  rwa [beq_iff_eq.1 h]

theorem isAscii_of_digit? {radix : Nat} {code : CodePoint} {d : Nat}
    (h : digit? radix code = some d) :
    IsAscii code := by
  simp only [digit?, Option.filter_eq_some_iff, Bool.and_eq_true, decide_eq_true_eq] at h
  obtain ⟨h, -⟩ := h
  split at h
  · next hd => exact isAscii_of_between hd (by decide) (by decide)
  split at h
  · next hd => exact isAscii_of_between hd (by decide) (by decide)
  split at h
  · next hd => exact isAscii_of_between hd (by decide) (by decide)
  · cases h

theorem ne_zero_of_isIdentifierPart {code : CodePoint} (h : code.isIdentifierPart = true) :
    code ≠ 0 := by
  rintro rfl
  cases h

theorem toNat_toChar {code : CodePoint} (h : code.isValidChar) : (toChar code).toNat = code := by
  rw [toChar, if_pos h, Char.ofNat, dif_pos h]
  rfl

theorem isAscii_of_toChar {code : CodePoint} (h : IsAscii (toChar code).toNat) : IsAscii code := by
  by_cases hv : code.isValidChar
  · rwa [toNat_toChar hv] at h
  · rw [toChar, if_neg hv] at h
    exact absurd h (by decide)

theorem eq_of_toChar {code : CodePoint} {c : Char} (h : code.toChar = c) (hc : IsAscii c.toNat) :
    code = c.toNat := by
  by_cases hv : code.isValidChar
  · rw [← h, toNat_toChar hv]
  · rw [toChar, if_neg hv] at h
    subst h
    exact absurd hc (by decide)

end CodePoint

theorem Encoding.width_of_lt (e : Encoding) {code : CodePoint} (h : code < 0x80) :
    e.width code = 1 := by
  cases e with
  | ascii => rfl
  | utf8 => simp only [width, if_pos h]
  | utf16 => simp only [width, if_pos (Nat.lt_trans h (by decide : 0x80 < 0x10000))]

/-! What a punctuator is made of. -/

theorem punctuator?_congr {c₀ c₁ c₂ c₃ d₂ d₃ : Char} (h₂ : CodePoint.IsAscii c₁.toNat → d₂ = c₂)
    (h₃ : CodePoint.IsAscii c₁.toNat → CodePoint.IsAscii c₂.toNat → d₃ = c₃) :
    punctuator? c₀ c₁ d₂ d₃ = punctuator? c₀ c₁ c₂ c₃ := by
  by_cases h₁ : CodePoint.IsAscii c₁.toNat
  · obtain rfl := h₂ h₁
    by_cases h : CodePoint.IsAscii d₂.toNat
    · rw [h₃ h₁ h]
    · have hg : d₂ ≠ '>' := by rintro rfl; exact h (by decide)
      unfold punctuator?
      split <;> simp [hg]
  · have hd : c₁ ≠ '.' := by rintro rfl; exact h₁ (by decide)
    have he : c₁ ≠ '=' := by rintro rfl; exact h₁ (by decide)
    have hl : c₁ ≠ '<' := by rintro rfl; exact h₁ (by decide)
    have hg : c₁ ≠ '>' := by rintro rfl; exact h₁ (by decide)
    unfold punctuator?
    split <;> simp [hd, he, hl, hg]

theorem punctuator?_eq_none {c₀ c₁ c₂ c₃ : Char} (h : ¬CodePoint.IsAscii c₀.toNat) :
    punctuator? c₀ c₁ c₂ c₃ = none := by
  unfold punctuator?
  split
  all_goals first | rfl | exact absurd (by decide) h

theorem isAscii_of_punctuator? {char : Nat → Char} {kind : TokenKind} {length : Nat}
    (h : punctuator? (char 0) (char 1) (char 2) (char 3) = some (kind, length)) :
    ∀ k < length, CodePoint.IsAscii (char k).toNat := by
  unfold punctuator? at h
  split at h
  all_goals
    simp only [Option.some.injEq, doubled, assigning, reduceCtorEq, Bool.and_eq_true, bne_iff_ne,
      decide_eq_true_eq, ne_eq, ite_not] at h
    repeat' split at h
    all_goals
      cases h
      intro k hk
      interval_cases k <;> simp only [*] <;> decide

namespace View

/-- Bounded steps are enough to read from an offset to the limit. -/
def Enough (v : View) (n i : Nat) : Prop := v.limit - i < n

namespace Enough

variable {v : View} {n i k : Nat}

theorem steps_of_le (v : View) {i k : Nat} (h : i ≤ k) : v.Enough (v.steps i) k :=
  Nat.lt_succ_of_le (Nat.sub_le_sub_left h v.limit)

theorem steps (v : View) (i : Nat) : v.Enough (v.steps i) i := steps_of_le v (Nat.le_refl i)

theorem step (h : v.Enough (n + 1) i) (hi : i < v.limit) (hk : i < k) : v.Enough n k := by
  simp only [Enough] at *
  omega

theorem ne_zero (h : v.Enough n i) : n ≠ 0 := Nat.ne_zero_of_lt h

end Enough

theorem lt_limit {v : View} {i : Nat} (h : v.code i ≠ 0) : i < v.limit := by
  unfold code at h
  split at h
  · assumption
  · exact absurd rfl h

theorem isEnd_eq_false {v : View} {i : Nat} (h : i < v.limit) : v.isEnd i = false := by
  simpa only [isEnd, decide_eq_false_iff_not, Nat.not_le] using h

theorem lt_limit_of_isEnd {v : View} {i : Nat} (h : ¬v.isEnd i = true) : i < v.limit := by
  simpa only [isEnd, decide_eq_true_eq, Nat.not_le] using h

theorem after_of_isAscii {v : View} {i : Nat} (h : (v.code i).IsAscii) : v.after i = i + 1 := by
  rw [after, Buffer.width, Encoding.width_of_lt _ h.2]

theorem isAscii_of_isLetter {v : View} {i : Nat} {letter : CodePoint}
    (h : v.isLetter i letter = true) (hl : 0x20 < letter ∧ letter < 0x80) : (v.code i).IsAscii := by
  simp only [View.isLetter, Bool.or_eq_true, beq_iff_eq] at h
  obtain h | h := h
  · rw [h]
    exact ⟨Nat.lt_of_le_of_lt (Nat.zero_le _) hl.1, hl.2⟩
  · rw [← h] at hl
    exact ⟨Nat.pos_of_lt_add_left hl.1, Nat.lt_of_le_of_lt (Nat.le_add_right _ _) hl.2⟩

theorem isAscii_of_letterEscape? {code : CodePoint} {c : Char} (h : letterEscape? code = some c) :
    code.IsAscii := by
  simp only [letterEscape?] at h
  repeat' split at h
  all_goals first | exact CodePoint.isAscii_of_beq ‹_› (by decide) | cases h

/-- Which offsets of two views stand for each other: from there on both show the same. Lines may be
taken to begin elsewhere, since nothing is read at their beginnings. -/
structure Mirror (v w : View) where
  pairs : Nat → Nat → Prop
  lines : Nat → Nat → Prop
  ofPairs : ∀ {i j}, pairs i j → lines i j
  isEnd : ∀ {i j}, pairs i j → w.isEnd j = v.isEnd i
  code : ∀ {i j}, pairs i j → w.code j = v.code i
  after : ∀ {i j}, pairs i j → i < v.limit → pairs (v.after i) (w.after j)

end View

/-- The same was found, and the places where it ends stand for each other. -/
inductive Matches {α β : Type} (r : β → β → Prop) : α × β → α × β → Prop where
  | intro (a : α) {i j : β} (h : r i j) : Matches r (a, i) (a, j)

theorem Matches.eqs {α β : Type} {r : β → β → Prop} {x y : α × β} (h : Matches r x y) :
    ∃ a i j, x = (a, i) ∧ y = (a, j) ∧ r i j := by
  obtain ⟨a, h⟩ := h
  exact ⟨a, _, _, rfl, rfl, h⟩

namespace View.Mirror

variable {v w : View} (M : Mirror v w) {i j m n : Nat}

theorem lt_limit (h : M.pairs i j) (hi : i < v.limit) : j < w.limit := by
  have he := M.isEnd h
  rw [View.isEnd_eq_false hi] at he
  exact View.lt_limit_of_isEnd (by simp [he])

theorem succ (h : M.pairs i j) (hc : (v.code i).IsAscii) : M.pairs (i + 1) (j + 1) := by
  have ha := M.after h (View.lt_limit (Nat.ne_of_gt hc.1))
  rwa [View.after_of_isAscii hc, View.after_of_isAscii (M.code h ▸ hc)] at ha

theorem two (h : M.pairs i j) (a b : CodePoint) (ha : a.IsAscii) :
    (w.code j == a && w.code (j + 1) == b) = (v.code i == a && v.code (i + 1) == b) := by
  rw [M.code h]
  cases hc : v.code i == a with
  | false => rfl
  | true => rw [M.code (M.succ h (CodePoint.isAscii_of_beq hc ha))]

theorem succ_two (h : M.pairs i j) {a b : CodePoint}
    (hc : (v.code i == a && v.code (i + 1) == b) = true) (ha : a.IsAscii) (hb : b.IsAscii) :
    M.pairs (i + 2) (j + 2) := by
  rw [Bool.and_eq_true] at hc
  exact M.succ (M.succ h (CodePoint.isAscii_of_beq hc.1 ha)) (CodePoint.isAscii_of_beq hc.2 hb)

/-! White space, line terminators and comments. -/

/-- Places stand for each other, on lines of one number. -/
structure Places (p q : Place) : Prop where
  offset : M.pairs p.offset q.offset
  line : q.line = p.line
  lineStart : M.lines p.lineStart q.lineStart

theorem Places.move {p q : Place} (h : M.Places p q) (hij : M.pairs i j) :
    M.Places { p with offset := i } { q with offset := j } := ⟨hij, h.line, h.lineStart⟩

/-- Extents stand for each other, on lines of one number. -/
structure Extents (e f : Extent) : Prop where
  line : f.line = e.line
  lineStart : M.lines e.lineStart f.lineStart
  start : M.pairs e.start f.start
  stop : M.pairs e.stop f.stop

theorem afterLine {p q : Place} (h : M.Places p q) (hi : p.offset < v.limit) :
    M.Places (v.afterLine p) (w.afterLine q) := by
  simp only [View.afterLine, M.two h.offset 0x0D 0x0A (by decide)]
  split
  · next hc =>
    have hs := M.succ_two h.offset hc (by decide) (by decide)
    exact ⟨hs, congrArg nextLine h.line, M.ofPairs hs⟩
  · exact ⟨M.after h.offset hi, congrArg nextLine h.line, M.ofPairs (M.after h.offset hi)⟩

theorem lineCommentEnd (h : M.pairs i j) (hn : v.Enough n i) (hm : w.Enough m j) :
    M.pairs (v.lineCommentEnd n i) (w.lineCommentEnd m j) := by
  induction n generalizing i j m with
  | zero => exact absurd rfl hn.ne_zero
  | succ n ih =>
    cases m with
    | zero => exact absurd rfl hm.ne_zero
    | succ m =>
      simp only [View.lineCommentEnd, M.isEnd h, M.code h]
      split
      · exact h
      · next hc =>
        have hi := View.lt_limit_of_isEnd (v := v) (i := i) fun he => hc (by simp [he])
        exact ih (M.after h hi) (hn.step hi (v.lt_after i))
          (hm.step (M.lt_limit h hi) (w.lt_after j))

theorem blockComment {p q : Place} (h : M.Places p q) (hn : v.Enough n p.offset)
    (hm : w.Enough m q.offset) (newline : Bool) :
    M.Places (v.blockComment n p newline).place (w.blockComment m q newline).place ∧
      (w.blockComment m q newline).newline = (v.blockComment n p newline).newline ∧
      (w.blockComment m q newline).closed = (v.blockComment n p newline).closed := by
  induction n generalizing p q m newline with
  | zero => exact absurd rfl hn.ne_zero
  | succ n ih =>
    cases m with
    | zero => exact absurd rfl hm.ne_zero
    | succ m =>
      simp only [View.blockComment]
      rw [M.two h.offset 0x2A 0x2F (by decide), M.isEnd h.offset, M.code h.offset]
      split
      · exact ⟨h, rfl, rfl⟩
      next he =>
      have hi := View.lt_limit_of_isEnd he
      have hj := M.lt_limit h.offset hi
      split
      · next hc => exact ⟨h.move M (M.succ_two h.offset hc (by decide) (by decide)), rfl, rfl⟩
      split
      · exact ih (M.afterLine h hi) (hn.step hi (v.lt_afterLine p))
          (hm.step hj (w.lt_afterLine q)) true
      · exact ih (h.move M (M.after h.offset hi)) (hn.step hi (v.lt_after _))
          (hm.step hj (w.lt_after _)) newline

/-- Trivia ends at places that stand for each other, or is a comment that neither view closes. -/
structure TriviaMatch (t u : Trivia) : Prop where
  place : M.Places t.place u.place
  newline : u.newline = t.newline
  unclosed : Option.Rel M.Extents t.unclosed u.unclosed

theorem triviaFrom {p q : Place} (h : M.Places p q) (hn : v.Enough n p.offset)
    (hm : w.Enough m q.offset) (newline : Bool) :
    M.TriviaMatch (v.triviaFrom n p newline) (w.triviaFrom m q newline) := by
  induction n generalizing p q m newline with
  | zero => exact absurd rfl hn.ne_zero
  | succ n ih =>
    cases m with
    | zero => exact absurd rfl hm.ne_zero
    | succ m =>
      simp only [View.triviaFrom]
      rw [M.two h.offset 0x2F 0x2F (by decide), M.two h.offset 0x2F 0x2A (by decide),
        M.isEnd h.offset, M.code h.offset]
      split
      · exact ⟨h, rfl, .none⟩
      next he =>
      have hi := View.lt_limit_of_isEnd he
      have hj := M.lt_limit h.offset hi
      split
      · exact ih (M.afterLine h hi) (hn.step hi (v.lt_afterLine p))
          (hm.step hj (w.lt_afterLine q)) true
      split
      · exact ih (h.move M (M.after h.offset hi)) (hn.step hi (v.lt_after _))
          (hm.step hj (w.lt_after _)) newline
      split
      · next hl _ hc =>
        have hv : p.offset < v.lineCommentEnd (v.steps p.offset) p.offset :=
          v.lt_lineCommentEnd (by simpa [he] using hl)
        have hw : q.offset < w.lineCommentEnd (w.steps q.offset) q.offset :=
          w.lt_lineCommentEnd (by simpa [he, M.isEnd h.offset, M.code h.offset] using hl)
        exact ih (h.move M (M.lineCommentEnd h.offset (.steps v _) (.steps w _))) (hn.step hi hv)
          (hm.step hj hw) newline
      split
      · next hc =>
        have hs := h.move M (M.succ_two h.offset hc (by decide) (by decide))
        have hv := v.le_blockComment (v.steps p.offset) { p with offset := p.offset + 2 } newline
        have hw := w.le_blockComment (w.steps q.offset) { q with offset := q.offset + 2 } newline
        obtain ⟨hp, hl, hcl⟩ := M.blockComment hs (.steps_of_le v (Nat.le_add_right _ 2))
          (.steps_of_le w (Nat.le_add_right _ 2)) newline
        rw [hcl]
        split
        · have hv := Nat.lt_of_lt_of_le (Nat.lt_add_of_pos_right Nat.two_pos) hv
          have hw := Nat.lt_of_lt_of_le (Nat.lt_add_of_pos_right Nat.two_pos) hw
          rw [hl]
          exact ih hp (hn.step hi hv) (hm.step hj hw) _
        · exact ⟨hp, hl, .some ⟨h.line, h.lineStart, h.offset, hp.offset⟩⟩
      · exact ⟨h, rfl, .none⟩

theorem trivia {p q : Place} (h : M.Places p q) : M.TriviaMatch (v.trivia p) (w.trivia q) :=
  M.triviaFrom h (.steps v _) (.steps w _) false

/-! Escapes and words. -/

theorem fixedHex (h : M.pairs i j) (n value : Nat) :
    Matches M.pairs (v.fixedHex n i value) (w.fixedHex n j value) := by
  induction n generalizing i j value with
  | zero => exact .intro _ h
  | succ n ih =>
    simp only [View.fixedHex, M.code h]
    split
    · next d hd => exact ih (M.succ h (CodePoint.isAscii_of_digit? hd)) _
    · exact .intro _ h

theorem bracedHex (h : M.pairs i j) (hn : v.Enough n i) (hm : w.Enough m j) (value : Nat)
    (any : Bool) :
    Matches M.pairs (v.bracedHex n i value any) (w.bracedHex m j value any) := by
  induction n generalizing i j m value any with
  | zero => exact absurd rfl hn.ne_zero
  | succ n ih =>
    cases m with
    | zero => exact absurd rfl hm.ne_zero
    | succ m =>
      simp only [View.bracedHex, M.code h]
      split
      · next d hd =>
        split
        · exact .intro _ h
        · have hs := CodePoint.isAscii_of_digit? hd
          have hi := View.lt_limit (Nat.ne_of_gt hs.1)
          exact ih (M.succ h hs) (hn.step hi (Nat.lt_succ_self i))
            (hm.step (M.lt_limit h hi) (Nat.lt_succ_self j)) _ _
      · split
        · next hc =>
          rw [Bool.and_eq_true] at hc
          exact .intro _ (M.succ h (CodePoint.isAscii_of_beq hc.2 (by decide)))
        · exact .intro _ h

theorem unicodeEscape (h : M.pairs (i + 1) (j + 1)) :
    Matches M.pairs (v.unicodeEscape i) (w.unicodeEscape j) := by
  simp only [View.unicodeEscape, M.code h]
  split
  · next hc =>
    exact M.bracedHex (M.succ h (CodePoint.isAscii_of_beq hc (by decide)))
      (.steps_of_le v (Nat.le_add_right i 2))
      (.steps_of_le w (Nat.le_add_right j 2)) 0 false
  · exact M.fixedHex h 4 0

theorem wordFrom (h : M.pairs i j) (hn : v.Enough n i) (hm : w.Enough m j) (strict : Bool)
    (name : List Char) (escaped : Bool) :
    Matches M.pairs (v.wordFrom strict n i name escaped) (w.wordFrom strict m j name escaped) := by
  induction n generalizing i j m name escaped with
  | zero => exact absurd rfl hn.ne_zero
  | succ n ih =>
    cases m with
    | zero => exact absurd rfl hm.ne_zero
    | succ m =>
      simp only [View.wordFrom, M.code h]
      split
      · next hc =>
        have hs := CodePoint.isAscii_of_beq hc (by decide)
        have hi := View.lt_limit (Nat.ne_of_gt hs.1)
        have h₁ := M.succ h hs
        rw [M.code h₁]
        split
        · exact .intro _ h
        next hu =>
        have hu : v.code (i + 1) = 0x75 := by simpa using hu
        have hv := v.lt_unicodeEscape (i + 1)
        have hw := w.lt_unicodeEscape (j + 1)
        obtain ⟨decoded, k, l, hx, hy, hk⟩ := (M.unicodeEscape (M.succ h₁ (hu ▸ by decide))).eqs
        rw [hx] at hv ⊢
        rw [hy] at hw ⊢
        cases decoded with
        | none => exact .intro _ hk
        | some decoded =>
          dsimp only
          generalize (if name.isEmpty then decoded.isIdentifierStart else
            decoded.isIdentifierPart) = fits
          cases fits
          · exact .intro _ hk
          · exact ih hk (hn.step hi (Nat.lt_of_succ_lt hv))
              (hm.step (M.lt_limit h hi) (Nat.lt_of_succ_lt hw)) _ _
      split
      · next hp =>
        have hi := View.lt_limit (CodePoint.ne_zero_of_isIdentifierPart hp)
        exact ih (M.after h hi) (hn.step hi (v.lt_after i))
          (hm.step (M.lt_limit h hi) (w.lt_after j)) _ _
      · exact .intro _ h

theorem word (h : M.pairs i j) (strict : Bool) :
    Matches M.pairs (v.word strict i) (w.word strict j) :=
  M.wordFrom h (.steps v i) (.steps w j) strict [] false

/-! Numeric literals. -/

theorem digitsFrom (h : M.pairs i j) (hn : v.Enough n i) (hm : w.Enough m j) (radix : Nat)
    (digits : List Nat) :
    Matches M.pairs (v.digitsFrom radix n i digits) (w.digitsFrom radix m j digits) := by
  induction n generalizing i j m digits with
  | zero => exact absurd rfl hn.ne_zero
  | succ n ih =>
    cases m with
    | zero => exact absurd rfl hm.ne_zero
    | succ m =>
      simp only [View.digitsFrom, M.code h]
      split
      · next d hd =>
        have hs := CodePoint.isAscii_of_digit? hd
        have hi := View.lt_limit (Nat.ne_of_gt hs.1)
        exact ih (M.succ h hs) (hn.step hi (Nat.lt_succ_self i))
          (hm.step (M.lt_limit h hi) (Nat.lt_succ_self j)) _
      · exact .intro _ h

theorem digits (h : M.pairs i j) (radix : Nat) :
    Matches M.pairs (v.digits radix i) (w.digits radix j) := by
  obtain ⟨digits, k, l, hx, hy, hk⟩ := (M.digitsFrom h (.steps v i) (.steps w j) radix []).eqs
  rw [View.digits, View.digits, hx, hy]
  exact .intro _ hk

theorem isLetter (h : M.pairs i j) (letter : CodePoint) :
    w.isLetter j letter = v.isLetter i letter := by
  simp only [View.isLetter, M.code h]

theorem decimalTail (h : M.pairs i j) (whole : List Nat) :
    Matches M.pairs (v.decimalTail whole i) (w.decimalTail whole j) := by
  have hf : Matches M.pairs (if v.code i == 0x2E then v.digits 10 (i + 1) else ([], i))
      (if v.code i == 0x2E then w.digits 10 (j + 1) else ([], j)) := by
    split
    · next hc => exact M.digits (M.succ h (CodePoint.isAscii_of_beq hc (by decide))) 10
    · exact .intro _ h
  obtain ⟨fraction, k, l, hx, hy, hk⟩ := hf.eqs
  simp only [View.decimalTail, M.code h, hx, hy, M.isLetter hk]
  split
  · exact .intro _ hk
  next he =>
  have h₁ : M.pairs (k + 1) (l + 1) :=
    M.succ hk (View.isAscii_of_isLetter (by simpa using he) (by decide))
  have hs : M.pairs (if (v.code (k + 1) == 0x2D || v.code (k + 1) == 0x2B) = true then k + 2 else
      k + 1)
      (if (v.code (k + 1) == 0x2D || v.code (k + 1) == 0x2B) = true then l + 2 else l + 1) := by
    split
    · next hc =>
      rw [Bool.or_eq_true] at hc
      exact M.succ h₁ (hc.elim (CodePoint.isAscii_of_beq · (by decide))
        (CodePoint.isAscii_of_beq · (by decide)))
    · exact h₁
  obtain ⟨exponent, a, b, hx, hy, ha⟩ := (M.digits hs 10).eqs
  rw [M.code h₁, hx, hy]
  cases exponent with
  | nil => exact .intro _ ha
  | cons => exact .intro _ ha

theorem radixLiteral (h : M.pairs (i + 2) (j + 2)) (radix : Nat) :
    Matches M.pairs (v.radixLiteral radix i) (w.radixLiteral radix j) := by
  obtain ⟨digits, k, l, hx, hy, hk⟩ := (M.digits h radix).eqs
  rw [View.radixLiteral, View.radixLiteral, hx, hy]
  cases digits with
  | nil => exact .intro _ hk
  | cons => exact .intro _ hk

theorem endNumeral {x y : Option Binary64 × Nat} (h : Matches M.pairs x y) :
    Matches M.pairs (v.endNumeral x) (w.endNumeral y) := by
  obtain ⟨_ | value, h⟩ := h
  · exact .intro _ h
  · simp only [View.endNumeral, M.code h]
    split <;> exact .intro _ h

theorem numeral (h : M.pairs i j) (strict : Bool) :
    Matches M.pairs (v.numeral strict i) (w.numeral strict j) := by
  obtain ⟨digits, k, l, hx, hy, hk⟩ := (M.digits h 10).eqs
  -- A letter after a zero names the radix, and both are stepped over.
  have hr (letter : CodePoint) (hl : 0x20 < letter ∧ letter < 0x80) :
      (w.code j == 0x30 && w.isLetter (j + 1) letter) =
      (v.code i == 0x30 && v.isLetter (i + 1) letter) ∧
        ((v.code i == 0x30 && v.isLetter (i + 1) letter) = true → M.pairs (i + 2) (j + 2)) := by
    rw [M.code h]
    cases hz : v.code i == 0x30 with
    | false => exact ⟨rfl, nofun⟩
    | true =>
      have h₁ := M.succ h (CodePoint.isAscii_of_beq hz (by decide))
      exact ⟨M.isLetter h₁ letter, fun hc => M.succ h₁ (View.isAscii_of_isLetter hc hl)⟩
  simp only [View.numeral, (hr 0x78 (by decide)).1, (hr 0x6F (by decide)).1,
    (hr 0x62 (by decide)).1, hx, hy]
  split
  · next hc => exact M.endNumeral (M.radixLiteral ((hr 0x78 (by decide)).2 hc) 16)
  split
  · next hc => exact M.endNumeral (M.radixLiteral ((hr 0x6F (by decide)).2 hc) 8)
  split
  · next hc => exact M.endNumeral (M.radixLiteral ((hr 0x62 (by decide)).2 hc) 2)
  rw [M.code h]
  split
  · split
    · exact .intro _ hk
    split
    · exact M.endNumeral (.intro _ hk)
    · exact M.endNumeral (M.decimalTail hk digits)
  · exact M.endNumeral (M.decimalTail hk digits)

/-! String literals. -/

theorem octalEscape (h : M.pairs i j) (n value : Nat) :
    Matches M.pairs (v.octalEscape n i value) (w.octalEscape n j value) := by
  induction n generalizing i j value with
  | zero => exact .intro _ h
  | succ n ih =>
    simp only [View.octalEscape, M.code h]
    split
    · next d hd =>
      split
      · exact .intro _ h
      · exact ih (M.succ h (CodePoint.isAscii_of_digit? hd)) _
    · exact .intro _ h

theorem stringUnicodeEscape (h : M.pairs (i + 1) (j + 1)) :
    Matches M.pairs (v.stringUnicodeEscape i) (w.stringUnicodeEscape j) := by
  obtain ⟨decoded, k, l, hx, hy, hk⟩ := (M.unicodeEscape h).eqs
  rw [View.stringUnicodeEscape, View.stringUnicodeEscape, hx, hy]
  cases decoded with
  | none => exact .intro _ hk
  | some high =>
    dsimp only
    rw [Bool.and_assoc, Bool.and_assoc, M.two hk 0x5C 0x75 (by decide)]
    split
    · next hc =>
      rw [Bool.and_eq_true] at hc
      obtain ⟨decoded, a, b, hx, hy, ha⟩ :=
        (M.unicodeEscape (M.succ_two hk hc.2 (by decide) (by decide))).eqs
      rw [hx, hy]
      cases decoded with
      | none => exact .intro _ hk
      | some low =>
        dsimp only
        split
        · exact .intro _ ha
        · exact .intro _ hk
    · exact .intro _ hk

theorem escape (h : M.pairs i j) (hi : i < v.limit) (strict : Bool) :
    Matches M.pairs (v.escape strict i) (w.escape strict j) := by
  simp only [View.escape, M.code h]
  split
  · next c hc => exact .intro _ (M.succ h (View.isAscii_of_letterEscape? hc))
  have hz : (v.code i == 0x30 && !(w.code (j + 1)).isDecimalDigit) =
      (v.code i == 0x30 && !(v.code (i + 1)).isDecimalDigit) := by
    cases hz : v.code i == 0x30 with
    | false => rfl
    | true => rw [M.code (M.succ h (CodePoint.isAscii_of_beq hz (by decide)))]
  rw [hz]
  split
  · next hc =>
    rw [Bool.and_eq_true] at hc
    exact .intro _ (M.succ h (CodePoint.isAscii_of_beq hc.1 (by decide)))
  split
  · next hx =>
    have h₁ := M.succ h (CodePoint.isAscii_of_beq hx (by decide))
    rw [M.code h₁]
    cases hh : (v.code (i + 1)).digit? 16 with
    | none => exact .intro _ h
    | some high =>
      have h₂ := M.succ h₁ (CodePoint.isAscii_of_digit? hh)
      rw [M.code h₂]
      cases hl : (v.code (i + 2)).digit? 16 with
      | none => exact .intro _ h
      | some low => exact .intro _ (M.succ h₂ (CodePoint.isAscii_of_digit? hl))
  split
  · next hu =>
    obtain ⟨decoded, k, l, hx, hy, hk⟩ :=
      (M.stringUnicodeEscape (M.succ h (CodePoint.isAscii_of_beq hu (by decide)))).eqs
    rw [hx, hy]
    cases decoded <;> exact .intro _ hk
  split
  · split
    · exact .intro _ h
    · obtain ⟨value, k, l, hx, hy, hk⟩ := (M.octalEscape h 3 0).eqs
      rw [hx, hy]
      exact .intro _ hk
  split
  · exact .intro _ h
  · exact .intro _ (M.after h hi)

theorem stringFrom {p q : Place} (h : M.Places p q) (hn : v.Enough n p.offset)
    (hm : w.Enough m q.offset) {quote : CodePoint} (hq : quote.IsAscii) (strict : Bool)
    (chars : List Char) :
    Matches M.Places (v.stringFrom quote strict n p chars)
      (w.stringFrom quote strict m q chars) := by
  induction n generalizing p q m chars with
  | zero => exact absurd rfl hn.ne_zero
  | succ n ih =>
    cases m with
    | zero => exact absurd rfl hm.ne_zero
    | succ m =>
      simp only [View.stringFrom, M.isEnd h.offset, M.code h.offset]
      split
      · exact .intro _ h
      next he =>
      have hi := View.lt_limit_of_isEnd (v := v) (i := p.offset) fun he' => he (by simp [he'])
      have hj := M.lt_limit h.offset hi
      split
      · next hc => exact .intro _ (h.move M (M.succ h.offset (CodePoint.isAscii_of_beq hc hq)))
      split
      · exact ih (h.move M (M.after h.offset hi)) (hn.step hi (v.lt_after _))
          (hm.step hj (w.lt_after _)) _
      next hc =>
      have hc : v.code p.offset = 0x5C := by simpa using hc
      have h₁ := h.move M (M.succ h.offset (hc ▸ by decide))
      rw [M.isEnd h₁.offset, M.code h₁.offset]
      split
      · exact .intro _ h₁
      next he' =>
      have hi' := View.lt_limit_of_isEnd he'
      split
      · have hv := Nat.lt_trans (Nat.lt_succ_self _)
          (v.lt_afterLine { p with offset := p.offset + 1 })
        have hw := Nat.lt_trans (Nat.lt_succ_self _)
          (w.lt_afterLine { q with offset := q.offset + 1 })
        exact ih (M.afterLine h₁ hi') (hn.step hi hv) (hm.step hj hw) _
      · obtain ⟨c, k, l, hx, hy, hk⟩ := (M.escape h₁.offset hi' strict).eqs
        have hv := v.le_escape strict (p.offset + 1)
        have hw := w.le_escape strict (q.offset + 1)
        rw [hx] at hv ⊢
        rw [hy] at hw ⊢
        cases c with
        | error fault => exact .intro _ (h.move M hk)
        | ok c => exact ih (h.move M hk) (hn.step hi hv) (hm.step hj hw) _

theorem string {p q : Place} (h : M.Places p q) (hq : (v.code p.offset).IsAscii) (strict : Bool) :
    Matches M.Places (v.string strict p) (w.string strict q) := by
  rw [View.string, View.string, M.code h.offset]
  exact M.stringFrom (h.move M (M.succ h.offset hq)) (.steps_of_le v (Nat.le_succ _))
    (.steps_of_le w (Nat.le_succ _))
    hq strict []

/-! Regular expression literals. -/

theorem regexpBody (h : M.pairs i j) (hn : v.Enough n i) (hm : w.Enough m j) (inClass : Bool)
    (body : List Char) :
    Matches M.pairs (v.regexpBody n i inClass body) (w.regexpBody m j inClass body) := by
  induction n generalizing i j m inClass body with
  | zero => exact absurd rfl hn.ne_zero
  | succ n ih =>
    cases m with
    | zero => exact absurd rfl hm.ne_zero
    | succ m =>
      simp only [View.regexpBody, M.isEnd h, M.code h]
      split
      · exact .intro _ h
      next he =>
      have hi := View.lt_limit_of_isEnd (v := v) (i := i) fun he' => he (by simp [he'])
      have hj := M.lt_limit h hi
      split
      · next hc =>
        rw [Bool.and_eq_true] at hc
        exact .intro _ (M.succ h (CodePoint.isAscii_of_beq hc.1 (by decide)))
      split
      · next hc =>
        have h₁ := M.succ h (CodePoint.isAscii_of_beq hc (by decide))
        rw [M.isEnd h₁, M.code h₁]
        split
        · exact .intro _ h₁
        next he' =>
        have hi' := View.lt_limit_of_isEnd (v := v) (i := i + 1) fun he => he' (by simp [he])
        have hv : i < v.after (i + 1) := Nat.lt_trans (Nat.lt_succ_self i) (v.lt_after _)
        have hw : j < w.after (j + 1) := Nat.lt_trans (Nat.lt_succ_self j) (w.lt_after _)
        exact ih (M.after h₁ hi') (hn.step hi hv) (hm.step hj hw) _ _
      · exact ih (M.after h hi) (hn.step hi (v.lt_after i)) (hm.step hj (w.lt_after j)) _ _

theorem nameCharsFrom (h : M.pairs i j) (hn : v.Enough n i) (hm : w.Enough m j)
    (chars : List Char) :
    Matches M.pairs (v.nameCharsFrom n i chars) (w.nameCharsFrom m j chars) := by
  induction n generalizing i j m chars with
  | zero => exact absurd rfl hn.ne_zero
  | succ n ih =>
    cases m with
    | zero => exact absurd rfl hm.ne_zero
    | succ m =>
      simp only [View.nameCharsFrom, M.code h]
      split
      · next hp =>
        have hi := View.lt_limit (CodePoint.ne_zero_of_isIdentifierPart hp)
        exact ih (M.after h hi) (hn.step hi (v.lt_after i))
          (hm.step (M.lt_limit h hi) (w.lt_after j)) _
      · exact .intro _ h

theorem regexp (h : M.pairs i j) (start : String) :
    Matches M.pairs (v.regexp start i) (w.regexp start j) := by
  obtain ⟨body, k, l, hx, hy, hk⟩ :=
    (M.regexpBody h (.steps v i) (.steps w j) false start.toList.reverse).eqs
  rw [View.regexp, View.regexp, hx, hy]
  cases body with
  | none => exact .intro _ hk
  | some body =>
    obtain ⟨flags, a, b, hx, hy, ha⟩ := (M.nameCharsFrom hk (.steps v k) (.steps w l) []).eqs
    dsimp only
    rw [hx, hy]
    exact .intro _ ha

/-! Tokens. -/

theorem add (h : M.pairs i j) (n : Nat) (hc : ∀ k < n, (v.code (i + k)).IsAscii) :
    M.pairs (i + n) (j + n) := by
  induction n with
  | zero => exact h
  | succ n ih =>
    exact M.succ (ih fun k hk => hc k (Nat.lt_succ_of_lt hk)) (hc n (Nat.lt_succ_self n))

theorem punctuator? (h : M.pairs i j) :
    EcmaFront.punctuator? (w.code (j + 0)).toChar (w.code (j + 1)).toChar (w.code (j + 2)).toChar
        (w.code (j + 3)).toChar =
      EcmaFront.punctuator? (v.code (i + 0)).toChar (v.code (i + 1)).toChar (v.code (i + 2)).toChar
        (v.code (i + 3)).toChar := by
  have h₀ : w.code (j + 0) = v.code (i + 0) := M.code h
  rw [h₀]
  by_cases hc : CodePoint.IsAscii (v.code (i + 0)).toChar.toNat
  · have h₁ := M.succ h (CodePoint.isAscii_of_toChar hc)
    rw [M.code h₁]
    refine punctuator?_congr (fun hc₁ => ?_) fun hc₁ hc₂ => ?_
    · rw [M.code (M.succ h₁ (CodePoint.isAscii_of_toChar hc₁))]
    · have h₂ := M.succ h₁ (CodePoint.isAscii_of_toChar hc₁)
      rw [M.code (M.succ h₂ (CodePoint.isAscii_of_toChar hc₂))]
  · rw [punctuator?_eq_none hc, punctuator?_eq_none hc]

theorem token {p q : Place} (h : M.Places p q) (strict : Bool) :
    Matches M.Places (v.token strict p) (w.token strict q) := by
  have hd : (v.code p.offset == 0x2E && (w.code (q.offset + 1)).isDecimalDigit) =
      (v.code p.offset == 0x2E && (v.code (p.offset + 1)).isDecimalDigit) := by
    cases hc : v.code p.offset == 0x2E with
    | false => rfl
    | true => rw [M.code (M.succ h.offset (CodePoint.isAscii_of_beq hc (by decide)))]
  simp only [View.token, M.isEnd h.offset, M.code h.offset, hd, M.punctuator? h.offset]
  split
  · exact .intro _ h
  split
  · obtain ⟨found, k, l, hx, hy, hk⟩ := (M.word h.offset strict).eqs
    rw [hx, hy]
    exact .intro _ (h.move M hk)
  split
  · obtain ⟨found, k, l, hx, hy, hk⟩ := (M.numeral h.offset strict).eqs
    rw [hx, hy]
    exact .intro _ (h.move M hk)
  split
  · next hc =>
    rw [Bool.or_eq_true] at hc
    exact M.string h (hc.elim (CodePoint.isAscii_of_beq · (by decide))
      (CodePoint.isAscii_of_beq · (by decide))) strict
  split
  · next kind length hc =>
    have hs := @isAscii_of_punctuator? (fun k => (v.code (p.offset + k)).toChar) kind length hc
    exact .intro _ (h.move M (M.add h.offset length fun k hk =>
      CodePoint.isAscii_of_toChar (hs k hk)))
  · exact .intro _ h

/-! Lexers that stand at places that stand for each other. -/

structure Lexers (l m : Lexer) : Prop where
  left : l.view = v
  right : m.view = w
  place : M.Places l.place m.place

/-- The same is read, and the lexers go on at places that stand for each other. -/
structure Readings (x y : Token × Lexer) : Prop where
  agree : (Lexer.sighting x).Agree (Lexer.sighting y)
  extent : M.Extents x.1.extent y.1.extent
  lexers : M.Lexers x.2 y.2

theorem next {l m : Lexer} (h : M.Lexers l m) (strict : Bool) :
    M.Readings (l.next strict) (m.next strict) := by
  obtain ⟨hv, hw, hp⟩ := h
  obtain ⟨hp, hn, hu⟩ := M.trivia hp
  simp only [Lexer.next, hv, hw, hn]
  generalize (v.trivia l.place).unclosed = x at hu ⊢
  generalize (w.trivia m.place).unclosed = y at hu ⊢
  cases hu with
  | some he => exact ⟨⟨rfl, rfl, he.line, rfl, rfl⟩, he, ⟨hv, hw, hp⟩⟩
  | none =>
    obtain ⟨found, p, q, hx, hy, hs⟩ := (M.token hp strict).eqs
    dsimp only
    rw [hx, hy]
    cases found <;>
      exact ⟨⟨rfl, rfl, hp.line, rfl, rfl⟩,
        ⟨hp.line, hp.lineStart, hp.offset, hs.offset⟩, ⟨hv, hw, hs⟩⟩

theorem regexpToken {x y : Token × Lexer} (h : M.Readings x y) (start : String) :
    M.Readings (x.2.regexp x.1 start) (y.2.regexp y.1 start) := by
  obtain ⟨ha, he, ⟨hv, hw, hp⟩⟩ := h
  obtain ⟨found, k, k', hx, hy, hk⟩ := (M.regexp hp.offset start).eqs
  have hx : v.regexp start x.2.standing.offset = (found, k) := hx
  have hy : w.regexp start y.2.standing.offset = (found, k') := hy
  have he : M.Extents { x.1.extent with stop := k } { y.1.extent with stop := k' } :=
    ⟨he.line, he.lineStart, he.start, hk⟩
  simp only [Lexer.regexp, hv, hw, hx, hy]
  cases found <;> exact ⟨⟨rfl, rfl, ha.line, ha.newline, rfl⟩, he, ⟨rfl, rfl, hp.move M hk⟩⟩

theorem read {l m : Lexer} (h : M.Lexers l m) (r : Request) : M.Readings (l.read r) (m.read r) := by
  have hn := M.next h r.strict
  have hk : (m.next r.strict).1.kind = (l.next r.strict).1.kind := hn.agree.kind
  simp only [Lexer.read, hk]
  split
  · exact M.regexpToken hn _
  · exact hn

theorem tokens {l m : Lexer} (h : M.Lexers l m) (requests : List Request) :
    List.Forall₂ (fun t u => t.Agree u ∧ M.Extents t.extent u.extent) (l.tokens requests)
      (m.tokens requests) := by
  induction requests generalizing l m with
  | nil => exact .nil
  | cons r requests ih =>
    have hr := M.read h r
    exact .cons ⟨hr.agree, hr.extent⟩ (ih hr.lexers)

end View.Mirror

end EcmaFront
