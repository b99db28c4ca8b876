import EcmaFront.Proofs.Mirror

/-!
What a lexer passes on its way. Readers of words, numerals and regular expressions step over code
points none of which ends a line; lines end in trivia and where a string goes on in the next line,
and there the line is counted.
-/

set_option autoImplicit false

namespace EcmaFront

namespace CodePoint

abbrev IsGraphic (code : CodePoint) : Prop := 0x20 < code ∧ code < 0x80

theorem IsGraphic.isAscii {code : CodePoint} (h : code.IsGraphic) : code.IsAscii :=
  ⟨Nat.zero_lt_of_lt h.1, h.2⟩

theorem isLineTerminator_iff {code : CodePoint} :
    code.isLineTerminator = true ↔ code = 0x0A ∨ code = 0x0D ∨ code = 0x2028 ∨ code = 0x2029 := by
  simp only [isLineTerminator, Bool.or_eq_true, beq_iff_eq, or_assoc]

theorem IsGraphic.not_isLineTerminator {code : CodePoint} (h : code.IsGraphic) :
    code.isLineTerminator = false := by
  by_contra hc
  rw [Bool.not_eq_false, isLineTerminator_iff] at hc
  obtain rfl | rfl | rfl | rfl := hc <;> exact absurd h (by decide)

theorem isGraphic_of_beq {code c : CodePoint} (h : (code == c) = true) (hc : IsGraphic c) :
    IsGraphic code := by
  rwa [beq_iff_eq.1 h]

theorem isGraphic_of_between {code low high : Nat} (h : low ≤ code ∧ code ≤ high) (hl : 0x20 < low)
    (hh : high < 0x80) : IsGraphic code :=
  ⟨Nat.lt_of_lt_of_le hl h.1, Nat.lt_of_le_of_lt h.2 hh⟩

theorem isGraphic_of_digit? {radix : Nat} {code : CodePoint} {d : Nat}
    (h : digit? radix code = some d) :
    IsGraphic code := by
  simp only [digit?, Option.filter_eq_some_iff, Bool.and_eq_true, decide_eq_true_eq] at h
  obtain ⟨h, -⟩ := h
  split at h
  · next hd => exact isGraphic_of_between hd (by decide) (by decide)
  split at h
  · next hd => exact isGraphic_of_between hd (by decide) (by decide)
  split at h
  · next hd => exact isGraphic_of_between hd (by decide) (by decide)
  · cases h

theorem isGraphic_of_toChar {code : CodePoint} (h : IsGraphic (toChar code).toNat) :
    IsGraphic code := by
  by_cases hv : code.isValidChar
  · rwa [toNat_toChar hv] at h
  · rw [toChar, if_neg hv] at h
    exact absurd h (by decide)

theorem not_isLineTerminator_of_isIdentifierPart {code : CodePoint}
    (h : code.isIdentifierPart = true) :
    code.isLineTerminator = false := by
  by_contra hc
  rw [Bool.not_eq_false, isLineTerminator_iff] at hc
  obtain rfl | rfl | rfl | rfl := hc <;> exact absurd h (by decide +kernel)

end CodePoint

theorem isGraphic_of_punctuator? {char : Nat → Char} {kind : TokenKind} {length : Nat}
    (h : punctuator? (char 0) (char 1) (char 2) (char 3) = some (kind, length)) :
    ∀ k < length, CodePoint.IsGraphic (char k).toNat := by
  unfold punctuator? at h
  split at h
  all_goals
    simp only [Option.some.injEq, doubled, assigning, reduceCtorEq, Bool.and_eq_true, bne_iff_ne,
      decide_eq_true_eq, ne_eq, ite_not] at h
    repeat' split at h
    all_goals
      cases h
      intro k hk
      interval_cases k <;> simp only [*] <;> decide

namespace View

variable {v : View} {o i : Nat}

theorem isGraphic_of_isLetter {letter : CodePoint} (h : v.isLetter i letter = true)
    (hl : 0x40 < letter ∧ letter < 0x80) : (v.code i).IsGraphic := by
  simp only [View.isLetter, Bool.or_eq_true, beq_iff_eq] at h
  obtain h | h := h
  · rw [h]
    exact ⟨Nat.lt_trans (by decide) hl.1, hl.2⟩
  · rw [← h] at hl
    exact ⟨Nat.lt_of_add_lt_add_right (show 0x20 + 0x20 < v.code i + 0x20 from hl.1),
      Nat.lt_of_le_of_lt (Nat.le_add_right _ _) hl.2⟩

theorem isGraphic_of_letterEscape? {code : CodePoint} {c : Char} (h : letterEscape? code = some c) :
    code.IsGraphic := by
  simp only [letterEscape?] at h
  repeat' split at h
  all_goals first | exact CodePoint.isGraphic_of_beq ‹_› (by decide) | cases h

/-- From one offset to another, code points are passed none of which ends a line. -/
inductive Clear (v : View) (o : Nat) : Nat → Prop where
  | here : v.Clear o o
  | after {i : Nat} (h : v.Clear o i) (hi : i < v.limit)
    (hc : (v.code i).isLineTerminator = false) :
    v.Clear o (v.after i)

namespace Clear

theorem succ (h : v.Clear o i) (hc : (v.code i).IsGraphic) : v.Clear o (i + 1) := by
  have ha := h.after (lt_limit (Nat.ne_of_gt hc.isAscii.1)) hc.not_isLineTerminator
  rwa [after_of_isAscii hc.isAscii] at ha

theorem succ_of_beq (h : v.Clear o i) {c : CodePoint} (hc : (v.code i == c) = true)
    (hg : c.IsGraphic) :
    v.Clear o (i + 1) := h.succ (CodePoint.isGraphic_of_beq hc hg)

theorem succ_two (h : v.Clear o i) {a b : CodePoint}
    (hc : (v.code i == a && v.code (i + 1) == b) = true) (ha : a.IsGraphic) (hb : b.IsGraphic) :
    v.Clear o (i + 2) := by
  rw [Bool.and_eq_true] at hc
  exact (h.succ_of_beq hc.1 ha).succ_of_beq hc.2 hb

theorem add (h : v.Clear o i) (n : Nat) (hc : ∀ k < n, (v.code (i + k)).IsGraphic) :
    v.Clear o (i + n) := by
  induction n with
  | zero => exact h
  | succ n ih => exact (ih fun k hk => hc k (Nat.lt_succ_of_lt hk)).succ (hc n (Nat.lt_succ_self n))

theorem part (h : v.Clear o i) (hc : (v.code i).isIdentifierPart = true) : v.Clear o (v.after i) :=
  h.after (lt_limit (CodePoint.ne_zero_of_isIdentifierPart hc))
    (CodePoint.not_isLineTerminator_of_isIdentifierPart hc)

theorem lineCommentEnd (h : v.Clear o i) (n : Nat) : v.Clear o (v.lineCommentEnd n i) := by
  induction n generalizing i with
  | zero => exact h
  | succ n ih =>
    rw [View.lineCommentEnd]
    split
    · exact h
    · next hc =>
      rw [Bool.not_eq_true, Bool.or_eq_false_iff] at hc
      exact ih (h.after (lt_limit_of_isEnd (by simp [hc.1])) hc.2)

/-! Escapes and words. -/

theorem fixedHex (h : v.Clear o i) (n value : Nat) : v.Clear o (v.fixedHex n i value).2 := by
  induction n generalizing i value with
  | zero => exact h
  | succ n ih =>
    rw [View.fixedHex]
    split
    · next d hd => exact ih (h.succ (CodePoint.isGraphic_of_digit? hd)) _
    · exact h

theorem bracedHex (h : v.Clear o i) (n value : Nat) (any : Bool) :
    v.Clear o (v.bracedHex n i value any).2 := by
  induction n generalizing i value any with
  | zero => exact h
  | succ n ih =>
    rw [View.bracedHex]
    split
    · next d hd =>
      split
      · exact h
      · exact ih (h.succ (CodePoint.isGraphic_of_digit? hd)) _ _
    · split
      · next hc => exact h.succ_of_beq (Bool.and_eq_true_iff.1 hc).2 (by decide)
      · exact h

theorem unicodeEscape (h : v.Clear o (i + 1)) : v.Clear o (v.unicodeEscape i).2 := by
  rw [View.unicodeEscape]
  split
  · next hc => exact (h.succ_of_beq hc (by decide)).bracedHex _ _ _
  · exact h.fixedHex _ _

theorem wordFrom (h : v.Clear o i) (strict : Bool) (n : Nat) (name : List Char) (escaped : Bool) :
    v.Clear o (v.wordFrom strict n i name escaped).2 := by
  induction n generalizing i name escaped with
  | zero => exact h
  | succ n ih =>
    simp only [View.wordFrom]
    split
    · next hc =>
      have h₁ := h.succ_of_beq hc (by decide)
      split
      · exact h
      next hu =>
      have hj := (h₁.succ_of_beq (c := 0x75) (by simpa using hu) (by decide)).unicodeEscape
      split
      · next hx =>
        rw [hx] at hj
        generalize (if name.isEmpty then _ else _) = fits
        cases fits
        · exact hj
        · exact ih hj _ _
      · next hx =>
        rw [hx] at hj
        exact hj
    split
    · next hp => exact ih (h.part hp) _ _
    · exact h

/-! Numeric literals. -/

theorem digits (h : v.Clear o i) (radix : Nat) : v.Clear o (v.digits radix i).2 := by
  have rest (n : Nat) (found : List Nat) {i : Nat} (h : v.Clear o i) :
      v.Clear o (v.digitsFrom radix n i found).2 := by
    induction n generalizing i found with
    | zero => exact h
    | succ n ih =>
      rw [View.digitsFrom]
      split
      · next d hd => exact ih _ (h.succ (CodePoint.isGraphic_of_digit? hd))
      · exact h
  simp only [View.digits]
  exact rest _ _ h

theorem decimalTail (h : v.Clear o i) (whole : List Nat) : v.Clear o (v.decimalTail whole i).2 := by
  have hf : v.Clear o (if v.code i == 0x2E then v.digits 10 (i + 1) else ([], i)).2 := by
    split
    · next hc => exact (h.succ_of_beq hc (by decide)).digits 10
    · exact h
  simp only [View.decimalTail]
  generalize (if v.code i == 0x2E then v.digits 10 (i + 1) else ([], i)) = x at hf ⊢
  obtain ⟨fraction, k⟩ := x
  dsimp only at hf ⊢
  split
  · exact hf
  next he =>
  have h₁ : v.Clear o (k + 1) := hf.succ (isGraphic_of_isLetter (by simpa using he) (by decide))
  have hs : v.Clear o (if (v.code (k + 1) == 0x2D || v.code (k + 1) == 0x2B) = true then k + 2
      else k + 1) := by
    split
    · next hc =>
      rw [Bool.or_eq_true] at hc
      exact hc.elim (h₁.succ_of_beq · (by decide)) (h₁.succ_of_beq · (by decide))
    · exact h₁
  have hd := hs.digits 10
  split
  · next hx => rwa [hx] at hd
  · next hx => rwa [hx] at hd

theorem radixLiteral (h : v.Clear o (i + 2)) (radix : Nat) :
    v.Clear o (v.radixLiteral radix i).2 := by
  have hd := h.digits radix
  rw [View.radixLiteral]
  split
  · next hx => rwa [hx] at hd
  · next hx => rwa [hx] at hd

theorem endNumeral {x : Option Binary64 × Nat} (h : v.Clear o x.2) :
    v.Clear o (v.endNumeral x).2 := by
  obtain ⟨_ | value, j⟩ := x
  · exact h
  · simp only [View.endNumeral]
    split <;> exact h

theorem numeral (h : v.Clear o i) (strict : Bool) : v.Clear o (v.numeral strict i).2 := by
  have hr {letter : CodePoint} (hc : (v.code i == 0x30 && v.isLetter (i + 1) letter) = true)
      (hl : 0x40 < letter ∧ letter < 0x80) : v.Clear o (i + 2) := by
    rw [Bool.and_eq_true] at hc
    exact (h.succ_of_beq hc.1 (by decide)).succ (isGraphic_of_isLetter hc.2 hl)
  have hd := h.digits 10
  simp only [View.numeral]
  split
  · next hc => exact ((hr hc (by decide)).radixLiteral 16).endNumeral
  split
  · next hc => exact ((hr hc (by decide)).radixLiteral 8).endNumeral
  split
  · next hc => exact ((hr hc (by decide)).radixLiteral 2).endNumeral
  split
  · split
    · exact hd
    split
    · exact endNumeral (x := (_, _)) hd
    · exact (hd.decimalTail _).endNumeral
  · exact (hd.decimalTail _).endNumeral

/-! Escapes in string literals. -/

theorem octalEscape (h : v.Clear o i) (n value : Nat) : v.Clear o (v.octalEscape n i value).2 := by
  induction n generalizing i value with
  | zero => exact h
  | succ n ih =>
    rw [View.octalEscape]
    split
    · next d hd =>
      split
      · exact h
      · exact ih (h.succ (CodePoint.isGraphic_of_digit? hd)) _
    · exact h

theorem stringUnicodeEscape (h : v.Clear o (i + 1)) : v.Clear o (v.stringUnicodeEscape i).2 := by
  have hu := h.unicodeEscape
  rw [View.stringUnicodeEscape]
  split
  · next hx => rwa [hx] at hu
  next code j hx =>
  rw [hx] at hu
  split
  · next hc =>
    simp only [Bool.and_eq_true] at hc
    have hl := ((hu.succ_of_beq hc.1.2 (by decide)).succ_of_beq hc.2 (by decide)).unicodeEscape
    split
    · next hy =>
      rw [hy] at hl
      split
      · exact hl
      · exact hu
    · exact hu
  · exact hu

theorem escape (h : v.Clear o i) (hi : i < v.limit) (hc : (v.code i).isLineTerminator = false)
    (strict : Bool) :
    v.Clear o (v.escape strict i).2 := by
  simp only [View.escape]
  split
  · next hl => exact h.succ (isGraphic_of_letterEscape? hl)
  split
  · next hz => exact h.succ_of_beq (Bool.and_eq_true_iff.1 hz).1 (by decide)
  split
  · next hx =>
    split
    · next hh hl =>
      exact ((h.succ_of_beq hx (by decide)).succ (CodePoint.isGraphic_of_digit? hh)).succ
        (CodePoint.isGraphic_of_digit? hl)
    · exact h
  split
  · next hu =>
    have hs := (h.succ_of_beq hu (by decide)).stringUnicodeEscape
    split
    · next hx => rwa [hx] at hs
    · next hx => rwa [hx] at hs
  split
  · split
    · exact h
    · exact h.octalEscape 3 0
  split
  · exact h
  · exact h.after hi hc

/-! Regular expression literals. -/

theorem regexpBody (h : v.Clear o i) (n : Nat) (inClass : Bool) (body : List Char) :
    v.Clear o (v.regexpBody n i inClass body).2 := by
  induction n generalizing i inClass body with
  | zero => exact h
  | succ n ih =>
    have step {j : Nat} (hj : v.Clear o j)
        (hc : ¬(v.isEnd j || (v.code j).isLineTerminator) = true) :
        v.Clear o (v.after j) := by
      rw [Bool.not_eq_true, Bool.or_eq_false_iff] at hc
      exact hj.after (lt_limit_of_isEnd (by simp [hc.1])) hc.2
    simp only [View.regexpBody]
    split
    · exact h
    next he =>
    split
    · next hc => exact h.succ_of_beq (Bool.and_eq_true_iff.1 hc).1 (by decide)
    split
    · next hc =>
      have h₁ := h.succ_of_beq hc (by decide)
      split
      · exact h₁
      · next he' => exact ih (step h₁ he') _ _
    · exact ih (step h he) _ _

theorem regexp (h : v.Clear o i) (start : String) : v.Clear o (v.regexp start i).2 := by
  have names (n : Nat) (chars : List Char) {i : Nat} (h : v.Clear o i) :
      v.Clear o (v.nameCharsFrom n i chars).2 := by
    induction n generalizing i chars with
    | zero => exact h
    | succ n ih =>
      rw [View.nameCharsFrom]
      split
      · next hp => exact ih _ (h.part hp)
      · exact h
  have hb := h.regexpBody (v.steps i) false start.toList.reverse
  rw [View.regexp]
  split
  · next hx => rwa [hx] at hb
  · next hx =>
    rw [hx] at hb
    exact names _ _ hb

end Clear

/-- Places that are come to one after another from `p` on, each line counted where it ends; and
whether one has ended. -/
inductive Passes (v : View) (p : Place) : Place → Bool → Prop where
  | here : v.Passes p p false
  | along {q : Place} {newline : Bool} {i : Nat} (h : v.Passes p q newline)
    (hc : v.Clear q.offset i) :
    v.Passes p { q with offset := i } newline
  | line {q : Place} {newline : Bool} (h : v.Passes p q newline) (hq : q.offset < v.limit)
    (hc : (v.code q.offset).isLineTerminator = true) : v.Passes p (v.afterLine q) true

namespace Passes

variable {p q : Place} {newline : Bool}

theorem blockComment (h : v.Passes p q newline) (n : Nat) :
    v.Passes p (v.blockComment n q newline).place (v.blockComment n q newline).newline := by
  induction n generalizing q newline with
  | zero => exact h
  | succ n ih =>
    rw [View.blockComment]
    split
    · exact h
    next he =>
    have hq := lt_limit_of_isEnd he
    split
    · next hc => exact h.along (Clear.here.succ_two hc (by decide) (by decide))
    split
    · next hc => exact ih (h.line hq hc)
    · next hc => exact ih (h.along (.after .here hq (by simpa using hc)))

theorem triviaFrom (h : v.Passes p q newline) (n : Nat) :
    v.Passes p (v.triviaFrom n q newline).place (v.triviaFrom n q newline).newline := by
  induction n generalizing q newline with
  | zero => exact h
  | succ n ih =>
    simp only [View.triviaFrom]
    split
    · exact h
    next he =>
    have hq := lt_limit_of_isEnd he
    split
    · next hc => exact ih (h.line hq hc)
    next hc =>
    split
    · exact ih (h.along (.after .here hq (by simpa using hc)))
    split
    · exact ih (h.along (Clear.here.lineCommentEnd _))
    split
    · next hs =>
      have hb := (h.along (Clear.here.succ_two hs (by decide) (by decide))).blockComment
        (v.steps q.offset)
      split
      · exact ih hb
      · exact hb
    · exact h

theorem trivia (v : View) (p : Place) : v.Passes p (v.trivia p).place (v.trivia p).newline :=
  Passes.here.triviaFrom _

theorem stringFrom (h : v.Passes p q newline) {quote : CodePoint} (hq : quote.IsGraphic)
    (strict : Bool) (n : Nat) (chars : List Char) :
    ∃ newline, v.Passes p (v.stringFrom quote strict n q chars).2 newline := by
  induction n generalizing q newline chars with
  | zero => exact ⟨_, h⟩
  | succ n ih =>
    simp only [View.stringFrom]
    split
    · exact ⟨_, h⟩
    next he =>
    rw [Bool.not_eq_true, Bool.or_eq_false_iff] at he
    split
    · next hc => exact ⟨_, h.along (Clear.here.succ_of_beq hc hq)⟩
    split
    · exact ih (h.along (.after .here (lt_limit_of_isEnd (by simp [he.1])) he.2)) _
    next hc =>
    have h₁ := h.along (Clear.here.succ_of_beq (c := 0x5C) (by simpa using hc) (by decide))
    split
    · exact ⟨_, h₁⟩
    next he' =>
    have hi := lt_limit_of_isEnd he'
    split
    · next hl => exact ih (h₁.line hi hl) _
    · next hl =>
      have hx := Clear.here.escape hi (by simpa using hl) strict
      split
      · next hy =>
        rw [hy] at hx
        exact ih (h₁.along hx) _
      · next hy =>
        rw [hy] at hx
        exact ⟨_, h₁.along hx⟩

theorem token (h : v.Passes p q newline) (strict : Bool) :
    ∃ newline, v.Passes p (v.token strict q).2 newline := by
  simp only [View.token]
  split
  · exact ⟨_, h⟩
  split
  · exact ⟨_, h.along (Clear.here.wordFrom strict _ _ _)⟩
  split
  · exact ⟨_, h.along (Clear.here.numeral strict)⟩
  split
  · next hc =>
    have hq : (v.code q.offset).IsGraphic := by
      rw [Bool.or_eq_true] at hc
      exact hc.elim (CodePoint.isGraphic_of_beq · (by decide))
        (CodePoint.isGraphic_of_beq · (by decide))
    exact (h.along (Clear.here.succ hq)).stringFrom hq strict _ _
  split
  · next kind length hc =>
    have hs := @isGraphic_of_punctuator? (fun k => (v.code (q.offset + k)).toChar) kind length hc
    exact ⟨_, h.along (Clear.here.add length fun k hk => CodePoint.isGraphic_of_toChar (hs k hk))⟩
  · exact ⟨_, h⟩

end Passes

end View

def Token.place (t : Token) : Place := ⟨t.extent.start, t.extent.line, t.extent.lineStart⟩

namespace Lexer

theorem next_passes (l : Lexer) (strict : Bool) :
    (∃ newline, l.view.Passes l.place (l.next strict).2.place newline) ∧
      (l.next strict).2.standing.lastStop = l.standing.offset ∧
      ((l.next strict).2.fault ≠ some .unterminatedComment →
        l.view.Passes l.place (l.next strict).1.place (l.next strict).2.standing.newline) := by
  have ht := View.Passes.trivia l.view l.place
  simp only [next]
  split
  · exact ⟨⟨_, ht⟩, rfl, absurd rfl⟩
  · obtain ⟨newline, hs⟩ := ht.token strict
    split <;> exact ⟨⟨newline, hs⟩, rfl, fun _ => ht⟩

theorem fault_next_of_isSolid {l : Lexer} {strict : Bool}
    (hs : (l.next strict).1.kind.isSolid = true) :
    (l.next strict).2.fault = none := by
  simp only [next] at hs ⊢
  split
  · next hu =>
    rw [hu] at hs
    cases hs
  · next hu =>
    simp only [hu] at hs
    split
    · rfl
    · next fault hx =>
      simp only [hx, TokenKind.isSolid_of_isError fault.kind_isError] at hs
      cases hs

theorem regexp_passes (l : Lexer) (t : Token) (start : String) :
    l.view.Passes l.place (l.regexp t start).2.place false ∧ (l.regexp t start).1.place = t.place ∧
      (l.regexp t start).2.standing.newline = l.standing.newline ∧
      (l.regexp t start).2.standing.lastStop = l.standing.lastStop := by
  have hp := View.Passes.along (v := l.view) (p := l.place) .here (View.Clear.here.regexp start)
  simp only [regexp]
  split <;> exact ⟨hp, rfl, rfl, rfl⟩

end Lexer

end EcmaFront
