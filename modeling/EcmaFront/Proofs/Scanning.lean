import EcmaFront.Lexer.Basic
import Mathlib.Tactic.Common

/-!
How far the lexer comes with a token, and what the mode of the code has to do with it. Trivia is
only ever skipped forwards, a token that stands for something takes at least one unit, and strict
code reads what sloppy code reads there, apart from its reserved words, or nothing.
-/

set_option autoImplicit false

namespace EcmaFront

/-- A token that stands for something: neither the end of the view nor a failure of the lexer. -/
def TokenKind.isSolid (kind : TokenKind) : Bool := kind != .eof && !kind.isError

namespace View

variable (v : View)

theorem lt_afterLine (p : Place) : p.offset < (v.afterLine p).offset := by
  have := v.lt_after p.offset
  simp only [afterLine]
  split <;> omega

theorem le_lineCommentEnd (n i : Nat) : i ≤ v.lineCommentEnd n i := by
  induction n generalizing i with
  | zero => exact Nat.le_refl i
  | succ n ih =>
    rw [lineCommentEnd]
    split
    · exact Nat.le_refl i
    · exact Nat.le_trans (Nat.le_of_lt (v.lt_after i)) (ih _)

theorem lt_lineCommentEnd {i : Nat} (h : ¬(v.isEnd i || (v.code i).isLineTerminator) = true) :
    i < v.lineCommentEnd (v.steps i) i := by
  rw [steps, lineCommentEnd, if_neg h]
  exact Nat.lt_of_lt_of_le (v.lt_after i) (v.le_lineCommentEnd _ _)

theorem le_blockComment (n : Nat) (p : Place) (newline : Bool) :
    p.offset ≤ (v.blockComment n p newline).place.offset := by
  induction n generalizing p newline with
  | zero => exact Nat.le_refl _
  | succ n ih =>
    rw [blockComment]
    split
    · exact Nat.le_refl _
    split
    · exact Nat.le_add_right _ 2
    split
    · exact Nat.le_trans (Nat.le_of_lt (v.lt_afterLine p)) (ih _ _)
    · exact Nat.le_trans (Nat.le_of_lt (v.lt_after p.offset))
        (ih { p with offset := v.after p.offset } newline)

theorem triviaFrom_forward (n : Nat) (p : Place) (newline : Bool) :
    p.offset ≤ (v.triviaFrom n p newline).place.offset ∧
      ∀ extent ∈ (v.triviaFrom n p newline).unclosed, p.offset ≤ extent.start ∧
      extent.start < v.limit ∧
        extent.start < extent.stop ∧ extent.stop = (v.triviaFrom n p newline).place.offset := by
  induction n generalizing p newline with
  | zero => exact ⟨Nat.le_refl _, nofun⟩
  | succ n ih =>
    have step {q : Place} {newline' : Bool} (h : p.offset ≤ q.offset) :
        p.offset ≤ (v.triviaFrom n q newline').place.offset ∧
          ∀ extent ∈ (v.triviaFrom n q newline').unclosed, p.offset ≤ extent.start ∧
          extent.start < v.limit ∧
            extent.start < extent.stop ∧
            extent.stop = (v.triviaFrom n q newline').place.offset := by
      obtain ⟨hp, hu⟩ := ih q newline'
      exact ⟨Nat.le_trans h hp, fun e he => ⟨Nat.le_trans h (hu e he).1, (hu e he).2⟩⟩
    have hb := v.le_blockComment (v.steps p.offset) { p with offset := p.offset + 2 } newline
    simp only at hb
    rw [triviaFrom]
    split
    · exact ⟨Nat.le_refl _, nofun⟩
    next he =>
    split
    · exact step (Nat.le_of_lt (v.lt_afterLine p))
    split
    · exact step (Nat.le_of_lt (v.lt_after p.offset))
    split
    · exact step (v.le_lineCommentEnd _ _)
    split
    · dsimp only
      split
      · exact step (by omega)
      · refine ⟨by simp only; omega, fun e h => ?_⟩
        cases h
        exact ⟨Nat.le_refl _, by simpa [isEnd] using he, by simp only; omega, rfl⟩
    · exact ⟨Nat.le_refl _, nofun⟩

theorem trivia_of_isEnd {p : Place} (h : v.isEnd p.offset = true) :
    v.trivia p = ⟨p, false, none⟩ := by
  rw [trivia, steps, triviaFrom]
  simp only [h, if_true]

/-! Characters of a token. -/

theorem le_fixedHex (n i value : Nat) : i ≤ (v.fixedHex n i value).2 := by
  induction n generalizing i value with
  | zero => exact Nat.le_refl i
  | succ n ih =>
    rw [fixedHex]
    split
    · exact Nat.le_trans (Nat.le_succ i) (ih _ _)
    · exact Nat.le_refl i

theorem le_bracedHex (n i value : Nat) (any : Bool) : i ≤ (v.bracedHex n i value any).2 := by
  induction n generalizing i value any with
  | zero => exact Nat.le_refl i
  | succ n ih =>
    rw [bracedHex]
    split
    · split
      · exact Nat.le_refl i
      · exact Nat.le_trans (Nat.le_succ i) (ih _ _ _)
    · split
      · exact Nat.le_succ i
      · exact Nat.le_refl i

theorem lt_unicodeEscape (i : Nat) : i < (v.unicodeEscape i).2 := by
  rw [unicodeEscape]
  split
  · exact Nat.lt_of_lt_of_le (by omega) (v.le_bracedHex _ (i + 2) _ _)
  · exact v.le_fixedHex 4 (i + 1) 0

theorem le_wordFrom (strict : Bool) (n i : Nat) (name : List Char) (escaped : Bool) :
    i ≤ (v.wordFrom strict n i name escaped).2 := by
  induction n generalizing i name escaped with
  | zero => exact Nat.le_refl i
  | succ n ih =>
    have hu := v.lt_unicodeEscape (i + 1)
    have ha := v.lt_after i
    simp only [wordFrom]
    split
    · split
      · exact Nat.le_refl i
      split
      · next decoded j hj =>
        rw [hj] at hu
        simp only at hu
        have hj' : i ≤ j := by omega
        generalize (if name.isEmpty then decoded.isIdentifierStart else decoded.isIdentifierPart) =
          fits
        cases fits
        · exact hj'
        · exact Nat.le_trans hj' (ih j _ _)
      · next j hj =>
        rw [hj] at hu
        show i ≤ j
        simp only at hu
        omega
    split
    · exact Nat.le_trans (Nat.le_of_lt ha) (ih _ _ _)
    · exact Nat.le_refl i

theorem lt_word {strict : Bool} {i : Nat} {found : TokenKind × TokenValue}
    (hs : ((v.code i).isIdentifierStart || v.code i == 0x5C) = true)
    (h : (v.word strict i).1 = .ok found) :
    i < (v.word strict i).2 := by
  have hu := v.lt_unicodeEscape (i + 1)
  simp only [word, steps, wordFrom] at h ⊢
  split at h
  · next hc =>
    rw [if_pos hc]
    split at h
    · cases h
    next hn =>
    rw [if_neg hn]
    split at h
    · next decoded j hj =>
      rw [hj] at hu
      have hj' : i < j := Nat.lt_trans (Nat.lt_succ_self i) hu
      generalize (if ([] : List Char).isEmpty then decoded.isIdentifierStart else
        decoded.isIdentifierPart) =
        fits at h ⊢
      cases fits
      · cases h
      · exact Nat.lt_of_lt_of_le hj' (v.le_wordFrom _ _ j _ _)
    · cases h
  · next hc =>
    have hp : (v.code i).isIdentifierPart = true := by
      rw [Bool.or_eq_true] at hs
      exact CodePoint.isIdentifierPart_of_start (hs.resolve_right hc)
    rw [if_neg hc, if_pos hp]
    exact Nat.lt_of_lt_of_le (v.lt_after i) (v.le_wordFrom _ _ _ _ _)

theorem le_digitsFrom (radix n i : Nat) (digits : List Nat) :
    i ≤ (v.digitsFrom radix n i digits).2 := by
  induction n generalizing i digits with
  | zero => exact Nat.le_refl i
  | succ n ih =>
    rw [digitsFrom]
    split
    · exact Nat.le_trans (Nat.le_succ i) (ih _ _)
    · exact Nat.le_refl i

theorem le_digits (radix i : Nat) : i ≤ (v.digits radix i).2 :=
  v.le_digitsFrom radix (v.steps i) i []

theorem lt_digits {radix i : Nat} (h : ((v.code i).digit? radix).isSome = true) :
    i < (v.digits radix i).2 := by
  obtain ⟨d, hd⟩ := Option.isSome_iff_exists.1 h
  simp only [digits, steps, digitsFrom, hd]
  exact v.le_digitsFrom radix _ (i + 1) _

theorem le_decimalTail (whole : List Nat) (i : Nat) :
    i ≤ (v.decimalTail whole i).2 ∧
    (v.code i = 0x2E → (v.digits 10 (i + 1)).2 ≤ (v.decimalTail whole i).2) := by
  have hf : i ≤ (if v.code i == 0x2E then v.digits 10 (i + 1) else ([], i)).2 ∧
      (v.code i = 0x2E →
        (v.digits 10 (i + 1)).2 ≤
        (if v.code i == 0x2E then v.digits 10 (i + 1) else ([], i)).2) := by
    have := v.le_digits 10 (i + 1)
    by_cases hc : v.code i = 0x2E
    · simp only [hc, beq_self_eq_true, if_true]; omega
    · simp [hc]
  rw [decimalTail]
  generalize (if v.code i == 0x2E then v.digits 10 (i + 1) else ([], i)) = x at hf ⊢
  obtain ⟨fraction, j⟩ := x
  dsimp only at hf ⊢
  split
  · exact hf
  · have hd := v.le_digits 10
      (if (v.code (j + 1) == 0x2D || v.code (j + 1) == 0x2B) = true then j + 2 else j + 1)
    have hj : j + 1 ≤ (if (v.code (j + 1) == 0x2D || v.code (j + 1) == 0x2B) = true then j + 2
        else j + 1) := by
      split <;> omega
    generalize v.digits 10 _ = y at hd ⊢
    obtain ⟨exponent, k⟩ := y
    dsimp only at hd
    have hk : j ≤ k := by omega
    split <;> (next he => cases he; exact ⟨Nat.le_trans hf.1 hk,
      fun hc => Nat.le_trans (hf.2 hc) hk⟩)

@[simp] theorem endNumeral_stop (x : Option Binary64 × Nat) : (v.endNumeral x).2 = x.2 := by
  obtain ⟨_ | value, i⟩ := x
  · rfl
  · rw [endNumeral]
    dsimp only
    split <;> rfl

theorem le_radixLiteral (radix i : Nat) : i + 2 ≤ (v.radixLiteral radix i).2 := by
  have hd := v.le_digits radix (i + 2)
  rw [radixLiteral]
  generalize v.digits radix (i + 2) = x at hd ⊢
  obtain ⟨digits, j⟩ := x
  cases digits <;> exact hd

theorem lt_radixLiteral (radix i : Nat) : i < (v.radixLiteral radix i).2 :=
  Nat.lt_of_succ_lt (v.le_radixLiteral radix i)

theorem digit?_of_isDecimalDigit {code : Nat} (h : CodePoint.isDecimalDigit code = true) :
    (CodePoint.digit? 10 code).isSome = true := by
  have hv : code - 0x30 < 10 := by
    simp only [CodePoint.isDecimalDigit, Bool.and_eq_true, decide_eq_true_eq] at h
    exact Nat.lt_of_le_of_lt (Nat.sub_le_sub_right h.2 0x30) (by decide)
  rw [CodePoint.isDecimalDigit] at h
  simp only [CodePoint.digit?, h, if_true, Option.filter_some, hv, decide_true, Option.isSome_some]

theorem lt_numeral (strict : Bool) {i : Nat}
    (hs : ((v.code i).isDecimalDigit || (v.code i == 0x2E && (v.code (i + 1)).isDecimalDigit)) =
      true) :
    i < (v.numeral strict i).2 := by
  have hd : i ≤ (v.digits 10 i).2 := v.le_digits 10 i
  have hc : i < (v.digits 10 i).2 ∨ v.code i = 0x2E := by
    rw [Bool.or_eq_true, Bool.and_eq_true, beq_iff_eq] at hs
    exact hs.imp (fun hs => v.lt_digits (digit?_of_isDecimalDigit hs)) And.left
  have ht (whole : List Nat) : i < (v.decimalTail whole (v.digits 10 i).2).2 := by
    obtain ⟨hl, hp⟩ := v.le_decimalTail whole (v.digits 10 i).2
    obtain hc | hc := hc
    · exact Nat.lt_of_lt_of_le hc hl
    · obtain he | hl' := Nat.eq_or_lt_of_le hd
      · exact Nat.lt_of_lt_of_le (Nat.lt_of_le_of_lt hd (v.le_digits 10 _)) (hp (he ▸ hc))
      · exact Nat.lt_of_lt_of_le hl' hl
  simp only [numeral]
  split
  · simpa using v.lt_radixLiteral 16 i
  split
  · simpa using v.lt_radixLiteral 8 i
  split
  · simpa using v.lt_radixLiteral 2 i
  split
  · next hz =>
    have hl : i < (v.digits 10 i).2 := by
      refine hc.resolve_right fun hc => ?_
      simp [hc] at hz
    split
    · exact hl
    split
    · simpa using hl
    · simpa using ht _
  · simpa using ht _

theorem le_octalEscape (n i value : Nat) : i ≤ (v.octalEscape n i value).2 := by
  induction n generalizing i value with
  | zero => exact Nat.le_refl i
  | succ n ih =>
    rw [octalEscape]
    split
    · split
      · exact Nat.le_refl i
      · exact Nat.le_trans (Nat.le_succ i) (ih _ _)
    · exact Nat.le_refl i

theorem lt_stringUnicodeEscape (i : Nat) : i < (v.stringUnicodeEscape i).2 := by
  have hu := v.lt_unicodeEscape i
  rw [stringUnicodeEscape]
  generalize v.unicodeEscape i = x at hu ⊢
  obtain ⟨_ | code, j⟩ := x
  · exact hu
  · have hl := v.lt_unicodeEscape (j + 1)
    dsimp only at hu ⊢
    split
    · generalize v.unicodeEscape (j + 1) = y at hl ⊢
      obtain ⟨_ | low, k⟩ := y
      · exact hu
      · dsimp only at hl ⊢
        split <;> simp only <;> omega
    · exact hu

theorem le_escape (strict : Bool) (i : Nat) : i ≤ (v.escape strict i).2 := by
  have hu := Nat.le_of_lt (v.lt_stringUnicodeEscape i)
  have ho := v.le_octalEscape 3 i 0
  have ha := v.lt_after i
  simp only [escape]
  split
  · exact Nat.le_succ i
  split
  · exact Nat.le_succ i
  split
  · split
    · exact Nat.le_add_right i 3
    · exact Nat.le_refl i
  split
  · split
    · next hx => rwa [hx] at hu
    · next hx => rwa [hx] at hu
  split
  · split
    · exact Nat.le_refl i
    · exact ho
  split
  · exact Nat.le_refl i
  · exact Nat.le_of_lt ha

theorem le_stringFrom (quote : CodePoint) (strict : Bool) (n : Nat) (p : Place)
    (chars : List Char) :
    p.offset ≤ (v.stringFrom quote strict n p chars).2.offset := by
  induction n generalizing p chars with
  | zero => exact Nat.le_refl _
  | succ n ih =>
    have he := v.le_escape strict (p.offset + 1)
    simp only [stringFrom]
    split
    · exact Nat.le_refl _
    split
    · exact Nat.le_succ _
    split
    · exact Nat.le_trans (Nat.le_of_lt (v.lt_after p.offset))
        (ih { p with offset := v.after p.offset } _)
    split
    · exact Nat.le_succ _
    split
    · have hl := v.lt_afterLine { p with offset := p.offset + 1 }
      exact Nat.le_trans (Nat.le_trans (Nat.le_succ _) (Nat.le_of_lt hl)) (ih _ _)
    · generalize v.escape strict (p.offset + 1) = x at he ⊢
      obtain ⟨_ | c, j⟩ := x
      · exact Nat.le_trans (Nat.le_succ _) he
      · exact Nat.le_trans (Nat.le_trans (Nat.le_succ _) he) (ih { p with offset := j } _)

theorem lt_string (strict : Bool) (p : Place) : p.offset < (v.string strict p).2.offset :=
  v.le_stringFrom (v.code p.offset) strict (v.steps p.offset) { p with offset := p.offset + 1 } []

theorem punctuator?_solid {c₀ c₁ c₂ c₃ : Char} {kind : TokenKind} {length : Nat}
    (h : punctuator? c₀ c₁ c₂ c₃ = some (kind, length)) : 0 < length ∧ kind.isSolid = true := by
  unfold punctuator? at h
  split at h
  all_goals
    simp only [Option.some.injEq, doubled, assigning, reduceCtorEq] at h
    repeat' split at h
    all_goals
      cases h
      decide

theorem le_regexpBody (n i : Nat) (inClass : Bool) (body : List Char) :
    i ≤ (v.regexpBody n i inClass body).2 := by
  induction n generalizing i inClass body with
  | zero => exact Nat.le_refl i
  | succ n ih =>
    simp only [regexpBody]
    split
    · exact Nat.le_refl i
    split
    · exact Nat.le_succ i
    split
    · split
      · exact Nat.le_succ i
      · exact Nat.le_trans (Nat.le_trans (Nat.le_succ i) (Nat.le_of_lt (v.lt_after (i + 1))))
          (ih _ _ _)
    · exact Nat.le_trans (Nat.le_of_lt (v.lt_after i)) (ih _ _ _)

theorem le_nameCharsFrom (n i : Nat) (chars : List Char) : i ≤ (v.nameCharsFrom n i chars).2 := by
  induction n generalizing i chars with
  | zero => exact Nat.le_refl i
  | succ n ih =>
    rw [nameCharsFrom]
    split
    · exact Nat.le_trans (Nat.le_of_lt (v.lt_after i)) (ih _ _)
    · exact Nat.le_refl i

theorem le_regexp (start : String) (i : Nat) : i ≤ (v.regexp start i).2 := by
  have hb := v.le_regexpBody (v.steps i) i false start.toList.reverse
  rw [regexp]
  generalize v.regexpBody _ _ _ _ = x at hb ⊢
  obtain ⟨_ | body, j⟩ := x
  · exact hb
  · exact Nat.le_trans hb (v.le_nameCharsFrom (v.steps j) j [])

/-! Kinds of tokens. -/

theorem ofWord?_solid {word : String} {kind : TokenKind} (h : TokenKind.ofWord? word = some kind) :
    kind.isSolid = true := by
  unfold TokenKind.ofWord? at h
  split at h
  all_goals cases h
  all_goals decide

theorem wordKind_solid {strict escaped : Bool} {name : String} {kind : TokenKind}
    (h : wordKind strict escaped name = .ok kind) : kind.isSolid = true := by
  unfold wordKind at h
  split at h
  · cases h
    decide
  · next hw =>
    split at h
    · cases h
    · split at h
      · cases h
        decide
      · cases h
        exact ofWord?_solid hw

theorem wordFrom_ok {strict : Bool} {n i : Nat} {name : List Char} {escaped : Bool}
    {kind : TokenKind} {value : TokenValue}
    (h : (v.wordFrom strict n i name escaped).1 = .ok (kind, value)) :
    ∃ escaped name, wordKind strict escaped name = .ok kind ∧ value = .text name := by
  induction n generalizing i name escaped with
  | zero => cases h
  | succ n ih =>
    simp only [wordFrom] at h
    split at h
    · split at h
      · cases h
      split at h
      · next decoded j hj =>
        generalize (if name.isEmpty then decoded.isIdentifierStart else decoded.isIdentifierPart) =
          fits at h
        cases fits
        · cases h
        · exact ih h
      · cases h
    split at h
    · exact ih h
    · refine ⟨escaped, String.ofList name.reverse, ?_⟩
      generalize wordKind strict escaped (String.ofList name.reverse) = x at h ⊢
      cases x <;> cases h
      exact ⟨rfl, rfl⟩

theorem numeral_ok {strict : Bool} {i : Nat} {found : TokenKind × TokenValue}
    (h : (v.numeral strict i).1 = .ok found) : found.1 = .number := by
  have he (x : Option Binary64 × Nat) (h : (v.endNumeral x).1 = .ok found) : found.1 = .number := by
    obtain ⟨_ | value, j⟩ := x
    · cases h
    · simp only [endNumeral] at h
      split at h <;> cases h
      rfl
  simp only [numeral] at h
  repeat' split at h
  all_goals first | exact he _ h | cases h

theorem stringFrom_ok {quote : CodePoint} {strict : Bool} {n : Nat} {p : Place} {chars : List Char}
    {found : TokenKind × TokenValue} (h : (v.stringFrom quote strict n p chars).1 = .ok found) :
    found.1 = .string := by
  induction n generalizing p chars with
  | zero => cases h
  | succ n ih =>
    simp only [stringFrom] at h
    repeat' split at h
    all_goals first | exact ih h | cases h
    rfl

/-- At the end of the view there is nothing else; before it a token stands for something and takes
at least one unit, if it is no failure. -/
theorem token_cases (strict : Bool) (p : Place) :
    v.limit ≤ p.offset ∧ v.token strict p = (.ok (.eof, .none), p) ∨
      p.offset < v.limit ∧ p.offset ≤ (v.token strict p).2.offset ∧
        ∀ found, (v.token strict p).1 = .ok found →
          found.1.isSolid = true ∧ p.offset < (v.token strict p).2.offset := by
  simp only [token]
  split
  · next he => exact .inl ⟨by simpa [isEnd] using he, rfl⟩
  next he =>
  refine .inr ⟨by simpa [isEnd] using he, ?_⟩
  split
  · next hs =>
    refine ⟨v.le_wordFrom strict _ _ _ _, fun found h => ⟨?_, v.lt_word hs h⟩⟩
    obtain ⟨_, _, hk, -⟩ := v.wordFrom_ok h
    exact wordKind_solid hk
  split
  · next hs =>
    have hl := v.lt_numeral strict hs
    exact ⟨Nat.le_of_lt hl, fun found h => ⟨by rw [v.numeral_ok h]; rfl, hl⟩⟩
  split
  · have hl := v.lt_string strict p
    exact ⟨Nat.le_of_lt hl, fun found h => ⟨by rw [v.stringFrom_ok h]; rfl, hl⟩⟩
  split
  · next kind length hc =>
    obtain ⟨hl, hk⟩ := punctuator?_solid hc
    refine ⟨Nat.le_add_right _ _, fun found h => ?_⟩
    cases h
    exact ⟨hk, Nat.lt_add_of_pos_right hl⟩
  · exact ⟨Nat.le_refl _, nofun⟩

/-! The mode of the code. -/

/-- What the reader of a token finds in strict code, beside what it finds in sloppy code: the same,
a reserved word for an identifier, or a failure. -/
inductive Stricter {α : Type} :
    Except LexFault (TokenKind × TokenValue) × α →
    Except LexFault (TokenKind × TokenValue) × α → Prop where
  | same (x : Except LexFault (TokenKind × TokenValue) × α) : Stricter x x
  | reserved (name : String) (stop : α) :
    Stricter (.ok (.strictReserved, .text name), stop) (.ok (.identifier, .text name), stop)
  | refused (fault : LexFault) (stop : α) (x : Except LexFault (TokenKind × TokenValue) × α) :
    Stricter (.error fault, stop) x

theorem Stricter.map {α β : Type} {x y : Except LexFault (TokenKind × TokenValue) × α}
    (h : Stricter x y) (f : α → β) : Stricter (x.1, f x.2) (y.1, f y.2) := by
  cases h with
  | same => exact .same _
  | reserved => exact .reserved _ _
  | refused => exact .refused _ _ _

theorem wordFrom_stricter (n i : Nat) (name : List Char) (escaped : Bool) :
    Stricter (v.wordFrom true n i name escaped) (v.wordFrom false n i name escaped) := by
  induction n generalizing i name escaped with
  | zero => exact .same _
  | succ n ih =>
    simp only [wordFrom]
    split
    · split
      · exact .same _
      split
      · next decoded j hj =>
        generalize (if name.isEmpty then decoded.isIdentifierStart else decoded.isIdentifierPart) =
          fits
        cases fits
        · exact .same _
        · exact ih _ _ _
      · exact .same _
    split
    · exact ih _ _ _
    · simp only [wordKind]
      split
      · exact .same _
      · next kind hw =>
        by_cases hk : kind = .strictReserved
        · subst hk
          cases escaped
          · exact .reserved _ _
          · exact .same _
        · have hk' : (kind == .strictReserved) = false := by simpa using hk
          simp only [hk', Bool.false_and]
          exact .same _

theorem numeral_stricter (i : Nat) : Stricter (v.numeral true i) (v.numeral false i) := by
  simp only [numeral]
  repeat' split
  all_goals first | exact .same _ | exact .refused _ _ _ | simp_all

theorem escape_stricter (i : Nat) :
    v.escape true i = v.escape false i ∨ ∃ fault j, v.escape true i = (.error fault, j) := by
  simp only [escape]
  repeat' split
  all_goals first | exact .inl rfl | exact .inr ⟨_, _, rfl⟩ | simp_all

theorem stringFrom_stricter (quote : CodePoint) (n : Nat) (p : Place) (chars : List Char) :
    Stricter (v.stringFrom quote true n p chars) (v.stringFrom quote false n p chars) := by
  induction n generalizing p chars with
  | zero => exact .same _
  | succ n ih =>
    simp only [stringFrom]
    split
    · exact .same _
    split
    · exact .same _
    split
    · exact ih _ _
    split
    · exact .same _
    split
    · exact ih _ _
    · obtain he | ⟨fault, j, he⟩ := v.escape_stricter (p.offset + 1)
      · rw [he]
        split
        · exact ih _ _
        · exact .same _
      · rw [he]
        exact .refused _ _ _

theorem token_stricter (p : Place) : Stricter (v.token true p) (v.token false p) := by
  simp only [token]
  split
  · exact .same _
  split
  · exact (v.wordFrom_stricter _ _ _ _).map fun offset => { p with offset }
  split
  · exact (v.numeral_stricter _).map fun offset => { p with offset }
  split
  · exact v.stringFrom_stricter _ _ _ _
  · exact .same _

end View

theorem LexFault.kind_isError (fault : LexFault) : fault.kind.isError = true := by
  unfold kind
  split <;> rfl

theorem TokenKind.isSolid_of_isError {kind : TokenKind} (h : kind.isError = true) :
    kind.isSolid = false := by
  simp [isSolid, h]

theorem TokenKind.ne_eof_of_isSolid {kind : TokenKind} (h : kind.isSolid = true) :
    kind ≠ .eof := fun he => by
  simp [he, isSolid] at h

namespace Lexer

/-- A token is read, and the lexer goes on behind it. -/
structure Advances (l : Lexer) (t : Token) (l' : Lexer) : Prop where
  view : l'.view = l.view
  stop : t.extent.stop = l'.standing.offset
  start : l.standing.offset ≤ t.extent.start
  ordered : t.extent.start ≤ t.extent.stop
  inside : t.kind ≠ .eof → t.extent.start < l.view.limit
  atEnd : t.kind = .eof → l.view.limit ≤ t.extent.start
  solid : t.kind.isSolid = true → t.extent.start < t.extent.stop

theorem next_advances (l : Lexer) (strict : Bool) :
    l.Advances (l.next strict).1 (l.next strict).2 := by
  obtain ⟨hp, hu⟩ := l.view.triviaFrom_forward (l.view.steps l.place.offset) l.place false
  have ht := l.view.token_cases strict (l.view.trivia l.place).place
  simp only [next]
  split
  · next extent hc =>
    obtain ⟨h₁, h₂, h₃, h₄⟩ := hu extent hc
    exact ⟨rfl, h₄, h₁, Nat.le_of_lt h₃, fun _ => h₂, nofun, nofun⟩
  · generalize l.view.token strict (l.view.trivia l.place).place = x at ht
    obtain ⟨found, stop⟩ := x
    dsimp only at ht
    cases found with
    | ok found =>
      obtain ⟨hl, he⟩ | ⟨hl, ho, hk⟩ := ht
      · cases he
        exact ⟨rfl, rfl, hp, Nat.le_refl _, absurd rfl, fun _ => hl, nofun⟩
      · obtain ⟨hk, hs⟩ := hk found rfl
        refine ⟨rfl, rfl, hp, ho, fun _ => hl, fun he => ?_, fun _ => hs⟩
        have he : found.1 = .eof := he
        rw [he] at hk
        cases hk
    | error fault =>
      obtain ⟨-, he⟩ | ⟨hl, ho, -⟩ := ht
      · cases he
      · have hk := fault.kind_isError
        refine ⟨rfl, rfl, hp, ho, fun _ => hl, fun he => ?_, fun hs => ?_⟩
        · have he : fault.kind = .eof := he
          rw [he] at hk
          cases hk
        · have hs : fault.kind.isSolid = true := hs
          rw [TokenKind.isSolid_of_isError hk] at hs
          cases hs

@[simp] theorem view_next (l : Lexer) (strict : Bool) : (l.next strict).2.view = l.view :=
  (l.next_advances strict).view

theorem next_congr {l l' : Lexer} (hv : l'.view = l.view) (hs : l'.standing = l.standing)
    (strict : Bool) :
    l'.next strict = l.next strict := by
  obtain ⟨view, standing, fault⟩ := l
  obtain ⟨view', standing', fault'⟩ := l'
  cases hv
  cases hs
  simp only [next, place, arrive]

theorem lt_limit_of_next {l : Lexer} {strict : Bool} (h : (l.next strict).1.kind ≠ .eof) :
    l.standing.offset < l.view.limit :=
  Nat.lt_of_le_of_lt (l.next_advances strict).start ((l.next_advances strict).inside h)

theorem regexp_advances (l : Lexer) (t : Token) (start : String) :
    (l.regexp t start).2.view = l.view ∧ (l.regexp t start).1.extent.start = t.extent.start ∧
      l.standing.offset ≤ (l.regexp t start).2.standing.offset := by
  have hr := l.view.le_regexp start l.standing.offset
  simp only [regexp]
  split <;> exact ⟨rfl, rfl, hr⟩

theorem regexp_stop (l : Lexer) (t : Token) (start : String) :
    (l.regexp t start).1.extent.stop = (l.regexp t start).2.standing.offset := by
  simp only [regexp]
  split <;> rfl

/-- What is read in strict code, beside what is read in sloppy code. -/
inductive Stricter : Token × Lexer → Token × Lexer → Prop where
  | same (x : Token × Lexer) : Stricter x x
  | reserved {t : Token} {l : Lexer} (hk : t.kind = .identifier) :
    Stricter ({ t with kind := .strictReserved }, l) (t, l)
  | refused {t u : Token} {l m : Lexer} (hk : t.kind.isError = true) : Stricter (t, l) (u, m)

theorem next_stricter (l : Lexer) : Stricter (l.next true) (l.next false) := by
  have ht := l.view.token_stricter (l.view.trivia l.place).place
  simp only [next]
  split
  · exact .same _
  · generalize l.view.token true (l.view.trivia l.place).place = x at ht ⊢
    generalize l.view.token false (l.view.trivia l.place).place = y at ht ⊢
    cases ht with
    | same => exact .same _
    | reserved name stop =>
      exact .reserved (t := ⟨.identifier, .text name, ⟨_, _, _, stop.offset⟩⟩) rfl
    | refused fault => exact .refused fault.kind_isError

end Lexer

end EcmaFront
