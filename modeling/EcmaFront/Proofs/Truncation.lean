import EcmaFront.Proofs.Mirror

/-!
A view that ends sooner. Nothing is read behind its end, and no token goes on with that; so a token
that ends before the new end is read there as it was, whatever came behind it.
-/

set_option autoImplicit false

namespace EcmaFront.View

def upTo (v : View) (cut : Nat) : View := { v with limit := cut }

@[simp] theorem limit_upTo (v : View) (cut : Nat) : (v.upTo cut).limit = cut := rfl

variable {v : View} {cut : Nat} {i j k m n value : Nat}

theorem code_upTo_of_lt (hc : cut ≤ v.limit) (hi : i < cut) : (v.upTo cut).code i = v.code i := by
  rw [code, code, if_pos (show i < (v.upTo cut).limit from hi), if_pos (Nat.lt_of_lt_of_le hi hc)]
  rfl

theorem code_upTo_of_le (hi : cut ≤ i) : (v.upTo cut).code i = 0 := if_neg (Nat.not_lt.2 hi)

theorem code_upTo_of_ne (hc : cut ≤ v.limit) (h : (v.upTo cut).code i ≠ 0) :
    (v.upTo cut).code i = v.code i :=
  code_upTo_of_lt hc (lt_limit h)

theorem after_upTo (hc : cut ≤ v.limit) (hi : i < cut) : (v.upTo cut).after i = v.after i := by
  simp only [after, code_upTo_of_lt hc hi]
  rfl

theorem not_upTo (hc : cut ≤ v.limit) {p : CodePoint → Bool} (hz : p 0 = false)
    (h : p (v.code i) = false) :
    p ((v.upTo cut).code i) = false := by
  by_cases hi : i < cut
  · rwa [code_upTo_of_lt hc hi]
  · rwa [code_upTo_of_le (Nat.not_lt.1 hi)]

theorem not_upTo_second (hc : cut ≤ v.limit) {first : Bool} {code : CodePoint}
    (h : ¬(first && v.code i == code) = true) (hz : (0 == code) = false) :
    ¬(first && (v.upTo cut).code i == code) = true := by
  rw [Bool.not_eq_true, Bool.and_eq_false_iff] at h ⊢
  exact h.imp_right (not_upTo hc (p := (· == code)) hz)

theorem of_upTo (hc : cut ≤ v.limit) {p : CodePoint → Bool} (hz : p 0 = false)
    (h : p ((v.upTo cut).code i) = true) : i < cut ∧ p (v.code i) = true := by
  have hi : i < (v.upTo cut).limit := lt_limit fun he => by
    rw [he, hz] at h
    cases h
  exact ⟨hi, code_upTo_of_lt hc hi ▸ h⟩

/-! Escapes. -/

theorem fixedHex_upTo (hc : cut ≤ v.limit) {code : CodePoint}
    (h : v.fixedHex n i value = (some code, j)) (hj : j ≤ cut) :
    (v.upTo cut).fixedHex n i value = (some code, j) := by
  induction n generalizing i value with
  | zero => exact h
  | succ n ih =>
    simp only [fixedHex] at h ⊢
    split at h
    · next d hd =>
      have hl := v.le_fixedHex n (i + 1) (value * 16 + d)
      rw [h] at hl
      rw [code_upTo_of_lt hc (Nat.lt_of_lt_of_le hl hj), hd]
      exact ih h
    · cases h

theorem fixedHex_of_upTo (hc : cut ≤ v.limit) {code : CodePoint}
    (h : (v.upTo cut).fixedHex n i value = (some code, j)) :
    v.fixedHex n i value = (some code, j) := by
  induction n generalizing i value with
  | zero => exact h
  | succ n ih =>
    simp only [fixedHex] at h ⊢
    split at h
    · next d hd =>
      rw [code_upTo_of_ne hc (Nat.ne_of_gt (CodePoint.isAscii_of_digit? hd).1)] at hd
      rw [hd]
      exact ih h
    · cases h

theorem bracedHex_upTo (hc : cut ≤ v.limit) (hm : (v.upTo cut).Enough m i) {any : Bool}
    {code : CodePoint} (h : v.bracedHex n i value any = (some code, j)) (hj : j ≤ cut) :
    (v.upTo cut).bracedHex m i value any = (some code, j) := by
  induction n generalizing i m value any with
  | zero => cases h
  | succ n ih =>
    cases m with
    | zero => exact absurd rfl hm.ne_zero
    | succ m =>
      simp only [bracedHex] at h ⊢
      split at h
      · next d hd =>
        split at h
        · cases h
        next hd' =>
        have hl := v.le_bracedHex n (i + 1) (value * 16 + d) true
        rw [h] at hl
        have hi : i < cut := Nat.lt_of_lt_of_le hl hj
        simp only [code_upTo_of_lt hc hi, hd, if_neg hd']
        exact ih (hm.step hi (Nat.lt_succ_self i)) h
      · next hd =>
        split at h
        · next he =>
          cases h
          simp only [code_upTo_of_lt hc hj, hd, if_pos he]
        · cases h

theorem bracedHex_of_upTo (hc : cut ≤ v.limit) (hn : v.Enough n i) {any : Bool} {code : CodePoint}
    (h : (v.upTo cut).bracedHex m i value any = (some code, j)) :
    v.bracedHex n i value any = (some code, j) := by
  induction m generalizing i n value any with
  | zero => cases h
  | succ m ih =>
    cases n with
    | zero => exact absurd rfl hn.ne_zero
    | succ n =>
      simp only [bracedHex] at h ⊢
      split at h
      · next d hd =>
        split at h
        · cases h
        next hd' =>
        have hi : i < cut := lt_limit (Nat.ne_of_gt (CodePoint.isAscii_of_digit? hd).1)
        rw [code_upTo_of_lt hc hi] at hd
        simp only [hd, if_neg hd']
        exact ih (hn.step (Nat.lt_of_lt_of_le hi hc) (Nat.lt_succ_self i)) h
      · next hd =>
        split at h
        · next he =>
          have hi : i < cut := by
            rw [Bool.and_eq_true] at he
            exact lt_limit (Nat.ne_of_gt (CodePoint.isAscii_of_beq he.2 (by decide)).1)
          rw [code_upTo_of_lt hc hi] at hd he
          simp only [hd, if_pos he]
          exact h
        · cases h

theorem unicodeEscape_upTo (hc : cut ≤ v.limit) {code : CodePoint}
    (h : v.unicodeEscape i = (some code, j)) (hj : j ≤ cut) :
    (v.upTo cut).unicodeEscape i = (some code, j) := by
  simp only [unicodeEscape] at h ⊢
  split at h
  · next hb =>
    have hl := v.le_bracedHex (v.steps i) (i + 2) 0 false
    rw [h] at hl
    rw [code_upTo_of_lt hc (Nat.lt_of_lt_of_le hl hj), if_pos hb]
    exact bracedHex_upTo hc (.steps_of_le _ (Nat.le_add_right i 2)) h hj
  · next hb =>
    rw [if_neg]
    · exact fixedHex_upTo hc h hj
    · rw [Bool.not_eq_true] at hb ⊢
      exact not_upTo hc (p := (· == 0x7B)) rfl hb

theorem unicodeEscape_of_upTo (hc : cut ≤ v.limit) {code : CodePoint}
    (h : (v.upTo cut).unicodeEscape i = (some code, j)) : v.unicodeEscape i = (some code, j) := by
  simp only [unicodeEscape] at h ⊢
  split at h
  · next hb =>
    rw [if_pos (of_upTo hc (p := (· == 0x7B)) rfl hb).2]
    exact bracedHex_of_upTo hc (.steps_of_le _ (Nat.le_add_right i 2)) h
  · next hb =>
    rw [if_neg]
    · exact fixedHex_of_upTo hc h
    · intro hb'
      have hd := fixedHex_of_upTo hc h
      simp only [fixedHex, beq_iff_eq.1 hb'] at hd
      cases hd

/-! Words and digits. -/

theorem wordFrom_upTo (hc : cut ≤ v.limit) {strict : Bool} {name : List Char} {escaped : Bool}
    {found : TokenKind × TokenValue} (hm : (v.upTo cut).Enough m i)
    (h : v.wordFrom strict n i name escaped = (.ok found, j)) (hj : j ≤ cut) :
    (v.upTo cut).wordFrom strict m i name escaped = (.ok found, j) := by
  induction n generalizing i m name escaped with
  | zero => cases h
  | succ n ih =>
    cases m with
    | zero => exact absurd rfl hm.ne_zero
    | succ m =>
      simp only [wordFrom] at h ⊢
      split at h
      · next hb =>
        split at h
        · cases h
        next hu =>
        split at h
        · next decoded k hk =>
          generalize hf : (if name.isEmpty then decoded.isIdentifierStart else
            decoded.isIdentifierPart) = fits at h
          cases fits
          · cases h
          rw [if_pos rfl] at h
          have hs := v.lt_unicodeEscape (i + 1)
          have hl := v.le_wordFrom strict n k (decoded.toChar :: name) true
          rw [hk] at hs
          rw [h] at hl
          dsimp only at hs hl
          rw [code_upTo_of_lt hc (by omega), if_pos hb, code_upTo_of_lt hc (by omega), if_neg hu,
            unicodeEscape_upTo hc hk (Nat.le_trans hl hj)]
          dsimp only
          rw [hf, if_pos rfl]
          exact ih (hm.step (by simp only [limit_upTo]; omega) (by omega)) h
        · cases h
      next hb =>
      split at h
      · next hp =>
        have hs := v.lt_after i
        have hl := v.le_wordFrom strict n (v.after i) ((v.code i).toChar :: name) escaped
        rw [h] at hl
        have hi : i < cut := Nat.lt_of_lt_of_le hs (Nat.le_trans hl hj)
        rw [code_upTo_of_lt hc hi, if_neg hb, if_pos hp, after_upTo hc hi]
        exact ih (hm.step hi hs) h
      · next hp =>
        rw [Bool.not_eq_true] at hb hp
        rw [if_neg (Bool.eq_false_iff.1 (not_upTo hc (p := (· == 0x5C)) rfl hb)),
          if_neg (Bool.eq_false_iff.1 (not_upTo hc rfl hp))]
        exact h

theorem word_upTo (hc : cut ≤ v.limit) {strict : Bool} {found : TokenKind × TokenValue}
    (h : v.word strict i = (.ok found, j)) (hj : j ≤ cut) :
    (v.upTo cut).word strict i = (.ok found, j) :=
  wordFrom_upTo hc (.steps _ i) h hj

theorem digit?_upTo (hc : cut ≤ v.limit) {radix : Nat} (h : (v.code i).digit? radix = none) :
    ((v.upTo cut).code i).digit? radix = none := by
  rw [← Option.not_isSome_iff_eq_none, Bool.not_eq_true] at h ⊢
  exact not_upTo hc (p := fun code => (code.digit? radix).isSome) rfl h

theorem digitsFrom_upTo (hc : cut ≤ v.limit) {radix : Nat} {digits : List Nat} (hn : v.Enough n i)
    (hm : (v.upTo cut).Enough m i) (hj : (v.digitsFrom radix n i digits).2 ≤ cut) :
    (v.upTo cut).digitsFrom radix m i digits = v.digitsFrom radix n i digits := by
  induction n generalizing i m digits with
  | zero => exact absurd rfl hn.ne_zero
  | succ n ih =>
    cases m with
    | zero => exact absurd rfl hm.ne_zero
    | succ m =>
      simp only [digitsFrom] at hj ⊢
      cases hd : (v.code i).digit? radix with
      | some d =>
        simp only [hd] at hj ⊢
        have hi : i < cut := Nat.lt_of_lt_of_le (v.le_digitsFrom radix n (i + 1) (d :: digits)) hj
        simp only [code_upTo_of_lt hc hi, hd]
        exact ih (hn.step (Nat.lt_of_lt_of_le hi hc) (Nat.lt_succ_self i))
          (hm.step hi (Nat.lt_succ_self i)) hj
      | none =>
        simp only [digit?_upTo hc hd]

theorem digits_upTo (hc : cut ≤ v.limit) {radix : Nat} (hj : (v.digits radix i).2 ≤ cut) :
    (v.upTo cut).digits radix i = v.digits radix i := by
  rw [digits, digits, digitsFrom_upTo hc (.steps _ i) (.steps _ i) hj]

/-! Numeric literals. -/

theorem isLetter_upTo (hc : cut ≤ v.limit) {letter : CodePoint} (h : v.isLetter i letter = false)
    (hl : (0 == letter || 0x20 == letter) = false) : (v.upTo cut).isLetter i letter = false :=
  not_upTo hc (p := fun code => code == letter || code + 0x20 == letter) hl h

theorem isLetter_upTo_of_lt (hc : cut ≤ v.limit) (hi : i < cut) (letter : CodePoint) :
    (v.upTo cut).isLetter i letter = v.isLetter i letter := by
  rw [isLetter, isLetter, code_upTo_of_lt hc hi]

theorem decimalTail_upTo (hc : cut ≤ v.limit) {whole : List Nat} {number : Binary64}
    (h : v.decimalTail whole i = (some number, j)) (hj : j ≤ cut) :
    (v.upTo cut).decimalTail whole i = (some number, j) := by
  have hf (hk : (if v.code i == 0x2E then v.digits 10 (i + 1) else ([], i)).2 ≤ cut) :
      (if (v.upTo cut).code i == 0x2E then (v.upTo cut).digits 10 (i + 1) else ([], i)) =
        if v.code i == 0x2E then v.digits 10 (i + 1) else ([], i) := by
    split at hk
    · next hp =>
      have hi : i < cut := Nat.lt_of_lt_of_le (v.le_digits 10 (i + 1)) hk
      rw [code_upTo_of_lt hc hi, if_pos hp, if_pos hp, digits_upTo hc hk]
    · next hp =>
      rw [Bool.not_eq_true] at hp
      rw [if_neg (Bool.eq_false_iff.1 (not_upTo hc (p := (· == 0x2E)) rfl hp)),
        if_neg (Bool.eq_false_iff.1 hp)]
  simp only [decimalTail] at h ⊢
  generalize (if v.code i == 0x2E then v.digits 10 (i + 1) else ([], i)) = x at h hf
  obtain ⟨fraction, k⟩ := x
  dsimp only at h hf
  split at h
  · next he =>
    cases h
    rw [hf hj]
    rw [Bool.not_eq_true'] at he
    simp only [isLetter_upTo hc he rfl, Bool.not_false, if_true]
  · next he =>
    have hl : k + 1 ≤ (if (v.code (k + 1) == 0x2D || v.code (k + 1) == 0x2B) = true then k + 2
        else k + 1) := by
      split <;> omega
    have hd := v.le_digits 10
      (if (v.code (k + 1) == 0x2D || v.code (k + 1) == 0x2B) = true then k + 2 else k + 1)
    have hj' : (v.digits 10
        (if (v.code (k + 1) == 0x2D || v.code (k + 1) == 0x2B) = true then k + 2 else k + 1)).2 ≤
        cut := by
      generalize v.digits 10 _ = y at h ⊢
      obtain ⟨_ | ⟨d, ds⟩, l⟩ := y <;> cases h
      exact hj
    -- A sign is looked for behind the letter: where the view ends there is none.
    have hsign (c : CodePoint) (hz : (0 == c) = false)
        (hv : (v.code (k + 1) == c) = true →
          (v.code (k + 1) == 0x2D || v.code (k + 1) == 0x2B) = true) :
        ((v.upTo cut).code (k + 1) == c) = (v.code (k + 1) == c) := by
      cases hb : v.code (k + 1) == c with
      | false => exact not_upTo hc (p := (· == c)) hz hb
      | true =>
        rw [if_pos (hv hb)] at hd hj'
        rw [code_upTo_of_lt hc (Nat.lt_of_lt_of_le hd hj'), hb]
    rw [hf (by omega)]
    simp only [isLetter_upTo_of_lt hc (show k < cut by omega), he,
      hsign 0x2D rfl (by simp +contextual),
      hsign 0x2B rfl (by simp +contextual), digits_upTo hc hj']
    exact h

theorem radixLiteral_upTo (hc : cut ≤ v.limit) {radix : Nat} {number : Binary64}
    (h : v.radixLiteral radix i = (some number, j)) (hj : j ≤ cut) :
    (v.upTo cut).radixLiteral radix i = (some number, j) := by
  have hd : (v.digits radix (i + 2)).2 ≤ cut := by
    rw [radixLiteral] at h
    generalize v.digits radix (i + 2) = x at h ⊢
    obtain ⟨_ | ⟨d, ds⟩, k⟩ := x <;> cases h
    exact hj
  rw [radixLiteral, digits_upTo hc hd]
  exact h

theorem endNumeral_ok {v : View} {x : Option Binary64 × Nat} {found : TokenKind × TokenValue}
    (h : v.endNumeral x = (.ok found, j)) : ∃ number, x = (some number, j) := by
  obtain ⟨_ | number, k⟩ := x
  · cases h
  · simp only [endNumeral] at h
    split at h <;> cases h
    exact ⟨number, rfl⟩

theorem endNumeral_upTo (hc : cut ≤ v.limit) {x : Option Binary64 × Nat}
    {found : TokenKind × TokenValue} (h : v.endNumeral x = (.ok found, j)) :
    (v.upTo cut).endNumeral x = (.ok found, j) := by
  obtain ⟨number, rfl⟩ := endNumeral_ok h
  simp only [endNumeral] at h ⊢
  split at h
  · cases h
  · next ha =>
    rw [Bool.not_eq_true] at ha
    rw [if_neg (Bool.eq_false_iff.1 (not_upTo hc
      (p := fun code => code.isIdentifierStart || code == 0x5C || code.isDecimalDigit)
      (by decide) ha))]
    exact h

theorem numeral_upTo (hc : cut ≤ v.limit) {strict : Bool} {found : TokenKind × TokenValue}
    (h : v.numeral strict i = (.ok found, j)) (hi : i < cut) (hj : j ≤ cut) :
    (v.upTo cut).numeral strict i = (.ok found, j) := by
  have hradix {letter : CodePoint} {radix : Nat}
      (hb : (v.code i == 0x30 && v.isLetter (i + 1) letter) = true)
      (h : v.endNumeral (v.radixLiteral radix i) = (.ok found, j)) :
      (v.code i == 0x30 && (v.upTo cut).isLetter (i + 1) letter) = true ∧
        (v.upTo cut).endNumeral ((v.upTo cut).radixLiteral radix i) = (.ok found, j) := by
    obtain ⟨number, hn⟩ := endNumeral_ok h
    have hl := v.le_radixLiteral radix i
    rw [hn] at hl h
    rw [isLetter_upTo_of_lt hc (Nat.lt_of_lt_of_le hl hj), radixLiteral_upTo hc hn hj]
    exact ⟨hb, endNumeral_upTo hc h⟩
  have hno {letter : CodePoint} (hb : ¬(v.code i == 0x30 && v.isLetter (i + 1) letter) = true)
      (hl : (0 == letter || 0x20 == letter) = false) :
      ¬(v.code i == 0x30 && (v.upTo cut).isLetter (i + 1) letter) = true := by
    rw [Bool.not_eq_true, Bool.and_eq_false_iff] at hb ⊢
    exact hb.imp_right fun hb => isLetter_upTo hc hb hl
  have htail {digits : List Nat} {stop : Nat} (h : v.endNumeral (v.decimalTail digits stop) =
      (.ok found, j)) :
      stop ≤ j ∧ (v.upTo cut).endNumeral ((v.upTo cut).decimalTail digits stop) =
      (.ok found, j) := by
    obtain ⟨number, hn⟩ := endNumeral_ok h
    have hl := (v.le_decimalTail digits stop).1
    rw [hn] at hl h
    rw [decimalTail_upTo hc hn hj]
    exact ⟨hl, endNumeral_upTo hc h⟩
  simp only [numeral, code_upTo_of_lt hc hi] at h ⊢
  split at h
  · next hb =>
    obtain ⟨hb, h⟩ := hradix hb h
    rw [if_pos hb, h]
  next hx =>
  rw [if_neg (hno hx rfl)]
  split at h
  · next hb =>
    obtain ⟨hb, h⟩ := hradix hb h
    rw [if_pos hb, h]
  next ho =>
  rw [if_neg (hno ho rfl)]
  split at h
  · next hb =>
    obtain ⟨hb, h⟩ := hradix hb h
    rw [if_pos hb, h]
  next hb =>
  rw [if_neg (hno hb rfl)]
  have hd : (v.digits 10 i).2 ≤ cut := by
    refine Nat.le_trans ?_ hj
    split at h
    · split at h
      · cases h
      split at h
      · obtain ⟨number, hn⟩ := endNumeral_ok h
        cases hn
        exact Nat.le_refl _
      · exact (htail h).1
    · exact (htail h).1
  rw [digits_upTo hc hd]
  split at h
  · next hz =>
    rw [if_pos hz]
    split at h
    · cases h
    next hs =>
    rw [if_neg hs]
    split at h
    · next ho =>
      rw [if_pos ho]
      exact endNumeral_upTo hc h
    · next ho =>
      rw [if_neg ho]
      exact (htail h).2
  · next hz =>
    rw [if_neg hz]
    exact (htail h).2

/-! String literals. -/

theorem octalEscape_upTo (hc : cut ≤ v.limit) (hj : (v.octalEscape n i value).2 ≤ cut) :
    (v.upTo cut).octalEscape n i value = v.octalEscape n i value := by
  induction n generalizing i value with
  | zero => rfl
  | succ n ih =>
    simp only [octalEscape] at hj ⊢
    cases hd : (v.code i).digit? 8 with
    | none => simp only [digit?_upTo hc hd]
    | some d =>
      simp only [hd] at hj ⊢
      by_cases hi : i < cut
      · simp only [code_upTo_of_lt hc hi, hd]
        split at hj
        · next ho => rw [if_pos ho, if_pos ho]
        · next ho =>
          rw [if_neg ho, if_neg ho]
          exact ih hj
      · rw [code_upTo_of_le (Nat.not_lt.1 hi)]
        split at hj
        · next ho => rw [if_pos ho]; rfl
        · next ho =>
          exact absurd (Nat.lt_of_lt_of_le (v.le_octalEscape n (i + 1) (value * 8 + d)) hj) hi

/-- An escaped low surrogate, for a high one to be joined with. -/
def escapedLow? (v : View) (i : Nat) : Option (CodePoint × Nat) :=
  if v.code i == 0x5C && v.code (i + 1) == 0x75 then
    match v.unicodeEscape (i + 1) with
    | (some low, j) => if low.isLowSurrogate then some (low, j) else none
    | (none, _) => none
  else none

theorem escapedLow?_eq_some {v : View} {low : CodePoint} :
    v.escapedLow? i = some (low, j) ↔ (v.code i == 0x5C) = true ∧ (v.code (i + 1) == 0x75) = true ∧
      v.unicodeEscape (i + 1) = (some low, j) ∧ low.isLowSurrogate = true := by
  simp only [escapedLow?]
  cases v.code i == 0x5C <;> cases v.code (i + 1) == 0x75
  · simp
  · simp
  · simp
  · generalize v.unicodeEscape (i + 1) = x
    obtain ⟨_ | code, k⟩ := x
    · simp
    · cases hl : code.isLowSurrogate <;>
        simp only [Bool.and_self, if_true, Prod.mk.injEq, Option.some.injEq] <;> grind

theorem stringUnicodeEscape_eq {v : View} {high : CodePoint}
    (h : v.unicodeEscape i = (some high, k)) :
    v.stringUnicodeEscape i =
      match high.isHighSurrogate, v.escapedLow? k with
      | true, some (low, j) => (some (CodePoint.ofSurrogates high low), j)
      | _, _ => (some high, k) := by
  rw [stringUnicodeEscape, h, escapedLow?]
  dsimp only
  cases high.isHighSurrogate
  · rfl
  · rw [Bool.true_and]
    split
    · generalize v.unicodeEscape (k + 1) = x
      obtain ⟨_ | code, l⟩ := x
      · rfl
      · dsimp only
        split <;> rfl
    · rfl

theorem escapedLow?_upTo (hc : cut ≤ v.limit) {low : CodePoint}
    (h : v.escapedLow? i = some (low, j)) (hj : j ≤ cut) :
    (v.upTo cut).escapedLow? i = some (low, j) := by
  obtain ⟨hb, hu, he, hl⟩ := escapedLow?_eq_some.1 h
  have hs := v.lt_unicodeEscape (i + 1)
  rw [he] at hs
  dsimp only at hs
  refine escapedLow?_eq_some.2 ⟨?_, ?_, unicodeEscape_upTo hc he hj, hl⟩
  · rwa [code_upTo_of_lt hc (by omega)]
  · rwa [code_upTo_of_lt hc (by omega)]

theorem escapedLow?_of_upTo (hc : cut ≤ v.limit) {low : CodePoint}
    (h : (v.upTo cut).escapedLow? i = some (low, j)) : v.escapedLow? i = some (low, j) := by
  obtain ⟨hb, hu, he, hl⟩ := escapedLow?_eq_some.1 h
  exact escapedLow?_eq_some.2 ⟨(of_upTo hc (p := (· == 0x5C)) rfl hb).2,
    (of_upTo hc (p := (· == 0x75)) rfl hu).2, unicodeEscape_of_upTo hc he, hl⟩

theorem stringUnicodeEscape_upTo (hc : cut ≤ v.limit) {code : CodePoint}
    (h : v.stringUnicodeEscape i = (some code, j)) (hj : j ≤ cut) :
    (v.upTo cut).stringUnicodeEscape i = (some code, j) := by
  cases he : v.unicodeEscape i with
  | mk found k =>
  cases found with
  | none =>
    rw [stringUnicodeEscape, he] at h
    cases h
  | some high =>
    rw [stringUnicodeEscape_eq he] at h
    cases hv : v.escapedLow? k with
    | some x =>
      obtain ⟨low, l⟩ := x
      rw [hv] at h
      have hs := v.lt_unicodeEscape (k + 1)
      rw [(escapedLow?_eq_some.1 hv).2.2.1] at hs
      cases hh : high.isHighSurrogate with
      | false =>
        rw [hh] at h
        cases h
        rw [stringUnicodeEscape_eq (unicodeEscape_upTo hc he hj), hh]
      | true =>
        rw [hh] at h
        cases h
        rw [stringUnicodeEscape_eq
          (unicodeEscape_upTo hc he (Nat.le_trans (Nat.le_of_succ_le hs.le) hj)), hh,
          escapedLow?_upTo hc hv hj]
    | none =>
      have hw : (v.upTo cut).escapedLow? k = none :=
        Option.eq_none_iff_forall_ne_some.2 fun x hx => by
          rw [escapedLow?_of_upTo hc hx] at hv
          cases hv
      have hk : k = j := by
        rw [hv] at h
        cases hh : high.isHighSurrogate <;> rw [hh] at h <;> cases h <;> rfl
      rw [stringUnicodeEscape_eq (unicodeEscape_upTo hc he (hk ▸ hj)), hw, ← hv]
      exact h

theorem digit?_lt {radix d : Nat} {code : CodePoint} (h : code.digit? radix = some d) :
    d < radix := by
  simp only [CodePoint.digit?, Option.filter_eq_some_iff, decide_eq_true_eq] at h
  exact h.2

theorem lt_escape {v : View} {strict : Bool} {c : Char} (h : v.escape strict i = (.ok c, j)) :
    i < j := by
  simp only [escape] at h
  split at h
  · cases h
    exact Nat.lt_succ_self i
  split at h
  · cases h
    exact Nat.lt_succ_self i
  split at h
  · split at h <;> cases h
    omega
  split at h
  · have hl := v.lt_stringUnicodeEscape i
    generalize v.stringUnicodeEscape i = x at h hl
    obtain ⟨_ | code, k⟩ := x <;> cases h
    exact hl
  split at h
  · next ho =>
    split at h
    · cases h
    · cases h
      obtain ⟨d, hd⟩ := Option.isSome_iff_exists.1 ho
      have := digit?_lt hd
      simp only [octalEscape, hd]
      rw [if_neg (by omega)]
      exact v.le_octalEscape 2 (i + 1) _
  split at h
  · cases h
  · cases h
    exact v.lt_after i

theorem escape_upTo (hc : cut ≤ v.limit) {strict : Bool} {c : Char}
    (h : v.escape strict i = (.ok c, j)) (hj : j < cut) :
    (v.upTo cut).escape strict i = (.ok c, j) := by
  have hi := lt_escape h
  simp only [escape, code_upTo_of_lt hc (Nat.lt_trans hi hj),
    code_upTo_of_lt hc (Nat.lt_of_le_of_lt hi hj)] at h ⊢
  split at h
  · exact h
  split at h
  · next hz =>
    rw [if_pos hz]
    exact h
  next hz =>
  rw [if_neg hz]
  split at h
  · next hx =>
    rw [if_pos hx]
    split at h
    · next hh hl =>
      cases h
      rw [hh, code_upTo_of_lt hc (by omega), hl]
    · cases h
  next hx =>
  rw [if_neg hx]
  split at h
  · next hu =>
    rw [if_pos hu]
    split at h
    · next hs =>
      cases h
      rw [stringUnicodeEscape_upTo hc hs (Nat.le_of_lt hj)]
    · cases h
  next hu =>
  rw [if_neg hu]
  split at h
  · next ho =>
    rw [if_pos ho]
    split at h
    · cases h
    · next hs =>
      rw [if_neg hs]
      cases h
      rw [octalEscape_upTo hc (Nat.le_of_lt hj)]
  next ho =>
  rw [if_neg ho]
  split at h
  · cases h
  · next hs =>
    rw [if_neg hs, after_upTo hc (Nat.lt_trans hi hj)]
    exact h

theorem afterLine_upTo (hc : cut ≤ v.limit) {p : Place} (hp : p.offset < cut)
    (hj : (v.afterLine p).offset ≤ cut) :
    (v.upTo cut).afterLine p = v.afterLine p := by
  have hf : ((v.upTo cut).code (p.offset + 1) == 0x0A) = (v.code (p.offset + 1) == 0x0A) ∨
      (v.code p.offset == 0x0D) = false := by
    cases hr : v.code p.offset == 0x0D with
    | false => exact .inr rfl
    | true =>
      cases hl : v.code (p.offset + 1) == 0x0A with
      | false => exact .inl (not_upTo hc (p := (· == 0x0A)) rfl hl)
      | true =>
        simp only [afterLine, hr, hl, Bool.and_self, if_true] at hj
        rw [code_upTo_of_lt hc hj, hl]
        exact .inl rfl
  simp only [afterLine, code_upTo_of_lt hc hp, after_upTo hc hp]
  obtain hf | hf := hf <;> simp only [hf, Bool.false_and]

theorem lt_stringFrom {v : View} {quote : CodePoint} {strict : Bool} {p q : Place}
    {chars : List Char} {found : TokenKind × TokenValue}
    (h : v.stringFrom quote strict n p chars = (.ok found, q)) :
    p.offset < q.offset := by
  cases n with
  | zero => cases h
  | succ n =>
    have hl (r : Place) (chars : List Char) (hr : v.stringFrom quote strict n r chars =
        (.ok found, q)) :
        r.offset ≤ q.offset := by
      have := v.le_stringFrom quote strict n r chars
      rwa [hr] at this
    simp only [stringFrom] at h
    split at h
    · cases h
    split at h
    · cases h
      exact Nat.lt_succ_self _
    split at h
    · exact Nat.lt_of_lt_of_le (v.lt_after p.offset) (hl _ _ h)
    split at h
    · cases h
    split at h
    · exact Nat.lt_of_succ_lt
        (Nat.lt_of_lt_of_le (v.lt_afterLine { p with offset := p.offset + 1 }) (hl _ _ h))
    split at h
    · next he => exact Nat.lt_of_succ_lt (Nat.lt_of_lt_of_le (lt_escape he) (hl _ _ h))
    · cases h

theorem stringFrom_upTo (hc : cut ≤ v.limit) {quote : CodePoint} {strict : Bool} {p q : Place}
    {chars : List Char} {found : TokenKind × TokenValue} (hm : (v.upTo cut).Enough m p.offset)
    (h : v.stringFrom quote strict n p chars = (.ok found, q)) (hj : q.offset ≤ cut) :
    (v.upTo cut).stringFrom quote strict m p chars = (.ok found, q) := by
  induction n generalizing p m chars with
  | zero => cases h
  | succ n ih =>
    cases m with
    | zero => exact absurd rfl hm.ne_zero
    | succ m =>
      have hi : p.offset < cut := Nat.lt_of_lt_of_le (lt_stringFrom h) hj
      simp only [stringFrom, code_upTo_of_lt hc hi, isEnd_eq_false (Nat.lt_of_lt_of_le hi hc),
        isEnd_eq_false (show p.offset < (v.upTo cut).limit from hi)] at h ⊢
      split at h
      · cases h
      next hl =>
      rw [if_neg hl]
      split at h
      · next hq =>
        rw [if_pos hq]
        exact h
      next hq =>
      rw [if_neg hq]
      split at h
      · next hb =>
        rw [if_pos hb, after_upTo hc hi]
        exact ih (hm.step hi (v.lt_after _)) h
      next hb =>
      rw [if_neg hb]
      split at h
      · cases h
      next he =>
      -- Something stands behind the backslash, so the string goes on.
      have hs : p.offset + 1 < cut := by
        split at h
        · exact Nat.lt_of_lt_of_le (Nat.lt_trans (v.lt_afterLine { p with offset := p.offset + 1 })
            (lt_stringFrom h)) hj
        split at h
        · next hx => exact Nat.lt_of_lt_of_le (Nat.lt_trans (lt_escape hx) (lt_stringFrom h)) hj
        · cases h
      rw [isEnd_eq_false (show p.offset + 1 < (v.upTo cut).limit from hs), code_upTo_of_lt hc hs]
      split at h
      · next ht =>
        rw [if_pos ht, afterLine_upTo hc hs
          (Nat.le_of_lt (Nat.lt_of_lt_of_le (lt_stringFrom h) hj))]
        exact ih (hm.step hi (Nat.lt_of_succ_lt (v.lt_afterLine { p with offset := p.offset + 1 })))
          h
      next ht =>
      rw [if_neg ht]
      split at h
      · next hx =>
        rw [escape_upTo hc hx (Nat.lt_of_lt_of_le (lt_stringFrom h) hj)]
        exact ih (hm.step hi (Nat.lt_of_succ_lt (lt_escape hx))) h
      · cases h

theorem string_upTo (hc : cut ≤ v.limit) {strict : Bool} {p q : Place}
    {found : TokenKind × TokenValue}
    (h : v.string strict p = (.ok found, q)) (hj : q.offset ≤ cut) :
    (v.upTo cut).string strict p = (.ok found, q) := by
  rw [string] at h ⊢
  rw [code_upTo_of_lt hc (Nat.lt_of_succ_lt (Nat.lt_of_lt_of_le (lt_stringFrom h) hj))]
  exact stringFrom_upTo hc (.steps_of_le _ (Nat.le_succ _)) h hj

/-! Regular expression literals. -/

theorem lt_regexpBody {v : View} {inClass : Bool} {body whole : List Char}
    (h : v.regexpBody n i inClass body = (some whole, j)) : i < j := by
  cases n with
  | zero => cases h
  | succ n =>
    have hl (k : Nat) (inClass : Bool) (body : List Char) (hr : v.regexpBody n k inClass body =
        (some whole, j)) :
        k ≤ j := by
      have := v.le_regexpBody n k inClass body
      rwa [hr] at this
    simp only [regexpBody] at h
    split at h
    · cases h
    split at h
    · cases h
      exact Nat.lt_succ_self i
    split at h
    · split at h
      · cases h
      · exact Nat.lt_of_succ_lt (Nat.lt_of_lt_of_le (v.lt_after (i + 1)) (hl _ _ _ h))
    · exact Nat.lt_of_lt_of_le (v.lt_after i) (hl _ _ _ h)

theorem regexpBody_upTo (hc : cut ≤ v.limit) {inClass : Bool} {body whole : List Char}
    (hm : (v.upTo cut).Enough m i) (h : v.regexpBody n i inClass body = (some whole, j))
    (hj : j ≤ cut) :
    (v.upTo cut).regexpBody m i inClass body = (some whole, j) := by
  induction n generalizing i m inClass body with
  | zero => cases h
  | succ n ih =>
    cases m with
    | zero => exact absurd rfl hm.ne_zero
    | succ m =>
      have hi : i < cut := Nat.lt_of_lt_of_le (lt_regexpBody h) hj
      simp only [regexpBody, code_upTo_of_lt hc hi, isEnd_eq_false (Nat.lt_of_lt_of_le hi hc),
        isEnd_eq_false (show i < (v.upTo cut).limit from hi)] at h ⊢
      split at h
      · cases h
      next hl =>
      rw [if_neg hl]
      split at h
      · next hq =>
        rw [if_pos hq]
        exact h
      next hq =>
      rw [if_neg hq]
      split at h
      · next hb =>
        rw [if_pos hb]
        split at h
        · cases h
        next he =>
        have hs : i + 1 < cut :=
          Nat.lt_of_lt_of_le (Nat.lt_trans (v.lt_after (i + 1)) (lt_regexpBody h)) hj
        rw [isEnd_eq_false (Nat.lt_of_lt_of_le hs hc)] at he
        rw [isEnd_eq_false (show i + 1 < (v.upTo cut).limit from hs), code_upTo_of_lt hc hs,
          if_neg he, after_upTo hc hs]
        exact ih (hm.step hi (Nat.lt_of_succ_lt (v.lt_after (i + 1)))) h
      · next hb =>
        rw [if_neg hb, after_upTo hc hi]
        exact ih (hm.step hi (v.lt_after i)) h

theorem nameCharsFrom_upTo (hc : cut ≤ v.limit) {chars : List Char} (hn : v.Enough n i)
    (hm : (v.upTo cut).Enough m i) (hj : (v.nameCharsFrom n i chars).2 ≤ cut) :
    (v.upTo cut).nameCharsFrom m i chars = v.nameCharsFrom n i chars := by
  induction n generalizing i m chars with
  | zero => exact absurd rfl hn.ne_zero
  | succ n ih =>
    cases m with
    | zero => exact absurd rfl hm.ne_zero
    | succ m =>
      simp only [nameCharsFrom] at hj ⊢
      split at hj
      · next hp =>
        have hi : i < cut :=
          Nat.lt_of_lt_of_le (Nat.lt_of_lt_of_le (v.lt_after i) (v.le_nameCharsFrom n _ _)) hj
        rw [code_upTo_of_lt hc hi, if_pos hp, if_pos hp, after_upTo hc hi]
        exact ih (hn.step (Nat.lt_of_lt_of_le hi hc) (v.lt_after i)) (hm.step hi (v.lt_after i)) hj
      · next hp =>
        rw [Bool.not_eq_true] at hp
        rw [if_neg (Bool.eq_false_iff.1 (not_upTo hc rfl hp)), if_neg (Bool.eq_false_iff.1 hp)]

theorem regexp_upTo (hc : cut ≤ v.limit) {start : String} {found : TokenKind × TokenValue}
    (h : v.regexp start i = (.ok found, j)) (hj : j ≤ cut) :
    (v.upTo cut).regexp start i = (.ok found, j) := by
  rw [regexp] at h ⊢
  split at h
  · cases h
  · next body k hk =>
    have hl := v.le_nameCharsFrom (v.steps k) k []
    have hf : (v.nameCharsFrom (v.steps k) k []).2 = j := congrArg Prod.snd h
    rw [regexpBody_upTo hc (.steps _ i) hk (by omega)]
    dsimp only
    rw [nameCharsFrom_upTo hc (.steps v k) (.steps _ k) (hf ▸ hj)]
    exact h

/-! Punctuators. -/

theorem punctuator?_upTo {char char' : Nat → Char} {kind : TokenKind} {length : Nat}
    (h : punctuator? (char 0) (char 1) (char 2) (char 3) = some (kind, length))
    (hs : ∀ k < length, char' k = char k) (hz : ∀ k, char' k = char k ∨ char' k = '\x00') :
    punctuator? (char' 0) (char' 1) (char' 2) (char' 3) = some (kind, length) := by
  have hz₁ := hz 1
  have hz₂ := hz 2
  have hz₃ := hz 3
  have hl := (punctuator?_solid h).1
  rw [hs 0 hl]
  unfold punctuator? at h ⊢
  split at h
  all_goals
    simp only [doubled, assigning, Option.some.injEq, reduceCtorEq] at h ⊢
    repeat' split at h
    all_goals grind

/-! Tokens. -/

theorem numeral_point {v : View} (strict : Bool) (h : v.code i = 0x2E)
    (hd : (v.code (i + 1)).isDecimalDigit = true) :
    i + 1 < (v.numeral strict i).2 := by
  have hz : (v.code i == 0x30) = false := by rw [h]; rfl
  have hw : v.digits 10 i = ([], i) := by
    simp only [digits, steps, digitsFrom, h]
    rfl
  simp only [numeral, hz, hw, Bool.false_and, Bool.false_eq_true, if_false, endNumeral_stop]
  exact Nat.lt_of_lt_of_le (v.lt_digits (digit?_of_isDecimalDigit hd)) ((v.le_decimalTail [] i).2 h)

theorem token_upTo (hc : cut ≤ v.limit) {strict : Bool} {p q : Place}
    {found : TokenKind × TokenValue} (h : v.token strict p = (.ok found, q))
    (hp : p.offset < q.offset) (hj : q.offset ≤ cut) :
    (v.upTo cut).token strict p = (.ok found, q) := by
  have hi : p.offset < cut := Nat.lt_of_lt_of_le hp hj
  have line {x : Scan} (hx : (x.1, { p with offset := x.2 }) = (Except.ok found, q)) : x =
      (.ok found, q.offset) := by
    obtain ⟨result, k⟩ := x
    cases hx
    rfl
  simp only [token, code_upTo_of_lt hc hi, isEnd_eq_false (Nat.lt_of_lt_of_le hi hc),
    isEnd_eq_false (show p.offset < (v.upTo cut).limit from hi), Bool.false_eq_true,
    if_false] at h ⊢
  split at h
  · next hs =>
    rw [if_pos hs, word_upTo hc (line h) hj, ← line h]
    exact h
  next hs =>
  rw [if_neg hs]
  split at h
  · next hs =>
    have hn := line h
    have hd : ((v.code p.offset).isDecimalDigit ||
        v.code p.offset == 0x2E && ((v.upTo cut).code (p.offset + 1)).isDecimalDigit) = true := by
      rw [Bool.or_eq_true, Bool.and_eq_true] at hs ⊢
      refine hs.imp_right fun hs => ⟨hs.1, ?_⟩
      have hl := numeral_point strict (beq_iff_eq.1 hs.1) hs.2
      rw [hn] at hl
      rw [code_upTo_of_lt hc (Nat.lt_of_lt_of_le hl hj)]
      exact hs.2
    rw [if_pos hd, numeral_upTo hc hn hi hj, ← hn]
    exact h
  next hs =>
  have hd : ¬((v.code p.offset).isDecimalDigit ||
      v.code p.offset == 0x2E && ((v.upTo cut).code (p.offset + 1)).isDecimalDigit) = true := by
    rw [Bool.not_eq_true, Bool.or_eq_false_iff, Bool.and_eq_false_iff] at hs ⊢
    exact ⟨hs.1, hs.2.imp_right (not_upTo hc rfl)⟩
  rw [if_neg hd]
  split at h
  · next hs =>
    rw [if_pos hs]
    exact string_upTo hc h hj
  next hs =>
  rw [if_neg hs]
  split at h
  · next kind length hl =>
    cases h
    have hm := @punctuator?_upTo (fun k => (v.code (p.offset + k)).toChar)
      (fun k => ((v.upTo cut).code (p.offset + k)).toChar) kind length hl
      (fun k hk => by rw [code_upTo_of_lt hc (Nat.lt_of_lt_of_le (Nat.add_lt_add_left hk _) hj)])
      (fun k => (Nat.lt_or_ge (p.offset + k) cut).imp (fun hk => by rw [code_upTo_of_lt hc hk])
        (fun hk => by rw [code_upTo_of_le hk]; rfl))
    rw [hm]
  · cases h

/-! White space, line terminators and comments. -/

theorem lineCommentEnd_upTo (hc : cut ≤ v.limit) (hn : v.Enough n i) (hm : (v.upTo cut).Enough m i)
    (hj : v.lineCommentEnd n i < cut) : (v.upTo cut).lineCommentEnd m i = v.lineCommentEnd n i := by
  induction n generalizing i m with
  | zero => exact absurd rfl hn.ne_zero
  | succ n ih =>
    cases m with
    | zero => exact absurd rfl hm.ne_zero
    | succ m =>
      have hi : i < cut := Nat.lt_of_le_of_lt (v.le_lineCommentEnd (n + 1) i) hj
      simp only [lineCommentEnd, code_upTo_of_lt hc hi, isEnd_eq_false (Nat.lt_of_lt_of_le hi hc),
        isEnd_eq_false (show i < (v.upTo cut).limit from hi), after_upTo hc hi] at hj ⊢
      split at hj
      · next ht => rw [if_pos ht, if_pos ht]
      · next ht =>
        rw [if_neg ht, if_neg ht]
        exact ih (hn.step (Nat.lt_of_lt_of_le hi hc) (v.lt_after i)) (hm.step hi (v.lt_after i)) hj

theorem blockComment_upTo (hc : cut ≤ v.limit) {p : Place} {newline : Bool}
    (hn : v.Enough n p.offset) (hm : (v.upTo cut).Enough m p.offset)
    (hd : (v.blockComment n p newline).closed = true)
    (hj : (v.blockComment n p newline).place.offset ≤ cut) :
    (v.upTo cut).blockComment m p newline = v.blockComment n p newline := by
  induction n generalizing p m newline with
  | zero => exact absurd rfl hn.ne_zero
  | succ n ih =>
    cases m with
    | zero => exact absurd rfl hm.ne_zero
    | succ m =>
      simp only [blockComment] at hd hj ⊢
      split at hd
      · cases hd
      next he =>
      rw [if_neg he] at hj ⊢
      split at hd
      · next hs =>
        rw [if_pos hs] at hj ⊢
        have hj : p.offset + 2 ≤ cut := hj
        rw [isEnd_eq_false (show p.offset < (v.upTo cut).limit from Nat.lt_of_succ_lt hj),
          code_upTo_of_lt hc (Nat.lt_of_succ_lt hj), code_upTo_of_lt hc hj, if_pos hs]
        rfl
      next hs =>
      rw [if_neg hs] at hj ⊢
      split at hd
      · next ht =>
        rw [if_pos ht] at hj ⊢
        have hl := Nat.le_trans (v.le_blockComment n (v.afterLine p) true) hj
        have hi := Nat.lt_of_lt_of_le (v.lt_afterLine p) hl
        rw [isEnd_eq_false (show p.offset < (v.upTo cut).limit from hi), code_upTo_of_lt hc hi,
          if_neg (not_upTo_second hc hs rfl), if_pos ht, afterLine_upTo hc hi hl]
        exact ih (hn.step (Nat.lt_of_lt_of_le hi hc) (v.lt_afterLine p))
          (hm.step hi (v.lt_afterLine p)) hd hj
      · next ht =>
        rw [if_neg ht] at hj ⊢
        have hl := Nat.le_trans (v.le_blockComment n { p with offset := v.after p.offset } newline)
          hj
        have hi := Nat.lt_of_lt_of_le (v.lt_after p.offset) hl
        rw [isEnd_eq_false (show p.offset < (v.upTo cut).limit from hi), code_upTo_of_lt hc hi,
          if_neg (not_upTo_second hc hs rfl), if_neg ht, after_upTo hc hi]
        exact ih (hn.step (Nat.lt_of_lt_of_le hi hc) (v.lt_after _))
          (hm.step hi (v.lt_after _)) hd hj

theorem triviaFrom_upTo (hc : cut ≤ v.limit) {p : Place} {newline : Bool} (hn : v.Enough n p.offset)
    (hm : (v.upTo cut).Enough m p.offset) (hu : (v.triviaFrom n p newline).unclosed = none)
    (hj : (v.triviaFrom n p newline).place.offset < cut) :
    (v.upTo cut).triviaFrom m p newline = v.triviaFrom n p newline := by
  induction n generalizing p m newline with
  | zero => exact absurd rfl hn.ne_zero
  | succ n ih =>
    cases m with
    | zero => exact absurd rfl hm.ne_zero
    | succ m =>
      have hi : p.offset < cut := Nat.lt_of_le_of_lt (v.triviaFrom_forward (n + 1) p newline).1 hj
      have forward (q : Place) (newline : Bool) : q.offset ≤
          (v.triviaFrom n q newline).place.offset :=
        (v.triviaFrom_forward n q newline).1
      simp only [triviaFrom, code_upTo_of_lt hc hi, isEnd_eq_false (Nat.lt_of_lt_of_le hi hc),
        isEnd_eq_false (show p.offset < (v.upTo cut).limit from hi), Bool.false_eq_true,
        if_false] at hu hj ⊢
      split at hj
      · next ht =>
        rw [if_pos ht] at hu ⊢
        rw [afterLine_upTo hc hi (Nat.le_of_lt (Nat.lt_of_le_of_lt (forward _ _) hj)), if_pos ht]
        exact ih (hn.step (Nat.lt_of_lt_of_le hi hc) (v.lt_afterLine p))
          (hm.step hi (v.lt_afterLine p)) hu hj
      next ht =>
      rw [if_neg ht] at hu ⊢
      split at hj
      · next hw =>
        rw [if_pos hw] at hu ⊢
        rw [after_upTo hc hi, if_neg ht, if_pos hw]
        exact ih (hn.step (Nat.lt_of_lt_of_le hi hc) (v.lt_after _))
          (hm.step hi (v.lt_after _)) hu hj
      next hw =>
      rw [if_neg hw] at hu ⊢
      split at hj
      · next hs =>
        rw [if_pos hs] at hu ⊢
        have hl : p.offset < v.lineCommentEnd (v.steps p.offset) p.offset :=
          v.lt_lineCommentEnd (by simpa [isEnd_eq_false (Nat.lt_of_lt_of_le hi hc)] using ht)
        have he := Nat.lt_of_le_of_lt (forward _ _) hj
        rw [code_upTo_of_lt hc (Nat.lt_of_le_of_lt hl he), if_neg ht, if_neg hw, if_pos hs,
          lineCommentEnd_upTo hc (.steps _ _) (.steps _ _) he]
        exact ih (hn.step (Nat.lt_of_lt_of_le hi hc) hl) (hm.step hi hl) hu hj
      next hs =>
      rw [if_neg hs] at hu ⊢
      split at hj
      · next hs' =>
        rw [if_pos hs'] at hu ⊢
        have hb := v.le_blockComment (v.steps p.offset) { p with offset := p.offset + 2 } newline
        split at hj
        · next hd =>
          rw [if_pos hd] at hu ⊢
          have he := Nat.lt_of_le_of_lt (forward _ _) hj
          have hl : p.offset <
              (v.blockComment (v.steps p.offset) { p with offset := p.offset + 2 }
            newline).place.offset :=
            Nat.lt_of_lt_of_le (Nat.lt_add_of_pos_right Nat.two_pos) hb
          rw [code_upTo_of_lt hc (by dsimp only at hb; omega), if_neg ht, if_neg hw,
            if_neg hs, if_pos hs',
            blockComment_upTo hc (.steps_of_le _ (Nat.le_add_right _ 2))
            (.steps_of_le _ (Nat.le_add_right _ 2)) hd
              (Nat.le_of_lt he), if_pos hd]
          exact ih (hn.step (Nat.lt_of_lt_of_le hi hc) hl) (hm.step hi hl) hu hj
        · next hd =>
          rw [if_neg hd] at hu
          cases hu
      · next hs' =>
        rw [if_neg hs'] at hu ⊢
        rw [if_neg ht, if_neg hw, if_neg (not_upTo_second hc hs rfl),
          if_neg (not_upTo_second hc hs' rfl)]

theorem trivia_upTo (hc : cut ≤ v.limit) {p : Place} (hu : (v.trivia p).unclosed = none)
    (hj : (v.trivia p).place.offset < cut) : (v.upTo cut).trivia p = v.trivia p :=
  triviaFrom_upTo hc (.steps v _) (.steps _ _) hu hj

theorem triviaFrom_again {p : Place} {newline : Bool} (hn : v.Enough n p.offset)
    (hu : (v.triviaFrom n p newline).unclosed = none) :
    v.trivia (v.triviaFrom n p newline).place =
    ⟨(v.triviaFrom n p newline).place, false, none⟩ := by
  induction n generalizing p newline with
  | zero => exact absurd rfl hn.ne_zero
  | succ n ih =>
    simp only [triviaFrom] at hu ⊢
    split
    · next he => exact v.trivia_of_isEnd he
    next he =>
    have hi := lt_limit_of_isEnd he
    rw [if_neg he] at hu
    split
    · next ht =>
      rw [if_pos ht] at hu
      exact ih (hn.step hi (v.lt_afterLine p)) hu
    next ht =>
    rw [if_neg ht] at hu
    split
    · next hw =>
      rw [if_pos hw] at hu
      exact ih (hn.step hi (v.lt_after _)) hu
    next hw =>
    rw [if_neg hw] at hu
    split
    · next hs =>
      rw [if_pos hs] at hu
      exact ih (hn.step hi (v.lt_lineCommentEnd (by simpa [he] using ht))) hu
    next hs =>
    rw [if_neg hs] at hu
    split
    · next hs' =>
      rw [if_pos hs'] at hu
      have hb := v.le_blockComment (v.steps p.offset) { p with offset := p.offset + 2 } newline
      split
      · next hd =>
        rw [if_pos hd] at hu
        exact ih (hn.step hi (Nat.lt_of_lt_of_le (Nat.lt_add_of_pos_right Nat.two_pos) hb)) hu
      · next hd =>
        rw [if_neg hd] at hu
        cases hu
    · next hs' =>
        simp only [trivia, steps, triviaFrom, if_neg he, if_neg ht, if_neg hw,
          if_neg hs, if_neg hs']

theorem trivia_again {p : Place} (hu : (v.trivia p).unclosed = none) :
    v.trivia (v.trivia p).place = ⟨(v.trivia p).place, false, none⟩ :=
  triviaFrom_again (.steps v _) hu

end EcmaFront.View
