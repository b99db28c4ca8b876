import EcmaFront.Proofs.ShownText

/-!
The spellings of a string literal. Each character may be written in many ways, as itself or as one
of the escapes, and a line of the text may end anywhere between two of them. However it is written,
the token has the characters that were meant, and ends behind the closing quote.
-/

set_option autoImplicit false

namespace EcmaFront

/-! What may be written. -/

namespace StringLiteral

/-- The letters that stand for other characters behind a backslash. -/
def letters : List (Char × Char) :=
  [('n', '\n'), ('t', '\t'), ('r', '\r'), ('b', '\x08'), ('f', '\x0c'), ('v', '\x0b')]

def lineEnds : List (List Char) := [['\n'], ['\r'], ['\r', '\n'], ['\u2028'], ['\u2029']]

/-- What may be written behind a backslash to mean a character, with the text that comes behind
it. -/
inductive Escape (strict : Bool) : Char → List Char → List Char → Prop where
  | letter {c d : Char} {rest : List Char} (h : (d, c) ∈ letters) : Escape strict c [d] rest
  | null {rest : List Char} (h : ∀ d ∈ rest.head?, ∀ n, ¬Digit 10 d n) :
    Escape strict '\x00' ['0'] rest
  | byte {c high low : Char} {rest : List Char} (h : Numeral 16 [high, low] c.toNat) :
    Escape strict c ['x', high, low] rest
  | plane {c : Char} {digits rest : List Char} (hl : digits.length = 4)
    (h : Numeral 16 digits c.toNat) :
    Escape strict c ('u' :: digits) rest
  | pair {c : Char} {high low rest : List Char} (hc : 0x10000 ≤ c.toNat) (hh : high.length = 4)
    (hl : low.length = 4)
    (h : Numeral 16 high (0xD800 + (c.toNat - 0x10000) / 0x400))
    (h' : Numeral 16 low (0xDC00 + (c.toNat - 0x10000) % 0x400)) :
    Escape strict c ('u' :: high ++ '\\' :: 'u' :: low) rest
  | braced {c : Char} {digits rest : List Char} (hn : digits ≠ []) (h : Numeral 16 digits c.toNat) :
    Escape strict c ('u' :: '\x7b' :: digits ++ ['\x7d']) rest
  | itself {c : Char} {rest : List Char} (hl : c ∉ ['n', 't', 'r', 'b', 'f', 'v', 'x', 'u'])
    (hd : ∀ n, ¬Digit 10 c n) (ht : [c] ∉ lineEnds) : Escape strict c [c] rest
  /-- As many octal digits as there are, at most three and no more than a byte can hold. -/
  | octal {c : Char} {digits rest : List Char} (hs : strict = false) (hn : digits ≠ [])
    (h : Numeral 8 digits c.toNat) (hb : c.toNat ≤ 0xFF) (hl : digits.length ≤ 3)
    (hm : digits.length < 3 → ∀ d ∈ rest.head?, ∀ n, Digit 8 d n → 0xFF < c.toNat * 8 + n) :
    Escape strict c digits rest

/-- Characters, and what may be written for them in front of the closing quote and the text behind
it. -/
inductive Body (quote : Char) (strict : Bool) (rest : List Char) :
    List Char → List Char → Prop where
  | empty : Body quote strict rest [] []
  | raw {c : Char} {chars body : List Char} (hq : c ≠ quote) (hb : c ≠ '\\') (ht : [c] ∉ lineEnds)
    (h : Body quote strict rest chars body) : Body quote strict rest (c :: chars) (c :: body)
  | escaped {c : Char} {chars written body : List Char}
    (hw : Escape strict c written (body ++ quote :: rest)) (h : Body quote strict rest chars body) :
    Body quote strict rest (c :: chars) ('\\' :: written ++ body)
  | continued {chars line body : List Char} (hl : line ∈ lineEnds)
    (h : Body quote strict rest chars body) :
    Body quote strict rest chars ('\\' :: line ++ body)

theorem exists_body (quote : Char) (strict : Bool) (rest chars : List Char) :
    ∃ body, Body quote strict rest chars body := by
  induction chars with
  | nil => exact ⟨[], .empty⟩
  | cons c chars ih =>
    obtain ⟨body, hb⟩ := ih
    have hd : Numeral 16 ('0' :: (Nat.digits 16 c.toNat).reverse.map Nat.digitChar) c.toNat := by
      refine ⟨0 :: (Nat.digits 16 c.toNat).reverse, .cons (by decide) ?_, ?_⟩
      · rw [List.forall₂_map_left_iff, List.forall₂_same]
        exact fun n hn => ⟨Nat.digits_lt_base (by decide) (List.mem_reverse.1 hn), .inl rfl⟩
      · rw [List.reverse_cons, List.reverse_reverse, Nat.ofDigits_append, Nat.ofDigits_digits,
          Nat.ofDigits_singleton, Nat.mul_zero, Nat.add_zero]
    exact ⟨_, .escaped (.braced (List.cons_ne_nil _ _) hd) hb⟩

end StringLiteral

/-! Reading a text. -/

namespace View

variable {v : View} {i n value : Nat} {c : Char} {ns : List Nat} {digits text rest : List Char}

theorem octalEscape_of_digits (value : Nat) (hd : List.Forall₂ (Digit 8) digits ns)
    (h : v.Shows i (digits ++ rest)) {k : Nat} (hk : digits.length ≤ k)
      (hb : reckon 8 value ns ≤ 0xFF)
    (hm : digits.length < k → ∀ d ∈ rest.head?, ∀ n, Digit 8 d n →
      0xFF < reckon 8 value ns * 8 + n) :
    v.octalEscape k i value = (reckon 8 value ns, i + digits.length) := by
  induction hd generalizing i value k with
  | nil =>
    cases k with
    | zero => rfl
    | succ k =>
      have hc : v.code i = (rest.head?.map Char.toNat).getD 0 := Shows.code h
      rw [octalEscape, hc]
      cases rest with
      | nil => rfl
      | cons d rest =>
        simp only [List.head?_cons, Option.map_some, Option.getD_some]
        split
        · next n hx => exact if_pos (hm (Nat.succ_pos k) d rfl n ((digit?_iff (by decide)).1 hx))
        · rfl
  | @cons d n digits ns hd _ ih =>
    obtain ⟨k, rfl⟩ := Nat.exists_eq_succ_of_ne_zero (Nat.ne_zero_of_lt hk)
    have hn : ¬value * 8 + n > 0xFF := Nat.not_lt.2 (Nat.le_trans (le_reckon (by decide) _ ns) hb)
    rw [octalEscape, h.2.1, (digit?_iff (by decide)).2 hd]
    simp only [if_neg hn]
    rw [ih _ (h.next (hd.lt (by decide))) (Nat.le_of_succ_le_succ hk) hb fun hl =>
      hm (Nat.succ_lt_succ hl),
      List.length_cons, Nat.add_assoc i 1, Nat.add_comm 1]
    rfl

/-! Escapes. -/

open StringLiteral

variable {strict : Bool} {written : List Char}

theorem escape_letter {d : Char} (hd : (d, c) ∈ letters) (h : v.Shows i (d :: rest)) :
    v.escape strict i = (.ok c, i + 1) := by
  have hc := h.2.1
  simp only [letters, List.mem_cons, Prod.mk.injEq, List.not_mem_nil, or_false] at hd
  obtain ⟨rfl, rfl⟩ | ⟨rfl, rfl⟩ | ⟨rfl, rfl⟩ | ⟨rfl, rfl⟩ | ⟨rfl, rfl⟩ | ⟨rfl, rfl⟩ := hd
  all_goals
    rw [escape, hc]
    rfl

theorem escape_null (hd : ∀ d ∈ rest.head?, ∀ n, ¬Digit 10 d n) (h : v.Shows i ('0' :: rest)) :
    v.escape strict i = (.ok '\x00', i + 1) := by
  have hn : (v.code (i + 1)).isDecimalDigit = false := by
    rw [(h.next (by decide)).code]
    cases rest with
    | nil => rfl
    | cons d rest =>
      rw [← Bool.not_eq_true, List.head?_cons, Option.map_some, Option.getD_some,
        isDecimalDigit_iff]
      exact fun ⟨n, hx⟩ => hd d rfl n hx
  rw [escape, h.2.1, hn]
  rfl

theorem escape_byte {high low : Char} (hd : Numeral 16 [high, low] c.toNat)
    (h : v.Shows i ('x' :: high :: low :: rest)) : v.escape strict i = (.ok c, i + 3) := by
  obtain ⟨_, _ | ⟨hh, _ | ⟨hl, _ | _⟩⟩, hv⟩ := hd
  have hs : v.Shows (i + 1) (high :: low :: rest) := h.next (by decide)
  have hs' : v.Shows (i + 2) (low :: rest) := hs.next (hh.lt (Nat.le_refl 16))
  rw [ofDigits_reverse, reckon, List.foldl_cons, List.foldl_cons, List.foldl_nil, Nat.zero_mul,
    Nat.zero_add] at hv
  rw [escape, h.2.1, hs.2.1, hs'.2.1, (digit?_iff (Nat.le_refl 16)).2 hh,
    (digit?_iff (Nat.le_refl 16)).2 hl, ← CodePoint.toChar_toNat c, ← hv]
  rfl

theorem escape_unicode {code : CodePoint} (hc : v.code i = 0x75) {j : Nat}
    (h : v.stringUnicodeEscape i = (some code, j)) : v.escape strict i = (.ok code.toChar, j) := by
  rw [escape, hc, h]
  rfl

theorem stringUnicodeEscape_of_character {j : Nat} (h : v.unicodeEscape i = (some c.toNat, j)) :
    v.stringUnicodeEscape i = (some c.toNat, j) := by
  have hs : CodePoint.isHighSurrogate c.toNat = false := by
    rw [← Bool.not_eq_true, CodePoint.isHighSurrogate_iff]
    exact fun hx => CodePoint.not_surrogate c ⟨hx.1, Nat.le_trans hx.2 (by decide)⟩
  rw [stringUnicodeEscape, h]
  simp only [hs, Bool.false_and, Bool.false_eq_true, if_false]

theorem stringUnicodeEscape_of_pair {high low : List Char} (hc : 0x10000 ≤ c.toNat)
    (hh : high.length = 4) (hl : low.length = 4)
    (h : Numeral 16 high (0xD800 + (c.toNat - 0x10000) / 0x400))
    (h' : Numeral 16 low (0xDC00 + (c.toNat - 0x10000) % 0x400))
    (hs : v.Shows i ('u' :: high ++ ('\\' :: 'u' :: low ++ rest))) :
    v.stringUnicodeEscape i = (some c.toNat, i + 11) := by
  have hv := CodePoint.toNat_lt c
  have hj : v.Shows (i + 5) ('\\' :: ('u' :: low ++ rest)) := by
    have ha := hs.append
    rwa [Encoding.span_of_ascii _ (List.forall_mem_cons.2 ⟨by decide, h.ascii (Nat.le_refl 16)⟩),
      List.length_cons,
      hh] at ha
  have hu : v.Shows (i + 6) ('u' :: low ++ rest) := hj.next (by decide)
  rw [stringUnicodeEscape, unicodeEscape_of_four hh h hs]
  simp only [hj.2.1, hu.2.1, unicodeEscape_of_four hl h' hu]
  have ht : CodePoint.isHighSurrogate (0xD800 + (c.toNat - 0x10000) / 0x400) = true :=
    CodePoint.isHighSurrogate_iff.2 (by omega)
  have hw : CodePoint.isLowSurrogate (0xDC00 + (c.toNat - 0x10000) % 0x400) = true :=
    CodePoint.isLowSurrogate_iff.2 (by omega)
  have hp : CodePoint.ofSurrogates (0xD800 + (c.toNat - 0x10000) / 0x400)
      (0xDC00 + (c.toNat - 0x10000) % 0x400) =
      c.toNat := by
    show (0xD800 + (c.toNat - 0x10000) / 0x400 - 0xD800) * 0x400 +
      (0xDC00 + (c.toNat - 0x10000) % 0x400 - 0xDC00) + 0x10000 = c.toNat
    omega
  rw [ht, hw, hp]
  rfl

theorem escape_itself (hl : c ∉ ['n', 't', 'r', 'b', 'f', 'v', 'x', 'u']) (hd : ∀ n, ¬Digit 10 c n)
    (h : v.Shows i (c :: rest)) : v.escape strict i = (.ok c, i + v.buffer.encoding.span [c]) := by
  have ne (d : Char) (hx : d ∈ ['n', 't', 'r', 'b', 'f', 'v', 'x', 'u']) :
      c.toNat ≠ d.toNat := fun he =>
    hl (Char.toNat_inj.1 he ▸ hx)
  have ne' (d : Char) (n : Nat) (hx : Digit 10 d n) : c.toNat ≠ d.toNat :=
    fun he => hd n (Char.toNat_inj.1 he ▸ hx)
  have hn : letterEscape? c.toNat = none := by
    simp only [letterEscape?, beq_iff_eq, show c.toNat ≠ 0x6E from ne 'n' (by decide),
      show c.toNat ≠ 0x74 from ne 't' (by decide), show c.toNat ≠ 0x72 from ne 'r' (by decide),
      show c.toNat ≠ 0x62 from ne 'b' (by decide), show c.toNat ≠ 0x66 from ne 'f' (by decide),
      show c.toNat ≠ 0x76 from ne 'v' (by decide), if_false]
  have ho : CodePoint.digit? 8 c.toNat = none := by
    cases hx : CodePoint.digit? 8 c.toNat with
    | none => rfl
    | some n =>
      obtain ⟨hm, hx⟩ := (digit?_iff (by decide)).1 hx
      exact absurd ⟨Nat.lt_trans hm (by decide), hx⟩ (hd n)
  rw [escape, h.2.1]
  simp only [hn, ho, beq_iff_eq, Bool.and_eq_true, Bool.or_eq_true,
    show c.toNat ≠ 0x30 from ne' '0' 0 (by decide), show c.toNat ≠ 0x78 from ne 'x' (by decide),
    show c.toNat ≠ 0x75 from ne 'u' (by decide), show c.toNat ≠ 0x38 from ne' '8' 8 (by decide),
    show c.toNat ≠ 0x39 from ne' '9' 9 (by decide), false_and, or_self, and_false,
        Option.isSome_none,
    Bool.false_eq_true, if_false]
  rw [after, Buffer.width, h.2.1, CodePoint.toChar_toNat, Encoding.span_cons]
  rfl

theorem escape_of_octal {d : Char} (hd : Digit 8 d n) (hc : v.code i = d.toNat)
    (hz : (v.code i == 0x30 && !(v.code (i + 1)).isDecimalDigit) = false) :
    v.escape false i = (.ok (v.octalEscape 3 i 0).1.toChar, (v.octalEscape 3 i 0).2) := by
  simp only [escape, hz]
  rw [hc]
  clear hc hz
  obtain ⟨hn, hd⟩ := hd
  interval_cases n
  all_goals obtain rfl | rfl := hd
  all_goals rfl

theorem escape_octal (hn : digits ≠ []) (hd : Numeral 8 digits c.toNat) (hb : c.toNat ≤ 0xFF)
    (hl : digits.length ≤ 3)
    (hm : digits.length < 3 → ∀ d ∈ rest.head?, ∀ n, Digit 8 d n → 0xFF < c.toNat * 8 + n)
    (h : v.Shows i (digits ++ rest)) : v.escape false i = (.ok c, i + digits.length) := by
  obtain ⟨ns, hd, hv⟩ := hd
  rw [ofDigits_reverse] at hv
  have ho := octalEscape_of_digits 0 hd h hl (by rwa [hv]) (by rwa [hv])
  rw [hv] at ho
  obtain - | @⟨d, n, digits, ns, hd, hds⟩ := hd
  · exact absurd rfl hn
  cases hz : v.code i == 0x30 && !(v.code (i + 1)).isDecimalDigit with
  | false =>
    rw [escape_of_octal hd h.2.1 hz, ho, CodePoint.toChar_toNat]
  | true =>
    -- A zero alone is read as one that no digit follows.
    rw [Bool.and_eq_true, beq_iff_eq, h.2.1, Bool.not_eq_true'] at hz
    obtain rfl : d = '0' := Char.toNat_inj.1 hz.1
    have hs : v.Shows (i + 1) (digits ++ rest) := h.next (by decide)
    obtain - | @⟨e, m, _, _, he, -⟩ := hds
    · have hx : some 0 = some n := (digit?_iff (d := '0') (by decide)).2 hd
      cases hx
      obtain rfl : c = '\x00' := Char.toNat_inj.1 hv.symm
      refine escape_null (fun e he m hd => ?_) h
      obtain ⟨rest, rfl⟩ : ∃ tail, rest = e :: tail := List.head?_eq_some_iff.1 he
      rw [hs.2.1, isDecimalDigit_iff.2 ⟨m, hd⟩] at hz
      exact absurd hz.2 (by decide)
    · rw [hs.2.1, ← Bool.not_eq_true, isDecimalDigit_iff] at hz
      exact absurd ⟨m, Nat.lt_trans he.1 (by decide), he.2⟩ hz.2

theorem escape_of_written (hw : Escape strict c written rest) (h : v.Shows i (written ++ rest)) :
    v.escape strict i = (.ok c, i + v.buffer.encoding.span written) := by
  have span {text : List Char} (ht : ∀ x ∈ text, x.toNat < 0x80) :
      v.buffer.encoding.span text = text.length :=
    v.buffer.encoding.span_of_ascii ht
  cases hw with
  | @letter _ d _ hd =>
    have ha : ∀ x ∈ letters, x.1.toNat < 0x80 := by decide
    rw [escape_letter hd h, span (List.forall_mem_singleton.2 (ha _ hd))]
    rfl
  | null hd =>
    rw [escape_null hd h, span (List.forall_mem_singleton.2 (by decide))]
    rfl
  | @byte _ high low _ hd =>
    rw [escape_byte hd h, span (List.forall_mem_cons.2 ⟨by decide, hd.ascii (Nat.le_refl 16)⟩)]
    rfl
  | @plane _ digits _ hl hd =>
    rw [escape_unicode h.2.1 (stringUnicodeEscape_of_character (unicodeEscape_of_four hl hd h)),
      CodePoint.toChar_toNat,
      span (List.forall_mem_cons.2 ⟨by decide, hd.ascii (Nat.le_refl 16)⟩), List.length_cons, hl]
  | @pair _ high low _ hc hh hl hd hd' =>
    rw [List.append_assoc] at h
    rw [escape_unicode h.2.1 (stringUnicodeEscape_of_pair hc hh hl hd hd' h),
      CodePoint.toChar_toNat,
      span (List.forall_mem_append.2 ⟨List.forall_mem_cons.2 ⟨by decide, hd.ascii (Nat.le_refl 16)⟩,
        List.forall_mem_cons.2
        ⟨by decide, List.forall_mem_cons.2 ⟨by decide, hd'.ascii (Nat.le_refl 16)⟩⟩⟩),
      List.length_append, List.length_cons, List.length_cons, List.length_cons, hh, hl]
  | @braced _ digits _ hn hd =>
    rw [List.append_assoc] at h
    have hv : c.toNat ≤ 0x10FFFF := Nat.le_of_lt_succ (CodePoint.toNat_lt c)
    rw [escape_unicode h.2.1
      (stringUnicodeEscape_of_character (unicodeEscape_of_braced hn hd hv h)),
      CodePoint.toChar_toNat, span (List.forall_mem_append.2 ⟨List.forall_mem_cons.2 ⟨by decide,
        List.forall_mem_cons.2 ⟨by decide, hd.ascii (Nat.le_refl 16)⟩⟩,
        List.forall_mem_singleton.2 (by decide)⟩),
      List.length_append, List.length_cons, List.length_cons]
    rfl
  | itself hl hd => exact escape_itself hl hd h
  | octal hs hn hd hb hl hm =>
    rw [hs, escape_octal hn hd hb hl hm h, span (hd.ascii (by decide))]

/-! Literals. -/

theorem isLineTerminator_iff : CodePoint.isLineTerminator c.toNat = true ↔ [c] ∈ lineEnds := by
  have he (d : Char) : c.toNat = d.toNat ↔ c = d := Char.toNat_inj
  simp only [CodePoint.isLineTerminator, Bool.or_eq_true, beq_iff_eq, lineEnds, List.mem_cons,
    List.cons.injEq, and_true, List.not_mem_nil, or_false, reduceCtorEq, and_false, false_or]
  rw [← he '\n', ← he '\r', ← he '\u2028', ← he '\u2029']
  show _ ∨ _ ↔ _
  rw [or_assoc, or_assoc]
  rfl

theorem offset_afterLine_of_shows {line : List Char} (hl : line ∈ lineEnds) {p : Place}
    (h : v.Shows p.offset (line ++ text)) (ht : text.head? ≠ some '\n') :
    (v.afterLine p).offset = p.offset + v.buffer.encoding.span line := by
  have one {d : Char} (h : v.Shows p.offset (d :: text)) :
      (v.afterLine p).offset = p.offset + v.buffer.encoding.span [d] := by
    have hf : (v.code p.offset == 0x0D && v.code (p.offset + 1) == 0x0A) = false := by
      rw [← Bool.not_eq_true, Bool.and_eq_true, beq_iff_eq, beq_iff_eq, h.2.1]
      rintro ⟨hd, hx⟩
      obtain rfl : d = '\r' := Char.toNat_inj.1 hd
      have hs : v.Shows (p.offset + 1) text := h.next (by decide)
      cases text with
      | nil =>
        rw [hs.code] at hx
        cases hx
      | cons x text => exact ht (congrArg some (Char.toNat_inj.1 (hs.2.1.symm.trans hx)))
    rw [afterLine, hf, after, Buffer.width, h.2.1, Encoding.span_cons]
    rfl
  simp only [lineEnds, List.mem_cons, List.not_mem_nil, or_false] at hl
  obtain rfl | rfl | rfl | rfl | rfl := hl
  · exact one h
  · exact one h
  · have hs : v.Shows (p.offset + 1) ('\n' :: text) := h.next (by decide)
    rw [afterLine, h.2.1, hs.2.1,
      Encoding.span_of_ascii _
      (List.forall_mem_cons.2 ⟨by decide, List.forall_mem_singleton.2 (by decide)⟩)]
    rfl
  · exact one h
  · exact one h

theorem cons_of_lineEnd {line : List Char} (hl : line ∈ lineEnds) :
    ∃ d tail, line = d :: tail ∧ CodePoint.isLineTerminator d.toNat = true := by
  simp only [lineEnds, List.mem_cons, List.not_mem_nil, or_false] at hl
  obtain rfl | rfl | rfl | rfl | rfl := hl
  all_goals exact ⟨_, _, rfl, by decide⟩

theorem head?_ne_of_body {quote : Char} {chars body : List Char} (hq : quote ≠ '\n')
    (hb : Body quote strict rest chars body) : (body ++ quote :: rest).head? ≠ some '\n' := by
  cases hb with
  | empty => exact fun h => hq (Option.some.inj h)
  | raw _ _ ht =>
    intro h
    cases h
    exact ht (by decide)
  | escaped => exact fun h => nomatch h
  | continued => exact fun h => nomatch h

theorem cons_of_escape (hw : Escape strict c written rest) :
    ∃ d tail, written = d :: tail ∧ [d] ∉ lineEnds := by
  have digit {radix : Nat} {d : Char} {n : Nat} (hr : radix ≤ 16) (hd : Digit radix d n) :
      [d] ∉ lineEnds := by
    intro hl
    have hl : d.toNat = 0x0A ∨ d.toNat = 0x0D ∨ d.toNat = 0x2028 ∨ d.toNat = 0x2029 := by
      simpa only [CodePoint.isLineTerminator, Bool.or_eq_true, beq_iff_eq,
        or_assoc] using isLineTerminator_iff.2 hl
    have hb := hd.lt hr
    have hc := digit?_cases ((digit?_iff hr).2 hd)
    omega
  cases hw with
  | letter hd =>
    have ha : ∀ x ∈ letters, [x.1] ∉ lineEnds := by decide
    exact ⟨_, _, rfl, ha _ hd⟩
  | null => exact ⟨_, _, rfl, by decide⟩
  | byte => exact ⟨_, _, rfl, by decide⟩
  | plane => exact ⟨_, _, rfl, by decide⟩
  | pair => exact ⟨_, _, rfl, by decide⟩
  | braced => exact ⟨_, _, rfl, by decide⟩
  | itself _ _ ht => exact ⟨_, _, rfl, ht⟩
  | octal _ hn hd =>
    obtain ⟨_, - | ⟨hd, -⟩, -⟩ := hd
    · exact absurd rfl hn
    · exact ⟨_, _, rfl, digit (by decide) hd⟩

variable {quote : Char} {chars body : List Char}

theorem stringFrom_of_backslash {quote : CodePoint} {p : Place} (hi : p.offset < v.limit)
    (hc : v.code p.offset = 0x5C) (hq : (0x5C == quote) = false) (read : List Char) :
    v.stringFrom quote strict (n + 1) p read =
      (if v.isEnd (p.offset + 1) then (.error .unterminatedString,
        { p with offset := p.offset + 1 })
      else if (v.code (p.offset + 1)).isLineTerminator then
        v.stringFrom quote strict n (v.afterLine { p with offset := p.offset + 1 }) read
      else
        match v.escape strict (p.offset + 1) with
        | (.ok c, offset) => v.stringFrom quote strict n { p with offset } (c :: read)
        | (.error fault, offset) => (.error fault, { p with offset })) := by
  rw [stringFrom, hc, isEnd_eq_false hi, hq]
  rfl

theorem stringFrom_of_body (hq : quote = '"' ∨ quote = '\'')
    (hb : Body quote strict rest chars body) {p : Place}
    (h : v.Shows p.offset (body ++ quote :: rest)) (hn : v.Enough n p.offset) (read : List Char) :
    ∃ q, v.stringFrom quote.toNat strict n p read =
        (.ok (.string, .text (String.ofList (read.reverse ++ chars))), q) ∧
      q.offset = p.offset + v.buffer.encoding.span body + 1 := by
  have hql : CodePoint.isLineTerminator quote.toNat = false := by obtain rfl | rfl := hq <;> decide
  have hqb : (0x5C == quote.toNat) = false := by obtain rfl | rfl := hq <;> decide
  have hqn : quote ≠ '\n' := by obtain rfl | rfl := hq <;> decide
  induction hb generalizing p n read with
  | empty =>
    obtain ⟨n, rfl⟩ := Nat.exists_eq_succ_of_ne_zero hn.ne_zero
    refine ⟨{ p with offset := p.offset + 1 }, ?_, rfl⟩
    simp only [stringFrom, h.isEnd, h.2.1, hql, Bool.or_self, Bool.false_eq_true, if_false,
      beq_self_eq_true, if_true, List.append_nil]
  | @raw c chars body hcq hcb ht hb ih =>
    obtain ⟨n, rfl⟩ := Nat.exists_eq_succ_of_ne_zero hn.ne_zero
    obtain ⟨q, hr, ho⟩ := ih (p := { p with offset := v.after p.offset }) h.2.2
      (hn.step h.1 (v.lt_after p.offset)) (c :: read)
    refine ⟨q, ?_, ?_⟩
    · rw [← isLineTerminator_iff, Bool.not_eq_true] at ht
      simp only [stringFrom, h.isEnd, h.2.1, ht, Bool.or_self, Bool.false_eq_true, if_false,
        beq_iff_eq, bne_iff_ne, Char.toNat_inj, hcq,
        show c.toNat ≠ 0x5C from fun hx => hcb (Char.toNat_inj.1 hx), ne_eq, not_false_eq_true,
        if_true, CodePoint.toChar_toNat]
      rw [hr, List.reverse_cons, List.append_assoc]
      rfl
    · rw [ho, after, Buffer.width, h.2.1, Encoding.span_cons, Nat.add_assoc p.offset]
  | @escaped c chars written body hw hb ih =>
    obtain ⟨n, rfl⟩ := Nat.exists_eq_succ_of_ne_zero hn.ne_zero
    have hs : v.Shows (p.offset + 1) (written ++ (body ++ quote :: rest)) := by
      rw [← List.append_assoc]
      exact h.next (by decide)
    have hx := escape_of_written hw hs
    obtain ⟨q, hr, ho⟩ :=
      ih (p := { p with offset := p.offset + 1 + v.buffer.encoding.span written }) hs.append
      (hn.step h.1 (Nat.lt_add_right _ (Nat.lt_succ_self _))) (c :: read)
    refine ⟨q, ?_, ?_⟩
    · obtain ⟨d, tail, rfl, hd⟩ := cons_of_escape hw
      rw [← isLineTerminator_iff, Bool.not_eq_true, ← hs.2.1] at hd
      rw [stringFrom_of_backslash h.1 h.2.1 hqb,
        show v.isEnd (p.offset + 1) = false from hs.isEnd, hd, hx]
      simp only [Bool.false_eq_true, if_false]
      rw [hr, List.reverse_cons, List.append_assoc]
      rfl
    · rw [ho, List.cons_append, Encoding.span_cons, Encoding.span_append,
        v.buffer.encoding.width_of_lt (by decide)]
      simp only [Nat.add_assoc]
  | @continued chars line body hl hb ih =>
    obtain ⟨n, rfl⟩ := Nat.exists_eq_succ_of_ne_zero hn.ne_zero
    have hs : v.Shows (p.offset + 1) (line ++ (body ++ quote :: rest)) := by
      rw [← List.append_assoc]
      exact h.next (by decide)
    have ha := offset_afterLine_of_shows hl (p := { p with offset := p.offset + 1 }) hs
      (head?_ne_of_body hqn hb)
    obtain ⟨q, hr, ho⟩ :=
      ih (p := v.afterLine { p with offset := p.offset + 1 }) (by rw [ha]; exact hs.append)
      (hn.step h.1 (Nat.lt_trans (Nat.lt_succ_self _)
        (v.lt_afterLine { p with offset := p.offset + 1 }))) read
    refine ⟨q, ?_, ?_⟩
    · obtain ⟨d, tail, rfl, hd⟩ := cons_of_lineEnd hl
      rw [← hs.2.1] at hd
      rw [stringFrom_of_backslash h.1 h.2.1 hqb,
        show v.isEnd (p.offset + 1) = false from hs.isEnd, hd]
      exact hr
    · rw [ho, ha, List.cons_append, Encoding.span_cons, Encoding.span_append,
        v.buffer.encoding.width_of_lt (by decide)]
      simp only [Nat.add_assoc]

theorem trivia_of_quote {p : Place} (hq : quote = '"' ∨ quote = '\'')
    (h : v.Shows p.offset (quote :: text)) :
    v.trivia p = ⟨p, false, none⟩ := by
  rw [trivia, steps, triviaFrom]
  simp only [h.isEnd, h.2.1]
  obtain rfl | rfl := hq
  all_goals rfl

theorem token_of_quote {p : Place} (hq : quote = '"' ∨ quote = '\'')
    (h : v.Shows p.offset (quote :: text)) :
    v.token strict p = v.string strict p := by
  simp only [token, h.isEnd, h.2.1]
  obtain rfl | rfl := hq
  all_goals rfl

end View

/-- However the characters of a string literal are spelled, the token has them, and ends behind the
closing quote. -/
theorem Lexer.next_string {s : Source} {l : Lexer} {strict : Bool} {quote : Char}
    {chars before body rest : List Char}
    (hq : quote = '"' ∨ quote = '\'') (hb : StringLiteral.Body quote strict rest chars body)
    (ht : s.Spells (before ++ quote :: (body ++ quote :: rest))) (hv : l.view = s.view)
    (ho : l.standing.offset = s.start + s.buffer.encoding.span before) :
    (l.next strict).1 = ⟨.string, .text (String.ofList chars),
      ⟨l.standing.line, l.standing.lineStart,
        l.standing.offset, l.standing.offset + s.buffer.encoding.span
          (quote :: (body ++ [quote]))⟩⟩ ∧
      (l.next strict).2.standing.offset = l.standing.offset + s.buffer.encoding.span
        (quote :: (body ++ [quote])) ∧
      (l.next strict).2.fault = none := by
  have hw : s.buffer.encoding.width quote.toNat = 1 := by
    obtain rfl | rfl := hq
    all_goals exact Encoding.width_of_lt _ (by decide)
  have hs : l.view.Shows l.place.offset (quote :: (body ++ quote :: rest)) := by
    rw [hv, show l.place.offset = s.start + s.buffer.encoding.span before from ho]
    exact (ht.shows (Nat.zero_le _)).append
  have hs' : l.view.Shows (l.place.offset + 1) (body ++ quote :: rest) :=
    hs.next (by obtain rfl | rfl := hq <;> decide)
  obtain ⟨q, hr, hq'⟩ :=
    View.stringFrom_of_body hq hb (p := { l.place with offset := l.place.offset + 1 }) hs'
    (View.Enough.steps_of_le l.view (Nat.le_succ l.place.offset)) []
  have hx : l.view.token strict l.place = (.ok (.string, .text (String.ofList chars)), q) := by
    rw [View.token_of_quote hq hs, View.string, hs.2.1]
    exact hr
  have hstop : q.offset =
      l.standing.offset + s.buffer.encoding.span (quote :: (body ++ [quote])) := by
    rw [hq', Encoding.span_cons, Encoding.span_append, Encoding.span_cons, hw,
      show l.view.buffer = s.buffer from
      congrArg View.buffer hv]
    show l.standing.offset + 1 + _ + 1 = l.standing.offset + (1 + (_ + (1 + 0)))
    omega
  rw [next, View.trivia_of_quote hq hs]
  simp only [hx, hstop]
  exact ⟨rfl, hstop, rfl⟩

/-- A byte, a line that ends within the literal, a pair, and an octal escape that a digit
follows. -/
theorem Lexer.next_string_mixed :
    ((ofSource (.ofBuffer
      (.ofString (String.ofList ['"', '\\', 'x', '4', '1', '\\', '\r', '\n', '\\', 'u', 'd', '8',
        '3', 'd', '\\', 'u', 'D', 'E', '0', '0', '\\', '7', '8', '"', ';'])) "" 1)).next false).1 =
      ⟨.string, .text (String.ofList ['A', '😀', '\x07', '8']), ⟨1, 0, 0, 24⟩⟩ := by
  have octal : Numeral 8 ['7'] '\x07'.toNat := ⟨[7], .cons (by decide) .nil, by decide⟩
  have byte : Numeral 16 ['4', '1'] 'A'.toNat :=
    ⟨[4, 1], .cons (by decide) (.cons (by decide) .nil), by decide⟩
  have high : Numeral 16 ['d', '8', '3', 'd'] (0xD800 + ('😀'.toNat - 0x10000) / 0x400) :=
    ⟨[13, 8, 3, 13], .cons (by decide)
      (.cons (by decide) (.cons (by decide) (.cons (by decide) .nil))), by decide⟩
  have low : Numeral 16 ['D', 'E', '0', '0'] (0xDC00 + ('😀'.toNat - 0x10000) % 0x400) :=
    ⟨[13, 14, 0, 0], .cons (by decide)
      (.cons (by decide) (.cons (by decide) (.cons (by decide) .nil))), by decide⟩
  have eight (n : Nat) : ¬Digit 8 '8' n := fun h => nomatch (digit?_iff (by decide)).2 h
  have hb : StringLiteral.Body '"' false [';'] ['\x07', '8'] ['\\', '7', '8'] :=
    .escaped (.octal rfl (by decide) octal (by decide) (by decide) fun _ _ hd n hn => by
      cases hd
      exact (eight n hn).elim)
      (.raw (by decide) (by decide) (by decide) .empty)
  have hb : StringLiteral.Body '"' false [';'] ['😀', '\x07', '8']
      ['\\', 'u', 'd', '8', '3', 'd', '\\', 'u', 'D', 'E', '0', '0', '\\', '7', '8'] :=
    .escaped (.pair (by decide) rfl rfl high low) hb
  have hb : StringLiteral.Body '"' false [';'] ['A', '😀', '\x07', '8'] ['\\', 'x', '4', '1',
      '\\', '\r', '\n',
      '\\', 'u', 'd', '8', '3', 'd', '\\', 'u', 'D', 'E', '0', '0', '\\', '7', '8'] :=
    .escaped (.byte byte) (.continued (show ['\r', '\n'] ∈ _ by decide) hb)
  have ht := Source.spells_utf8
    (String.ofList ('"' :: (['\\', 'x', '4', '1', '\\', '\r', '\n', '\\', 'u', 'd', '8',
    '3', 'd', '\\', 'u', 'D', 'E', '0', '0', '\\', '7', '8'] ++ ['"', ';']))) "" 1
  rw [String.toList_ofList] at ht
  exact (next_string (.inl rfl) hb (show Source.Spells _ ([] ++ _) from ht) rfl rfl).1

end EcmaFront
