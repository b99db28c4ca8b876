import EcmaFront.Proofs.Spelling
import Mathlib.Data.Nat.Digits.Defs

/-!
Texts that a view shows. A well-formed source shows its text from every character on, so what a
reader comes to can be told from the characters in front of it: digits and the numbers they are
those of, Unicode escapes, and the place of a lexer between what it has passed and what comes.
-/

set_option autoImplicit false

namespace EcmaFront

/-- A character is the digit of a value below the radix, in lower or upper case. -/
def Digit (radix : Nat) (d : Char) (n : Nat) : Prop :=
  n < radix ∧ (d = n.digitChar ∨ d = n.digitChar.toUpper)

instance (radix : Nat) (d : Char) (n : Nat) : Decidable (Digit radix d n) :=
  inferInstanceAs (Decidable (_ ∧ _))

/-- Digits, the most significant one first, are those of a number. -/
def Numeral (radix : Nat) (digits : List Char) (value : Nat) : Prop :=
  ∃ ns, List.Forall₂ (Digit radix) digits ns ∧ Nat.ofDigits radix ns.reverse = value

namespace CodePoint

theorem toChar_toNat (c : Char) : toChar c.toNat = c := by
  rw [toChar, if_pos (show c.toNat.isValidChar from c.valid), Char.ofNat_toNat]

theorem not_surrogate (c : Char) : ¬(0xD800 ≤ c.toNat ∧ c.toNat ≤ 0xDFFF) := by
  have h := c.valid
  simp only [UInt32.isValidChar, Nat.isValidChar, Char.toNat_val] at h
  omega

end CodePoint

def Encoding.span (e : Encoding) (text : List Char) : Nat := (text.flatMap e.units).length

namespace Encoding

variable (e : Encoding)

theorem span_cons (c : Char) (text : List Char) :
    e.span (c :: text) = e.width c.toNat + e.span text := by
  rw [span, List.flatMap_cons, List.length_append, length_units, span]

theorem span_append (a b : List Char) : e.span (a ++ b) = e.span a + e.span b := by
  rw [span, List.flatMap_append, List.length_append, span, span]

theorem span_of_ascii {text : List Char} (h : ∀ c ∈ text, c.toNat < 0x80) :
    e.span text = text.length := by
  induction text with
  | nil => rfl
  | cons c text ih =>
    rw [span_cons, e.width_of_lt (h c (.head _)), ih fun c hc => h c (.tail _ hc),
      List.length_cons, Nat.add_comm]

end Encoding

/-! Digits. -/

theorem Digit.lt {radix n : Nat} {d : Char} (hr : radix ≤ 16) (h : Digit radix d n) :
    d.toNat < 0x80 := by
  obtain ⟨hn, h⟩ := h
  have hn : n < 16 := Nat.lt_of_lt_of_le hn hr
  interval_cases n
  all_goals obtain rfl | rfl := h
  all_goals decide

theorem digit?_cases {radix n code : Nat} (h : CodePoint.digit? radix code = some n) :
    n < radix ∧ (code = 0x30 + n ∧ n < 10 ∨ 10 ≤ n ∧ (code = 0x57 + n ∨ code = 0x37 + n)) := by
  rw [CodePoint.digit?, Option.filter_eq_some_iff, decide_eq_true_eq] at h
  obtain ⟨h, hn⟩ := h
  refine ⟨hn, ?_⟩
  split at h
  · next hc =>
    have hc : 0x30 ≤ code ∧ code ≤ 0x39 := by simpa using hc
    cases h
    omega
  split at h
  · next hc =>
    have hc : 0x61 ≤ code ∧ code ≤ 0x7A := by simpa using hc
    cases h
    omega
  split at h
  · next hc =>
    have hc : 0x41 ≤ code ∧ code ≤ 0x5A := by simpa using hc
    cases h
    omega
  · cases h

theorem digit?_iff {radix n : Nat} {d : Char} (hr : radix ≤ 16) :
    CodePoint.digit? radix d.toNat = some n ↔ Digit radix d n := by
  constructor
  · intro h
    obtain ⟨hn, h⟩ := digit?_cases h
    refine ⟨hn, ?_⟩
    have hn : n < 16 := Nat.lt_of_lt_of_le hn hr
    rw [← Char.ofNat_toNat d]
    generalize d.toNat = code at h
    obtain ⟨rfl, hd⟩ | ⟨hd, rfl | rfl⟩ := h
    · interval_cases n
      all_goals exact .inl rfl
    · interval_cases n
      all_goals exact .inl rfl
    · interval_cases n
      all_goals exact .inr rfl
  · rintro ⟨hn, h⟩
    rw [CodePoint.digit?, Option.filter_eq_some_iff]
    refine ⟨?_, decide_eq_true hn⟩
    have hn : n < 16 := Nat.lt_of_lt_of_le hn hr
    interval_cases n
    all_goals obtain rfl | rfl := h
    all_goals rfl

theorem isDecimalDigit_iff {d : Char} :
    CodePoint.isDecimalDigit d.toNat = true ↔ ∃ n, Digit 10 d n := by
  constructor
  · intro h
    obtain ⟨n, h⟩ := Option.isSome_iff_exists.1 (View.digit?_of_isDecimalDigit h)
    exact ⟨n, (digit?_iff (by decide)).1 h⟩
  · rintro ⟨n, hn, h⟩
    interval_cases n
    all_goals obtain rfl | rfl := h
    all_goals rfl

def reckon (radix value : Nat) (ns : List Nat) : Nat :=
  ns.foldl (fun value n => value * radix + n) value

theorem le_reckon {radix : Nat} (hr : 0 < radix) (value : Nat) (ns : List Nat) :
    value ≤ reckon radix value ns := by
  induction ns generalizing value with
  | nil => exact Nat.le_refl value
  | cons n ns ih =>
    exact Nat.le_trans (Nat.le_add_right_of_le (Nat.le_mul_of_pos_right value hr)) (ih _)

theorem ofDigits_reverse (radix : Nat) (ns : List Nat) :
    Nat.ofDigits radix ns.reverse = reckon radix 0 ns := by
  rw [Nat.ofDigits_eq_foldr, List.foldr_reverse, reckon]
  simp only [Nat.cast_id, Nat.add_comm, Nat.mul_comm]

theorem Numeral.ascii {radix value : Nat} {digits : List Char} (hr : radix ≤ 16)
    (h : Numeral radix digits value) :
    ∀ d ∈ digits, d.toNat < 0x80 := by
  obtain ⟨ns, hd, -⟩ := h
  induction hd with
  | nil => exact nofun
  | cons hd _ ih =>
    rintro _ (_ | ⟨_, hm⟩)
    · exact hd.lt hr
    · exact ih _ hm

namespace View

/-- From an offset on the view shows a text, and ends with it. -/
def Shows (v : View) : Nat → List Char → Prop
  | i, [] => v.limit ≤ i
  | i, c :: text => i < v.limit ∧ v.code i = c.toNat ∧ v.Shows (v.after i) text

variable {v : View} {i n value : Nat} {c : Char} {ns : List Nat} {digits text rest : List Char}

namespace Shows

theorem code (h : v.Shows i text) : v.code i = (text.head?.map Char.toNat).getD 0 := by
  cases text with
  | nil => rw [View.code, if_neg (Nat.not_lt.2 h)]; rfl
  | cons c text => exact h.2.1

theorem isEnd (h : v.Shows i (c :: text)) : v.isEnd i = false := isEnd_eq_false h.1

theorem after_span (h : v.Shows i (c :: text)) (more : List Char) :
    v.after i + v.buffer.encoding.span more = i + v.buffer.encoding.span (c :: more) := by
  rw [after, Buffer.width, h.2.1, Encoding.span_cons, Nat.add_assoc]

theorem next (h : v.Shows i (c :: text)) (hc : c.toNat < 0x80) : v.Shows (i + 1) text := by
  have ha := h.2.2
  rwa [after, Buffer.width, h.2.1, Encoding.width_of_lt _ hc] at ha

theorem append {a b : List Char} (h : v.Shows i (a ++ b)) :
    v.Shows (i + v.buffer.encoding.span a) b := by
  induction a generalizing i with
  | nil => exact h
  | cons c a ih =>
    rw [← h.after_span]
    exact ih h.2.2

end Shows

theorem fixedHex_of_digits (value : Nat) (hd : List.Forall₂ (Digit 16) digits ns)
    (h : v.Shows i (digits ++ rest)) :
    v.fixedHex digits.length i value = (some (reckon 16 value ns), i + digits.length) := by
  induction hd generalizing i value with
  | nil => rfl
  | @cons d n digits ns hd _ ih =>
    rw [List.length_cons, fixedHex, h.2.1, (digit?_iff (Nat.le_refl 16)).2 hd]
    simp only [ih _ (h.next (hd.lt (Nat.le_refl 16))), Nat.add_assoc, Nat.add_comm 1]
    rfl

theorem bracedHex_of_digits (value : Nat) (any : Bool) (hd : List.Forall₂ (Digit 16) digits ns)
    (h : v.Shows i (digits ++ '\x7d' :: rest)) {k : Nat} (hk : v.Enough k i)
    (hv : reckon 16 value ns ≤ 0x10FFFF) (ha : digits = [] → any = true) :
    v.bracedHex k i value any = (some (reckon 16 value ns), i + digits.length + 1) := by
  obtain ⟨k, rfl⟩ := Nat.exists_eq_succ_of_ne_zero hk.ne_zero
  induction hd generalizing i value k any with
  | nil =>
    rw [bracedHex, h.2.1, ha rfl]
    rfl
  | @cons d n digits ns hd _ ih =>
    have hb : ¬value * 16 + n > 0x10FFFF :=
      Nat.not_lt.2 (Nat.le_trans (le_reckon (by decide) _ ns) hv)
    have hn := hk.step h.1 (Nat.lt_succ_self i)
    obtain ⟨k, rfl⟩ := Nat.exists_eq_succ_of_ne_zero hn.ne_zero
    rw [bracedHex, h.2.1, (digit?_iff (Nat.le_refl 16)).2 hd]
    simp only [if_neg hb]
    rw [ih _ _ (h.next (hd.lt (Nat.le_refl 16))) hv (fun _ => rfl) _ hn, List.length_cons,
      Nat.add_assoc i 1, Nat.add_comm 1]
    rfl

theorem unicodeEscape_of_four (hl : digits.length = 4) (hd : Numeral 16 digits value)
    (h : v.Shows i ('u' :: digits ++ rest)) : v.unicodeEscape i = (some value, i + 5) := by
  obtain ⟨ns, hd, rfl⟩ := hd
  have hs : v.Shows (i + 1) (digits ++ rest) := h.next (by decide)
  have hb : (v.code (i + 1) == 0x7B) = false := by
    cases hd with
    | nil => cases hl
    | @cons d n _ _ hd _ =>
      rw [hs.2.1, beq_eq_false_iff_ne]
      intro hx
      have hx := (digit?_iff (Nat.le_refl 16)).2 hd |>.symm.trans
        (congrArg (CodePoint.digit? 16) hx)
      cases hx
  rw [unicodeEscape, hb, ofDigits_reverse]
  have hf := fixedHex_of_digits 0 hd hs
  rwa [hl] at hf

theorem unicodeEscape_of_braced (hn : digits ≠ []) (hd : Numeral 16 digits value)
    (hv : value ≤ 0x10FFFF) (h : v.Shows i ('u' :: '\x7b' :: digits ++ '\x7d' :: rest)) :
    v.unicodeEscape i = (some value, i + digits.length + 3) := by
  obtain ⟨ns, hd, rfl⟩ := hd
  have hs : v.Shows (i + 1) ('\x7b' :: digits ++ '\x7d' :: rest) := h.next (by decide)
  rw [ofDigits_reverse] at hv ⊢
  rw [unicodeEscape, hs.2.1]
  have hf := bracedHex_of_digits 0 false hd (hs.next (by decide))
    (Enough.steps_of_le v (Nat.le_add_right i 2)) hv
    fun hx => absurd hx hn
  rw [show i + digits.length + 3 = i + 2 + digits.length + 1 by omega]
  exact hf

end View

theorem Source.Spells.shows {s : Source} {text : List Char} (h : s.Spells text) {k : Nat}
    (hk : k ≤ text.length) :
    s.view.Shows (s.start + s.buffer.encoding.offset text k) (text.drop k) := by
  induction hn : text.length - k generalizing k with
  | zero =>
    obtain rfl : k = text.length := by omega
    rw [List.drop_eq_nil_of_le (Nat.le_refl _), ← h.stop]
    exact Nat.le_refl _
  | succ n ih =>
    have hl : k < text.length := by omega
    have hc := h.viewCode hk
    rw [List.getElem?_eq_getElem hl] at hc
    rw [List.drop_eq_getElem_cons hl]
    refine ⟨h.lt_stop hl, hc, ?_⟩
    rw [h.after hl]
    exact ih hl (by omega)

/-- The lexer stands in a source between two parts of the text that the source spells. -/
structure Lexer.Between (l : Lexer) (s : Source) (before after : List Char) : Prop where
  spells : s.Spells (before ++ after)
  view : l.view = s.view
  offset : l.standing.offset = s.start + s.buffer.encoding.span before

theorem Lexer.Between.shows {l : Lexer} {s : Source} {before after : List Char}
    (h : l.Between s before after) :
    l.view.Shows l.standing.offset after := by
  rw [h.view, h.offset]
  exact (h.spells.shows (Nat.zero_le _)).append

/-! A token that nothing comes in front of. -/

theorem View.trivia_of_code {v : View} {p : Place} (hi : p.offset < v.limit)
    (hl : (v.code p.offset).isLineTerminator = false) (hw : (v.code p.offset).isWhitespace = false)
    (hs : v.code p.offset ≠ 0x2F) : v.trivia p = ⟨p, false, none⟩ := by
  rw [trivia, steps, triviaFrom]
  simp only [isEnd_eq_false hi, hl, hw, beq_eq_false_iff_ne.2 hs, Bool.false_and,
    Bool.false_eq_true, if_false]

namespace Lexer

variable {l : Lexer} {strict : Bool} {i : Nat}

theorem next_of_token {kind : TokenKind} {value : TokenValue}
    (ht : l.view.trivia l.place = ⟨l.place, false, none⟩)
    (hx : l.view.token strict l.place = (.ok (kind, value), { l.place with offset := i })) :
    (l.next strict).1 = ⟨kind, value,
      ⟨l.standing.line, l.standing.lineStart, l.standing.offset, i⟩⟩ ∧
      (l.next strict).2.standing.offset = i ∧ (l.next strict).2.fault = none := by
  rw [next, ht]
  simp only [hx]
  exact ⟨rfl, rfl, rfl⟩

theorem next_of_fault {fault : LexFault} (ht : l.view.trivia l.place = ⟨l.place, false, none⟩)
    (hx : l.view.token strict l.place = (.error fault, { l.place with offset := i })) :
    (l.next strict).1 = ⟨fault.kind, .none,
      ⟨l.standing.line, l.standing.lineStart, l.standing.offset, i⟩⟩ ∧
      (l.next strict).2.standing.offset = i ∧ (l.next strict).2.fault = some fault := by
  rw [next, ht]
  simp only [hx]
  exact ⟨rfl, rfl, rfl⟩

theorem Between.pass {m : Lexer} {s : Source} {before passed after : List Char}
    (h : l.Between s before (passed ++ after)) (hv : m.view = l.view)
    (ho : m.standing.offset = l.standing.offset + l.view.buffer.encoding.span passed) :
    m.Between s (before ++ passed) after where
  spells := by
    rw [List.append_assoc]
    exact h.spells
  view := hv.trans h.view
  offset := by
    rw [ho, h.offset, h.view, Encoding.span_append, Nat.add_assoc]
    rfl

def ofText (text : List Char) : Lexer := ofSource (.ofBuffer (.ofString (String.ofList text)) "" 1)

theorem between_ofText (text : List Char) :
    (ofText text).Between (.ofBuffer (.ofString (String.ofList text)) "" 1) [] text := by
  have ht := Source.spells_utf8 (String.ofList text) "" 1
  rw [String.toList_ofList] at ht
  exact ⟨ht, rfl, rfl⟩

end Lexer

end EcmaFront
