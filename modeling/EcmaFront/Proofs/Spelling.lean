import EcmaFront.Proofs.ByteSequence

/-!
Sources that spell a text: their units are those of its characters, one after another. Where a
character begins its units are decoded to it, and no further unit is reached.
-/

set_option autoImplicit false

namespace EcmaFront

theorem CodePoint.toNat_lt (c : Char) : c.toNat < 0x110000 := by
  have h := c.valid
  simp only [UInt32.isValidChar, Nat.isValidChar, Char.toNat_val] at h
  omega

theorem CodePoint.isHighSurrogate_iff {n : Nat} :
    isHighSurrogate n = true ↔ 0xD800 ≤ n ∧ n ≤ 0xDBFF := by
  simp only [isHighSurrogate, Bool.and_eq_true, decide_eq_true_eq]

theorem CodePoint.isLowSurrogate_iff {n : Nat} :
    isLowSurrogate n = true ↔ 0xDC00 ≤ n ∧ n ≤ 0xDFFF := by
  simp only [isLowSurrogate, Bool.and_eq_true, decide_eq_true_eq]

def Encoding.units (e : Encoding) (c : Char) : List Nat :=
  match e with
  | .ascii => [c.toNat]
  | .utf8 => (String.utf8EncodeChar c).map UInt8.toNat
  | .utf16 => (Buffer.unitsOfChar c).map UInt16.toNat

theorem Encoding.units_utf8 (c : Char) : utf8.units c = CodePoint.bytes c.toNat := by
  have hv := CodePoint.toNat_lt c
  have hw := (CodePoint.width_utf8 (Nat.lt_trans hv (by decide))).symm.trans (utf8_width_eq c.toNat)
  have hb (n : Nat) (hn : n < 0x100) : (UInt8.ofNat n).toNat = n := by
    rw [UInt8.toNat_ofNat']
    exact Nat.mod_eq_of_lt hn
  simp only [units, String.utf8EncodeChar, Char.toNat_val, CodePoint.bytes]
  generalize c.toNat = v at *
  generalize CodePoint.followers v = n at hw ⊢
  have hn : v ≤ 127 ∧ n = 0 ∨ 127 < v ∧ v ≤ 2047 ∧ n = 1 ∨ 2047 < v ∧ v ≤ 65535 ∧ n = 2 ∨
      65535 < v ∧ n = 3 := by
    repeat' split at hw
    all_goals omega
  obtain ⟨h, rfl⟩ | ⟨hl, h, rfl⟩ | ⟨hl, h, rfl⟩ | ⟨hl, rfl⟩ := hn
  · rw [if_pos h]
    exact congrArg (fun x => [x]) (hb v (by omega))
  · rw [if_neg (by omega), if_pos h]
    simp only [CodePoint.sequence, CodePoint.lead, CodePoint.trail, List.map_cons, List.map_nil,
      UInt8.toNat_ofNat', List.cons.injEq, and_true]
    omega
  · rw [if_neg (by omega), if_neg (by omega), if_pos h]
    simp only [CodePoint.sequence, CodePoint.lead, CodePoint.trail, List.map_cons, List.map_nil,
      UInt8.toNat_ofNat', List.cons.injEq, and_true]
    omega
  · rw [if_neg (by omega), if_neg (by omega), if_neg (by omega)]
    simp only [CodePoint.sequence, CodePoint.lead, CodePoint.trail, List.map_cons, List.map_nil,
      UInt8.toNat_ofNat', List.cons.injEq, and_true]
    omega

theorem Encoding.length_units (e : Encoding) (c : Char) : (e.units c).length = e.width c.toNat := by
  cases e with
  | ascii => rfl
  | utf8 =>
    rw [units_utf8, CodePoint.bytes, CodePoint.length_sequence,
      CodePoint.width_utf8 (Nat.lt_trans (CodePoint.toNat_lt c) (by decide))]
  | utf16 =>
    simp only [units, Buffer.unitsOfChar, width]
    split <;> rfl

namespace Buffer

def Holds (b : Buffer) (i : Nat) (units : List Nat) : Prop :=
  ∀ k unit, units[k]? = some unit → b.unit (i + k) = unit

theorem decodeBytes_units {unit : Nat → Nat} {i : Nat} {c : Char}
    (h : ∀ k x, (Encoding.utf8.units c)[k]? = some x → unit (i + k) = x) :
    decodeBytes unit i = c.toNat ∧ leadReach (unit i) = Encoding.utf8.width c.toNat := by
  have hr : c.toNat < CodePoint.room 5 := Nat.lt_trans (CodePoint.toNat_lt c) (by decide)
  obtain ⟨hn, hr', -⟩ := CodePoint.followers_spec hr
  rw [Encoding.units_utf8] at h
  rw [CodePoint.width_utf8 hr]
  exact decodeBytes_sequence hn hr' h

theorem decodePair_units {unit : Nat → Nat} {i : Nat} {c : Char}
    (h : ∀ k x, (Encoding.utf16.units c)[k]? = some x → unit (i + k) = x) :
    decodePair unit i = c.toNat ∧
      (if CodePoint.isHighSurrogate (unit i) then 2 else 1) = Encoding.utf16.width c.toNat := by
  have hv := c.valid
  have hb (n : Nat) (hn : n < 0x10000) : (UInt16.ofNat n).toNat = n := by
    rw [UInt16.toNat_ofNat']
    exact Nat.mod_eq_of_lt hn
  simp only [UInt32.isValidChar, Nat.isValidChar, Char.toNat_val] at hv
  simp only [Encoding.units, unitsOfChar] at h
  simp only [Encoding.width]
  generalize c.toNat = v at *
  split at h
  · next hs =>
    have h₀ : unit i = v := (h 0 _ rfl).trans (hb _ hs)
    have hh : CodePoint.isHighSurrogate v = false := by
      rw [← Bool.not_eq_true, CodePoint.isHighSurrogate_iff]
      omega
    simp only [decodePair, h₀, hh, Bool.false_and, Bool.false_eq_true, if_false,
      if_pos hs, and_self]
  · next hs =>
    have h₀ : unit i = 0xD800 + (v - 0x10000) / 0x400 := (h 0 _ rfl).trans (hb _ (by omega))
    have h₁ : unit (i + 1) = 0xDC00 + (v - 0x10000) % 0x400 := (h 1 _ rfl).trans (hb _ (by omega))
    have hh : CodePoint.isHighSurrogate (unit i) = true :=
      CodePoint.isHighSurrogate_iff.2 (by omega)
    have hl : CodePoint.isLowSurrogate (unit (i + 1)) = true :=
      CodePoint.isLowSurrogate_iff.2 (by omega)
    have hc : CodePoint.ofSurrogates (unit i) (unit (i + 1)) = v :=
      show (unit i - 0xD800) * 0x400 + (unit (i + 1) - 0xDC00) + 0x10000 = v by omega
    simp only [decodePair, hh, hl, Bool.and_self, if_true, if_neg hs, hc, and_self]

theorem code_of_holds {b : Buffer} {i : Nat} {c : Char} (h : b.Holds i (b.encoding.units c)) :
    b.code i = c.toNat ∧ b.reach i = b.encoding.width c.toNat := by
  cases b with
  | ascii => exact ⟨h 0 _ rfl, rfl⟩
  | utf8 => exact decodeBytes_units h
  | utf16 => exact decodePair_units h

theorem Holds.append {b : Buffer} {i : Nat} {us vs : List Nat} (h : b.Holds i (us ++ vs)) :
    b.Holds i us ∧ b.Holds (i + us.length) vs := by
  refine ⟨fun k unit hk => h k unit ?_, fun k unit hk => ?_⟩
  · rw [List.getElem?_append_left (List.getElem?_eq_some_iff.1 hk).1, hk]
  · rw [Nat.add_assoc]
    refine h _ unit ?_
    rw [List.getElem?_append_right (Nat.le_add_right _ _), Nat.add_sub_cancel_left, hk]

end Buffer

/-- Where a character of a text begins, by its number: how many units the characters before it
take. -/
def Encoding.offset (e : Encoding) (text : List Char) (k : Nat) : Nat :=
  ((text.take k).flatMap e.units).length

theorem Encoding.offset_succ (e : Encoding) {text : List Char} {k : Nat} (hk : k < text.length) :
    e.offset text (k + 1) = e.offset text k + e.width text[k].toNat := by
  rw [offset, List.take_succ_eq_append_getElem hk, List.flatMap_append, List.length_append,
    List.flatMap_singleton, length_units, offset]

theorem Encoding.offset_mono (e : Encoding) {text : List Char} {k m : Nat} (h : k ≤ m)
    (hm : m ≤ text.length) :
    e.offset text k ≤ e.offset text m := by
  induction m with
  | zero => rw [Nat.le_zero.1 h]
  | succ m ih =>
    obtain rfl | hk := Nat.eq_or_lt_of_le h
    · exact Nat.le_refl _
    · rw [e.offset_succ hm]
      exact Nat.le_add_right_of_le (ih (Nat.le_of_lt_succ hk) (Nat.le_of_lt hm))

/-- The view of a source ends where a text does whose units it holds. -/
structure Source.Spells (s : Source) (text : List Char) : Prop where
  inside : s.stop ≤ s.buffer.size
  stop : s.stop = s.start + s.buffer.encoding.offset text text.length
  holds : s.buffer.Holds s.start (text.flatMap s.buffer.encoding.units)

namespace Source.Spells

variable {s t : Source} {text : List Char} {k : Nat}

theorem lt_stop (h : s.Spells text) (hk : k < text.length) :
    s.start + s.buffer.encoding.offset text k < s.stop := by
  have hm := s.buffer.encoding.offset_mono hk (Nat.le_refl text.length)
  have hp := s.buffer.encoding.width_pos text[k].toNat
  rw [s.buffer.encoding.offset_succ hk] at hm
  rw [h.stop]
  omega

theorem isEnd (h : s.Spells text) (hk : k ≤ text.length) :
    s.view.isEnd (s.start + s.buffer.encoding.offset text k) = decide (k = text.length) := by
  obtain rfl | hk := Nat.eq_or_lt_of_le hk
  · simp [View.isEnd, view, h.stop]
  · rw [View.isEnd_eq_false (h.lt_stop hk), decide_eq_false (Nat.ne_of_lt hk)]

theorem code (h : s.Spells text) (hk : k < text.length) :
    s.buffer.code (s.start + s.buffer.encoding.offset text k) = text[k].toNat ∧
      s.buffer.reach (s.start + s.buffer.encoding.offset text k) =
      s.buffer.encoding.width text[k].toNat := by
  have hs : text = text.take k ++ ([text[k]] ++ text.drop (k + 1)) := by
    rw [List.singleton_append, ← List.drop_eq_getElem_cons hk, List.take_append_drop]
  have hh := h.holds
  rw [hs, List.flatMap_append, List.flatMap_append, List.flatMap_singleton] at hh
  exact Buffer.code_of_holds hh.append.2.append.1

theorem viewCode (h : s.Spells text) (hk : k ≤ text.length) :
    s.view.code (s.start + s.buffer.encoding.offset text k) = (text[k]?.map Char.toNat).getD 0 := by
  obtain rfl | hk := Nat.eq_or_lt_of_le hk
  · rw [List.getElem?_eq_none (Nat.le_refl _), View.code, if_neg]
    · rfl
    · exact Nat.not_lt.2 (Nat.le_of_eq h.stop)
  · rw [View.code, if_pos (show _ < s.view.limit from h.lt_stop hk), List.getElem?_eq_getElem hk]
    exact (h.code hk).1

theorem after (h : s.Spells text) (hk : k < text.length) :
    s.view.after (s.start + s.buffer.encoding.offset text k) =
    s.start + s.buffer.encoding.offset text (k + 1) := by
  rw [View.after, h.viewCode (Nat.le_of_lt hk), List.getElem?_eq_getElem hk,
    s.buffer.encoding.offset_succ hk, Nat.add_assoc]
  rfl

theorem of_reached (h : s.Spells text) {i : Nat} (hi : s.view.Reached s.start i) :
    ∃ k ≤ text.length, i = s.start + s.buffer.encoding.offset text k := by
  induction hi with
  | start => exact ⟨0, Nat.zero_le _, rfl⟩
  | after _ hl ih =>
    obtain ⟨k, hk, rfl⟩ := ih
    obtain rfl | hk := Nat.eq_or_lt_of_le hk
    · rw [← h.stop] at hl
      exact absurd hl (Nat.lt_irrefl _)
    · exact ⟨k + 1, hk, h.after hk⟩

/-- Sources that spell a text show the same, in whichever encodings. -/
def mirror (hs : s.Spells text) (ht : t.Spells text) : View.Mirror s.view t.view where
  pairs i j := ∃ k ≤ text.length,
    i = s.start + s.buffer.encoding.offset text k ∧ j = t.start + t.buffer.encoding.offset text k
  lines i j := ∃ k ≤ text.length,
    i = s.start + s.buffer.encoding.offset text k ∧ j = t.start + t.buffer.encoding.offset text k
  ofPairs := id
  isEnd := by
    rintro _ _ ⟨k, hk, rfl, rfl⟩
    rw [hs.isEnd hk, ht.isEnd hk]
  code := by
    rintro _ _ ⟨k, hk, rfl, rfl⟩
    rw [hs.viewCode hk, ht.viewCode hk]
  after := by
    rintro _ _ ⟨k, hk, rfl, rfl⟩ hi
    obtain rfl | hk := Nat.eq_or_lt_of_le hk
    · rw [← hs.stop] at hi
      exact absurd hi (Nat.lt_irrefl _)
    · exact ⟨k + 1, hk, hs.after hk, ht.after hk⟩

end Source.Spells

/-- Some text is what the units of the source stand for. -/
def Source.WellFormed (s : Source) : Prop := ∃ text, s.Spells text

theorem Source.WellFormed.overhangsBy_zero {s : Source} (h : s.WellFormed) :
    s.view.OverhangsBy s.start 0 := by
  obtain ⟨text, h⟩ := h
  intro i hr hi
  obtain ⟨k, hk, rfl⟩ := h.of_reached hr
  obtain rfl | hk := Nat.eq_or_lt_of_le hk
  · rw [← h.stop] at hi
    exact absurd hi (Nat.lt_irrefl _)
  · have hm := s.buffer.encoding.offset_mono hk (Nat.le_refl text.length)
    rw [show s.view.buffer = s.buffer from rfl, (h.code hk).2, Nat.add_assoc,
      ← s.buffer.encoding.offset_succ hk]
    exact Nat.le_trans (Nat.add_le_add_left hm _) (Nat.le_of_eq h.stop.symm)

/-! Strings. -/

theorem Source.spells_ofBuffer {b : Buffer} {text : List Char} (url : String) (line : Nat)
    (h : b.size = (text.flatMap b.encoding.units).length)
    (hh : b.Holds 0 (text.flatMap b.encoding.units)) :
    (ofBuffer b url line).Spells text :=
  ⟨Nat.le_refl _, by
    rw [Encoding.offset, List.take_length,
      show (ofBuffer b url line).start = 0 from rfl, Nat.zero_add]
    exact h, hh⟩

theorem Buffer.bytesOfString_eq (text : String) :
    bytesOfString text = (text.toList.flatMap String.utf8EncodeChar).toArray := by
  rw [bytesOfString, String.toUTF8, ← String.utf8Encode_toList, List.utf8Encode,
    List.data_toByteArray]

theorem Source.spells_utf8 (text url : String) (line : Nat) :
    (ofBuffer (Buffer.ofString text) url line).Spells text.toList := by
  have he : text.toList.flatMap Encoding.utf8.units =
      (text.toList.flatMap String.utf8EncodeChar).map UInt8.toNat := by
    rw [List.map_flatMap]
    rfl
  refine spells_ofBuffer url line ?_ fun k unit hk => ?_
  · simp only [Buffer.ofString, Buffer.encoding, Buffer.size, Buffer.bytesOfString_eq, he,
      List.size_toArray, List.length_map]
  · simp only [Buffer.ofString, Buffer.encoding, he, List.getElem?_map] at hk
    simp only [Buffer.ofString, Buffer.unit, Buffer.bytesOfString_eq, Nat.zero_add,
      List.getElem?_toArray, hk, Option.getD_some]

theorem Source.spells_utf16 (text url : String) (line : Nat) :
    (ofBuffer (.utf16 (Buffer.unitsOfString text)) url line).Spells text.toList := by
  have he : text.toList.flatMap Encoding.utf16.units =
      (text.toList.flatMap Buffer.unitsOfChar).map UInt16.toNat := by
    rw [List.map_flatMap]
    rfl
  refine spells_ofBuffer url line ?_ fun k unit hk => ?_
  · simp only [Buffer.encoding, Buffer.size, Buffer.unitsOfString, he, List.size_toArray,
      List.length_map]
  · simp only [Buffer.encoding, he, List.getElem?_map] at hk
    simp only [Buffer.unit, Buffer.unitsOfString, Nat.zero_add, List.getElem?_toArray, hk,
      Option.getD_some]

/-! Tokens of a text. -/

/-- Offsets in two encodings at which the same character of a text begins, or at which both end. -/
def Encoding.SamePlace (e f : Encoding) (text : List Char) (i j : Nat) : Prop :=
  ∃ k ≤ text.length, i = e.offset text k ∧ j = f.offset text k

/-- How a text is stored is not to be seen from its tokens: they tell the same, and begin and end at
the same characters, as do their lines. -/
theorem Lexer.tokens_of_text (text url : String) (line : Nat) (requests : List Request) :
    List.Forall₂
      (fun t u => t.Agree u ∧
        Encoding.utf8.SamePlace .utf16 text.toList t.extent.lineStart u.extent.lineStart ∧
        Encoding.utf8.SamePlace .utf16 text.toList t.extent.start u.extent.start ∧
        Encoding.utf8.SamePlace .utf16 text.toList t.extent.stop u.extent.stop)
      ((ofSource (.ofBuffer (.ofString text) url line)).tokens requests)
      ((ofSource (.ofBuffer (.utf16 (Buffer.unitsOfString text)) url line)).tokens requests) := by
  let M := (Source.spells_utf8 text url line).mirror (Source.spells_utf16 text url line)
  have same {i j : Nat} (h : M.pairs i j) : Encoding.utf8.SamePlace .utf16 text.toList i j := by
    obtain ⟨k, hk, rfl, rfl⟩ := h
    exact ⟨k, hk, Nat.zero_add _, Nat.zero_add _⟩
  refine (M.tokens (ofSource_mirrored M ⟨0, Nat.zero_le _, rfl, rfl⟩ rfl) requests).imp fun t u h =>
    ?_
  exact ⟨h.1, same h.2.lineStart, same h.2.start, same h.2.stop⟩

end EcmaFront
