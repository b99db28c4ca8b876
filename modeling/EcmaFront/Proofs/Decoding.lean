import EcmaFront.Proofs.ShownText

/-!
Decoding undoes encoding. A buffer that holds the units of code points one after another, and
nothing else, is walked from code point to code point; and between two characters of a text a slice
is what stands there.
-/

set_option autoImplicit false

namespace EcmaFront

/-- A code point beyond 16 bits is a pair of surrogates. -/
def CodePoint.surrogates (code : CodePoint) : List Nat :=
  if code < 0x10000 then [code]
    else [0xD800 + (code - 0x10000) / 0x400, 0xDC00 + (code - 0x10000) % 0x400]

namespace Encoding

def Covers : Encoding → CodePoint → Prop
  | .ascii, code => code < 0x100
  | .utf8, code => code < 2 ^ 31
  | .utf16, code => code.isValidChar

def write : Encoding → CodePoint → List Nat
  | .ascii, code => [code]
  | .utf8, code => code.bytes
  | .utf16, code => code.surrogates

/-- Code points, each with the number of units in front of it. -/
def places (e : Encoding) : Nat → List CodePoint → List (Nat × CodePoint)
  | _, [] => []
  | i, code :: codes => (i, code) :: e.places (i + (e.write code).length) codes

variable {e : Encoding} {code : CodePoint}

theorem write_toNat (e : Encoding) (c : Char) : e.write c.toNat = e.units c := by
  cases e with
  | ascii => rfl
  | utf8 => exact (units_utf8 c).symm
  | utf16 =>
    have hc := CodePoint.toNat_lt c
    simp only [write, CodePoint.surrogates, units, Buffer.unitsOfChar]
    split
    · next h => simp only [List.map_cons, List.map_nil, UInt16.toNat_ofNat', Nat.mod_eq_of_lt h]
    · simp only [List.map_cons, List.map_nil, UInt16.toNat_ofNat', List.cons.injEq, and_true]
      omega

def bound : Encoding → Nat
  | .ascii | .utf8 => 2 ^ 8
  | .utf16 => 2 ^ 16

theorem lt_bound_of_mem_write (h : e.Covers code) {u : Nat} (hu : u ∈ e.write code) :
    u < e.bound := by
  cases e with
  | ascii => exact List.mem_singleton.1 hu ▸ h
  | utf8 =>
    obtain ⟨hn, hr, -⟩ := CodePoint.followers_spec h
    exact CodePoint.lt_of_mem_sequence hn hr hu
  | utf16 =>
    simp only [Covers, Nat.isValidChar] at h
    simp only [write, CodePoint.surrogates] at hu
    split at hu
    · next hc => exact List.mem_singleton.1 hu ▸ hc
    · simp only [List.mem_cons, List.not_mem_nil, or_false] at hu
      simp only [bound]
      omega

theorem length_write (h : e.Covers code) : (e.write code).length = e.width code := by
  cases e with
  | ascii => rfl
  | utf8 => rw [write, CodePoint.bytes, CodePoint.length_sequence, CodePoint.width_utf8 h]
  | utf16 =>
    simp only [write, CodePoint.surrogates, width]
    split <;> rfl

end Encoding

namespace Buffer

variable {b : Buffer} {i : Nat} {code : CodePoint} {codes : List CodePoint}

theorem code_of_write (hc : b.encoding.Covers code) (h : b.Holds i (b.encoding.write code)) :
    b.code i = code := by
  cases b with
  | ascii => exact h 0 _ rfl
  | utf8 =>
    obtain ⟨hn, hr, -⟩ := CodePoint.followers_spec hc
    exact (decodeBytes_sequence hn hr h).1
  | utf16 =>
    have hv : (Char.ofNat code).toNat = code := by
      rw [Char.ofNat, dif_pos (show code.isValidChar from hc)]
      rfl
    rw [← hv, Encoding.write_toNat] at h
    exact (code_of_holds h).1.trans hv

theorem walk_of_holds (hc : ∀ code ∈ codes, b.encoding.Covers code)
    (h : b.Holds i (codes.flatMap b.encoding.write))
    (hs : b.size = i + (codes.flatMap b.encoding.write).length) :
    b.walk i = (b.encoding.places i codes, b.size) := by
  induction codes generalizing i with
  | nil =>
    have hs : b.size = i := hs
    rw [walk_of_le (Nat.le_of_eq hs), hs]
    rfl
  | cons code codes ih =>
    rw [List.flatMap_cons] at h hs
    rw [List.length_append, ← Nat.add_assoc] at hs
    obtain ⟨hcode, hcodes⟩ := List.forall_mem_cons.1 hc
    have hl := Encoding.length_write hcode
    have hp := b.encoding.width_pos code
    have hd := code_of_write hcode h.append.1
    have hw : i + b.width code = i + (b.encoding.write code).length := congrArg (i + ·) hl.symm
    rw [walk_of_lt (by omega), hd, hw, ih hcodes h.append.2 hs]
    rfl

def ofCodes (codes : List CodePoint) : Encoding → Buffer
  | .ascii => .ascii ((codes.flatMap Encoding.ascii.write).map UInt8.ofNat).toArray
  | .utf8 => .utf8 ((codes.flatMap Encoding.utf8.write).map UInt8.ofNat).toArray
  | .utf16 => .utf16 ((codes.flatMap Encoding.utf16.write).map UInt16.ofNat).toArray

theorem size_ofCodes (codes : List CodePoint) (e : Encoding) :
    (ofCodes codes e).size = (codes.flatMap e.write).length := by
  cases e <;> simp only [ofCodes, size, List.size_toArray, List.length_map]

theorem getD_map_ofNat {α : Type} {put : Nat → α} {get : α → Nat} {units : List Nat}
    (h : ∀ u ∈ units, get (put u) = u) {k u : Nat} (hk : units[k]? = some u) :
    ((units.map put).toArray[k]?.map get).getD 0 = u := by
  rw [List.getElem?_toArray, List.getElem?_map, hk]
  exact h u (List.mem_of_getElem? hk)

theorem holds_ofCodes {e : Encoding} (h : ∀ code ∈ codes, e.Covers code) :
    (ofCodes codes e).Holds 0 (codes.flatMap e.write) := by
  have hu : ∀ u ∈ codes.flatMap e.write, u < e.bound := by
    simp only [List.mem_flatMap]
    rintro u ⟨code, hm, hu⟩
    exact Encoding.lt_bound_of_mem_write (h code hm) hu
  intro k u hk
  rw [Nat.zero_add]
  cases e with
  | ascii => exact getD_map_ofNat (fun u hm => UInt8.toNat_ofNat_of_lt (hu u hm)) hk
  | utf8 => exact getD_map_ofNat (fun u hm => UInt8.toNat_ofNat_of_lt (hu u hm)) hk
  | utf16 => exact getD_map_ofNat (fun u hm => UInt16.toNat_ofNat_of_lt (hu u hm)) hk

theorem flatMap_write_toNat (e : Encoding) (text : List Char) :
    (text.map Char.toNat).flatMap e.write = text.flatMap e.units := by
  simp only [List.flatMap_map, Encoding.write_toNat]

theorem ofCodes_utf8 (text : String) :
    ofCodes (text.toList.map Char.toNat) .utf8 = ofString text := by
  have hb : (UInt8.ofNat ∘ UInt8.toNat) = id := funext fun byte => UInt8.ofNat_toNat
  rw [ofCodes, flatMap_write_toNat, ofString, bytesOfString_eq]
  simp only [Encoding.units, List.map_flatMap, List.map_map, hb, List.map_id]

theorem ofCodes_utf16 (text : String) :
    ofCodes (text.toList.map Char.toNat) .utf16 = .utf16 (unitsOfString text) := by
  have hb : (UInt16.ofNat ∘ UInt16.toNat) = id := funext fun unit => UInt16.ofNat_toNat
  rw [ofCodes, flatMap_write_toNat, unitsOfString]
  simp only [Encoding.units, List.map_flatMap, List.map_map, hb, List.map_id]

end Buffer

namespace Encoding

variable {text : List Char} {k m : Nat}

theorem offset_lt_offset (e : Encoding) (h : k < m) (hm : m ≤ text.length) :
    e.offset text k < e.offset text m := by
  have hk := Nat.lt_of_lt_of_le h hm
  have hn := e.offset_mono h hm
  rw [e.offset_succ hk] at hn
  exact Nat.lt_of_lt_of_le (Nat.lt_add_of_pos_right (e.width_pos _)) hn

theorem offset_min (e : Encoding) (text : List Char) (k : Nat) :
    e.offset text (min k text.length) = e.offset text k := by
  rw [offset, offset, ← List.take_take, List.take_length]

end Encoding

namespace Source.Spells

variable {s : Source} {text : List Char}

theorem charsFrom (h : s.Spells text) {k n : Nat} (hk : k ≤ text.length) (hn : n ≤ text.length)
    {fuel : Nat} (hf : s.buffer.encoding.offset text n ≤ fuel + s.buffer.encoding.offset text k) :
    s.buffer.charsFrom fuel (s.start + s.buffer.encoding.offset text k)
      (s.start + s.buffer.encoding.offset text n) =
      (text.take n).drop k := by
  have ended {k : Nat} (he : n ≤ k) : [] = (text.take n).drop k :=
    (List.drop_eq_nil_of_le (Nat.le_trans (List.length_take_le n text) he)).symm
  induction fuel generalizing k with
  | zero =>
    rw [Nat.zero_add] at hf
    exact ended (Nat.not_lt.1 fun hl => Nat.not_lt.2 hf (s.buffer.encoding.offset_lt_offset hl hn))
  | succ fuel ih =>
    rw [Buffer.charsFrom]
    split
    · next hl =>
      have hl : k < n := Nat.not_le.1 fun hl' =>
        Nat.not_lt.2 (Nat.add_le_add_left (s.buffer.encoding.offset_mono hl' hk) _) hl
      have hlt : k < text.length := Nat.lt_of_lt_of_le hl hn
      have hs := s.buffer.encoding.offset_succ hlt
      have hp := s.buffer.encoding.width_pos text[k].toNat
      have hd : (text.take n).drop k = text[k] :: (text.take n).drop (k + 1) := by
        rw [List.drop_eq_getElem_cons (by rw [List.length_take]; omega), List.getElem_take]
      rw [Buffer.char, (h.code hlt).1, CodePoint.toChar_toNat, hd, Buffer.width, Nat.add_assoc,
        ← hs, ih (k := k + 1) hlt (by omega)]
    · next hl =>
      exact ended (Nat.not_lt.1 fun hl' =>
        hl (Nat.add_lt_add_left (s.buffer.encoding.offset_lt_offset hl' hn) _))

theorem slice (h : s.Spells text) (m n : Nat) :
    s.buffer.slice (s.start + s.buffer.encoding.offset text m)
      (s.start + s.buffer.encoding.offset text n) =
      String.ofList ((text.take n).drop m) := by
  rw [← Encoding.offset_min _ text m, ← Encoding.offset_min _ text n]
  have hn := s.buffer.encoding.offset_mono (Nat.min_le_right n text.length) (Nat.le_refl _)
  have hs : s.start + s.buffer.encoding.offset text (min n text.length) ≤ s.buffer.size :=
    Nat.le_trans (Nat.add_le_add_left hn _) (h.stop ▸ h.inside)
  rw [Buffer.slice, Nat.min_eq_left hs,
    h.charsFrom (Nat.min_le_right m _) (Nat.min_le_right n _) (by omega)]
  congr 1
  rw [← List.take_take, List.take_length]
  obtain hm | hm := Nat.le_total m text.length
  · rw [Nat.min_eq_left hm]
  · have hl := List.length_take_le' n text
    rw [Nat.min_eq_right hm, List.drop_eq_nil_of_le hl, List.drop_eq_nil_of_le (Nat.le_trans hl hm)]

end Source.Spells

/-- Decoding undoes encoding. The walk over encoded code points comes to each of them where its
units begin, reads it, and ends where the units end; a text in UTF-8 or UTF-16 is its characters
encoded; and a slice from where a character begins, or the text ends, to another such place is the
part of the text between them. -/
theorem Buffer.encoded_reads_back :
    (∀ (e : Encoding) (codes : List CodePoint), (∀ code ∈ codes, e.Covers code) →
      (ofCodes codes e).walk 0 = (e.places 0 codes, (ofCodes codes e).size)) ∧
    ∀ text : String,
      ofCodes (text.toList.map Char.toNat) .utf8 = ofString text ∧
      ofCodes (text.toList.map Char.toNat) .utf16 = .utf16 (unitsOfString text) ∧
      ∀ m n : Nat,
        (ofString text).slice (Encoding.utf8.offset text.toList m)
          (Encoding.utf8.offset text.toList n) =
          String.ofList ((text.toList.take n).drop m) ∧
        (Buffer.utf16 (unitsOfString text)).slice (Encoding.utf16.offset text.toList m)
          (Encoding.utf16.offset text.toList n) = String.ofList ((text.toList.take n).drop m) := by
  refine ⟨fun e codes hc => ?_, fun text => ⟨ofCodes_utf8 text, ofCodes_utf16 text,
    fun m n => ⟨?_, ?_⟩⟩⟩
  · have hh := holds_ofCodes hc
    have hs := size_ofCodes codes e
    rw [← Nat.zero_add (List.length _)] at hs
    cases e with
    | ascii => exact walk_of_holds hc hh hs
    | utf8 => exact walk_of_holds hc hh hs
    | utf16 => exact walk_of_holds hc hh hs
  · have h := (Source.spells_utf8 text "" 1).slice m n
    rwa [show (Source.ofBuffer (ofString text) "" 1).start = 0 from rfl, Nat.zero_add,
      Nat.zero_add] at h
  · have h := (Source.spells_utf16 text "" 1).slice m n
    rwa [show (Source.ofBuffer (.utf16 (unitsOfString text)) "" 1).start = 0 from rfl, Nat.zero_add,
      Nat.zero_add] at h

/-- A code point of each width, one of them no character. -/
theorem Buffer.encoded_reads_back_in_all_widths :
    (∀ code ∈ [0x41, 0x7FF, 0xD800, 0x1F600, 0x200000, 0x7FFFFFFF], Encoding.utf8.Covers code) ∧
    (ofCodes [0x41, 0x7FF, 0xD800, 0x1F600, 0x200000, 0x7FFFFFFF] .utf8).walk 0 =
      ([(0, 0x41), (1, 0x7FF), (3, 0xD800), (6, 0x1F600), (10, 0x200000), (15, 0x7FFFFFFF)],
        21) := by
  have hc : ∀ code ∈ [0x41, 0x7FF, 0xD800, 0x1F600, 0x200000, 0x7FFFFFFF],
      Encoding.utf8.Covers code := by
    simp only [List.forall_mem_cons, Encoding.Covers]
    decide
  exact ⟨hc, (encoded_reads_back.1 .utf8 _ hc).trans (by decide)⟩

end EcmaFront
