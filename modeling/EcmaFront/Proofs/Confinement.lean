import EcmaFront.Proofs.Mirror
import Mathlib.Data.List.Forall2

/-!
How far the lexer looks. Only where a character begins is asked whether the view goes on; its other
units are decoded and stepped over wherever they are. So tokens depend on the units of the view and
on those by which a character reached in it goes beyond its end, and end no further than these.
-/

set_option autoImplicit false

namespace EcmaFront

/-- How far a character reaches at most, beyond the unit it begins with. -/
def Encoding.farthest : Encoding → Nat
  | .ascii => 0
  | .utf8 => 5
  | .utf16 => 1

theorem Encoding.utf8_width_eq (code : Nat) :
    utf8.width code = if code < 0x80 then 1 else if code < 0x800 then 2
      else if code < 0x10000 then 3
      else if code < 0x200000 then 4 else if code < 0x4000000 then 5 else 6 := rfl

theorem Encoding.utf8_width_le (code : Nat) :
    (code < 0x80 → utf8.width code ≤ 1) ∧ (code < 0x800 → utf8.width code ≤ 2) ∧
      (code < 0x10000 → utf8.width code ≤ 3) ∧ (code < 0x200000 → utf8.width code ≤ 4) ∧
      (code < 0x4000000 → utf8.width code ≤ 5) ∧ utf8.width code ≤ 6 := by
  have hw := utf8_width_eq code
  repeat' split at hw
  all_goals omega

namespace Buffer

/-- How many units are decoded or stepped over at most where a byte leads. -/
def leadReach (lead : Nat) : Nat :=
  if lead < 0x80 then 1
  else if lead < 0xE0 then 2
  else if lead < 0xF0 then 3
  else if lead < 0xF8 then 4
  else if lead < 0xFC then 5
  else if lead < 0xFE then 6
  else 2

/-- How many units from an index on are decoded or stepped over at most. -/
def reach (b : Buffer) (i : Nat) : Nat :=
  match b with
  | .ascii _ => 1
  | .utf8 _ => leadReach (b.unit i)
  | .utf16 _ => if CodePoint.isHighSurrogate (b.unit i) then 2 else 1

theorem leadReach_bounds (lead : Nat) : 0 < leadReach lead ∧ leadReach lead ≤ 6 := by
  simp only [leadReach]
  repeat' split
  all_goals decide

theorem reach_pos (b : Buffer) (i : Nat) : 0 < b.reach i := by
  cases b with
  | ascii => exact Nat.one_pos
  | utf8 => exact (leadReach_bounds _).1
  | utf16 => simp only [reach]; split <;> decide

theorem decodeBytes_congr {unit unit' : Nat → Nat} {i : Nat}
    (h : ∀ k < leadReach (unit i), unit' (i + k) = unit (i + k)) :
    decodeBytes unit' i = decodeBytes unit i := by
  have h₀ : unit' i = unit i := h 0 (leadReach_bounds _).1
  simp only [decodeBytes, leadReach] at h ⊢
  rw [h₀]
  repeat' split
  all_goals grind

theorem decodePair_congr {unit unit' : Nat → Nat} {i : Nat} (h₀ : unit' i = unit i)
    (h₁ : CodePoint.isHighSurrogate (unit i) = true → unit' (i + 1) = unit (i + 1)) :
    decodePair unit' i = decodePair unit i := by
  simp only [decodePair, h₀]
  cases hc : CodePoint.isHighSurrogate (unit i) with
  | false => simp only [Bool.false_and, Bool.false_eq_true, if_false]
  | true => rw [h₁ hc]

theorem code_congr {b c : Buffer} {i : Nat} (he : c.encoding = b.encoding)
    (h : ∀ k < b.reach i, c.unit (i + k) = b.unit (i + k)) : c.code i = b.code i := by
  have h₀ := h 0 (b.reach_pos i)
  cases b <;> cases c <;> cases he
  · exact h₀
  · exact decodeBytes_congr h
  · refine decodePair_congr h₀ fun hc => h 1 ?_
    simp only [reach, hc, if_true]
    decide

theorem unit_lt (bytes : Array UInt8) (i : Nat) : (Buffer.utf8 bytes).unit i < 0x100 := by
  simp only [unit]
  cases bytes[i]? with
  | none => decide
  | some byte => exact byte.toNat_lt

theorem width_decodeBytes_le {unit : Nat → Nat} {i : Nat} (h : unit i < 0x100) :
    Encoding.utf8.width (decodeBytes unit i) ≤ leadReach (unit i) := by
  obtain ⟨code, hc⟩ : ∃ code : Nat, code = decodeBytes unit i := ⟨_, rfl⟩
  have hw := Encoding.utf8_width_le code
  have hm (k : Nat) : unit (i + k) % 0x40 < 0x40 := Nat.mod_lt _ (by decide)
  have h₁ := hm 1
  have h₂ := hm 2
  have h₃ := hm 3
  have h₄ := hm 4
  rw [← hc, leadReach]
  generalize Encoding.utf8.width code = width at hw ⊢
  simp only [decodeBytes] at hc
  repeat' split at hc
  all_goals
    repeat' split
    all_goals omega

theorem width_decodePair_le {unit : Nat → Nat} {i : Nat} (h : unit i < 0x10000) :
    Encoding.utf16.width (decodePair unit i) ≤ if CodePoint.isHighSurrogate (unit i) then 2
      else 1 := by
  cases hc : CodePoint.isHighSurrogate (unit i) with
  | true =>
    simp only [Encoding.width, if_true]
    split <;> decide
  | false => simp [decodePair, hc, Encoding.width, h]

theorem width_le_reach (b : Buffer) (i : Nat) : b.width (b.code i) ≤ b.reach i := by
  cases b with
  | ascii => exact Nat.le_refl 1
  | utf8 bytes => exact width_decodeBytes_le (unit_lt bytes i)
  | utf16 units =>
    refine width_decodePair_le ?_
    simp only [unit]
    cases units[i]? with
    | none => decide
    | some unit => exact unit.toNat_lt

end Buffer

namespace View

/-- The offsets that are come to from one by steps over code points. -/
inductive Reached (v : View) (start : Nat) : Nat → Prop where
  | start : v.Reached start start
  | after {i : Nat} (h : v.Reached start i) (hi : i < v.limit) : v.Reached start (v.after i)

/-- No character reached inside the view goes beyond its end by more than some units. -/
def OverhangsBy (v : View) (start units : Nat) : Prop :=
  ∀ i, v.Reached start i → i < v.limit → i + v.buffer.reach i ≤ v.limit + units

variable {v w : View} {start units i : Nat}

theorem Reached.le (h : v.Reached start i) : start ≤ i := by
  induction h with
  | start => exact Nat.le_refl _
  | after _ _ ih => exact Nat.le_trans ih (Nat.le_of_lt (v.lt_after _))

theorem Reached.le_limit (h : v.Reached start i) (ho : v.OverhangsBy start units)
    (hs : start ≤ v.limit) :
    i ≤ v.limit + units := by
  cases h with
  | start => exact Nat.le_add_right_of_le hs
  | after h hi =>
    refine Nat.le_trans (Nat.add_le_add_left ?_ _) (ho _ h hi)
    rw [code, if_pos hi]
    exact v.buffer.width_le_reach _

theorem overhangsBy_farthest (v : View) (start : Nat) :
    v.OverhangsBy start v.buffer.encoding.farthest := by
  intro i _ hi
  have hr : v.buffer.reach i ≤ v.buffer.encoding.farthest + 1 := by
    cases hb : v.buffer with
    | ascii => exact Nat.le_refl 1
    | utf8 => exact (Buffer.leadReach_bounds _).2
    | utf16 =>
      show (if _ then 2 else 1) ≤ 2
      split <;> decide
  omega

/-- What is reached looks the same in a view of the same range whose units are the same so far. -/
def Mirror.ofUnits (ho : v.OverhangsBy start units) (hl : w.limit = v.limit)
    (he : w.buffer.encoding = v.buffer.encoding)
    (hu : ∀ i, start ≤ i → i < v.limit + units → w.buffer.unit i = v.buffer.unit i) : Mirror v w :=
  have hc {i : Nat} (h : v.Reached start i) : w.code i = v.code i := by
    simp only [View.code, hl]
    split
    · next hi =>
      have := ho i h hi
      have := h.le
      exact Buffer.code_congr he fun k hk => hu _ (by omega) (by omega)
    · rfl
  { pairs i j := j = i ∧ v.Reached start i
    lines i j := j = i ∧ v.Reached start i
    ofPairs := id
    isEnd := by
      rintro i _ ⟨rfl, -⟩
      simp only [View.isEnd, hl]
    code := by
      rintro i _ ⟨rfl, h⟩
      exact hc h
    after := by
      rintro i _ ⟨rfl, h⟩ hi
      refine ⟨?_, h.after hi⟩
      simp only [View.after, Buffer.width, hc h, he] }

end View

def Source.view (s : Source) : View := ⟨s.buffer, s.stop⟩

theorem Lexer.ofSource_mirrored {s t : Source} (M : View.Mirror s.view t.view)
    (h : M.pairs s.start t.start) (hl : t.startLine = s.startLine) :
    M.Lexers (ofSource s) (ofSource t) :=
  ⟨rfl, rfl, ⟨h, hl, M.ofPairs h⟩⟩

theorem Lexer.tokens_reached {s : Source} {requests : List Request} {t : Sighting}
    (h : t ∈ (ofSource s).tokens requests) :
    s.view.Reached s.start t.extent.start ∧ s.view.Reached s.start t.extent.stop := by
  let M : View.Mirror s.view s.view :=
    .ofUnits (s.view.overhangsBy_farthest s.start) rfl rfl fun _ _ _ => rfl
  have hm := M.tokens (ofSource_mirrored M ⟨rfl, .start⟩ rfl) requests
  rw [List.forall₂_same] at hm
  exact ⟨(hm t h).2.start.2, (hm t h).2.stop.2⟩

/-- Tokens are read from the units of the view, and from those by which the characters that are
reached in it go beyond its end; they end no further than these. -/
theorem Source.tokens_confined {s t : Source} {units : Nat} (ho : s.view.OverhangsBy s.start units)
    (hs : s.start ≤ s.stop) (hr : t.start = s.start ∧ t.stop = s.stop ∧ t.startLine = s.startLine)
    (he : t.buffer.encoding = s.buffer.encoding)
    (hu : ∀ i, s.start ≤ i → i < s.stop + units → t.buffer.unit i = s.buffer.unit i)
    (requests : List Request) :
    (Lexer.ofSource t).tokens requests = (Lexer.ofSource s).tokens requests ∧
      ∀ x ∈ (Lexer.ofSource s).tokens requests,
        s.start ≤ x.extent.start ∧ x.extent.start ≤ x.extent.stop ∧
        x.extent.stop ≤ s.stop + units := by
  let M : View.Mirror s.view t.view := .ofUnits ho hr.2.1 he hu
  have hm := M.tokens (Lexer.ofSource_mirrored M ⟨hr.1, .start⟩ hr.2.2) requests
  refine ⟨?_, fun x hx => ?_⟩
  · symm
    rw [← List.forall₂_eq_eq_eq]
    refine hm.imp fun x y hxy => hxy.1.eq ?_
    obtain ⟨-, hl, ⟨hb, -⟩, ⟨ha, -⟩, ⟨ho, -⟩⟩ := hxy
    generalize x.extent = e at hl hb ha ho
    generalize y.extent = f at hl hb ha ho ⊢
    cases e
    cases f
    simp_all
  · obtain ⟨hl, hr⟩ := Lexer.tokens_reached hx
    exact ⟨hl.le, Lexer.tokens_ordered hx, hr.le_limit ho hs⟩

/-- A view that cuts a character in two: its other half is read as well, and nothing behind it. -/
theorem Source.tokens_confined_half_character :
    (Lexer.ofSource ⟨.utf8 #[0xC3, 0xA9, 0x62], "", 1, 0, 1⟩).tokens [⟨false, false⟩] =
        (Lexer.ofSource ⟨.utf8 #[0xC3, 0xA9, 0x61], "", 1, 0, 1⟩).tokens [⟨false, false⟩] ∧
      ∀ x ∈ (Lexer.ofSource ⟨.utf8 #[0xC3, 0xA9, 0x61], "", 1, 0, 1⟩).tokens [⟨false, false⟩],
        0 ≤ x.extent.start ∧ x.extent.start ≤ x.extent.stop ∧ x.extent.stop ≤ 1 + 1 :=
  @tokens_confined ⟨.utf8 #[0xC3, 0xA9, 0x61], "", 1, 0, 1⟩
    ⟨.utf8 #[0xC3, 0xA9, 0x62], "", 1, 0, 1⟩ 1
    (fun i _ hi => by
      obtain rfl : i = 0 := Nat.lt_one_iff.1 hi
      decide)
    (by decide) ⟨rfl, rfl, rfl⟩ rfl (fun i _ hi => by interval_cases i <;> rfl) _

example : ((Lexer.ofSource ⟨.utf8 #[0xC3, 0xA9, 0x61], "", 1, 0, 1⟩).tokens [⟨false, false⟩]).map
    (·.extent.stop) =
    [2] := by decide +kernel

end EcmaFront
