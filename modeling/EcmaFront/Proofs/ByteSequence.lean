import EcmaFront.Proofs.Confinement
import Mathlib.Tactic.IntervalCases

/-!
Code points below 2^31 as sequences of one to six bytes. There are longer sequences for a code point
and a shortest one: all of them are decoded to it, but only the shortest has as many bytes as a
reader steps over, who knows the code point and not its bytes.
-/

set_option autoImplicit false

namespace EcmaFront

namespace CodePoint

/-- The code points below it have room in a sequence of one byte that leads `n` others. -/
def room : Nat → Nat
  | 0 => 0x80
  | n + 1 => 2 ^ (5 - n) * 0x40 ^ (n + 1)

/-- A byte alone is the code point. One that leads others tells their number by the ones that it
begins with, and holds the highest bits. -/
def lead (code : CodePoint) : Nat → Nat
  | 0 => code
  | n + 1 => 0x100 - 2 ^ (6 - n) + code / 0x40 ^ (n + 1)

/-- Six of the other bits in each byte, the higher ones first. -/
def trail (code : CodePoint) : Nat → List Nat
  | 0 => []
  | n + 1 => (0x80 + code / 0x40 ^ n % 0x40) :: trail code n

def sequence (code : CodePoint) (n : Nat) : List Nat := code.lead n :: code.trail n

/-- How many bytes are led in the shortest sequence that has room. -/
def followers (code : CodePoint) : Nat := ((List.range 5).find? (code < room ·)).getD 5

def bytes (code : CodePoint) : List Nat := code.sequence code.followers

theorem div_lt_of_lt_room {code n : Nat} (h : code < room (n + 1)) :
    code / 0x40 ^ (n + 1) < 2 ^ (5 - n) :=
  Nat.div_lt_of_lt_mul (by rwa [Nat.mul_comm])

@[simp] theorem length_trail (code : CodePoint) (n : Nat) : (code.trail n).length = n := by
  induction n with
  | zero => rfl
  | succ n ih => rw [trail, List.length_cons, ih]

@[simp] theorem length_sequence (code : CodePoint) (n : Nat) :
    (code.sequence n).length = n + 1 := by
  rw [sequence, List.length_cons, length_trail]

theorem getElem?_trail (code : CodePoint) {n k : Nat} (hk : k < n) :
    (code.trail n)[k]? = some (0x80 + code / 0x40 ^ (n - 1 - k) % 0x40) := by
  induction n generalizing k with
  | zero => exact absurd hk (Nat.not_lt_zero k)
  | succ n ih =>
    cases k with
    | zero => rfl
    | succ k =>
      rw [trail, List.getElem?_cons_succ, ih (Nat.lt_of_succ_lt_succ hk), Nat.add_sub_cancel,
        Nat.sub_sub, Nat.add_comm 1]

theorem lt_of_mem_trail {code u n : Nat} (h : u ∈ trail code n) : u < 0x100 := by
  induction n with
  | zero => cases h
  | succ n ih =>
    rcases List.mem_cons.1 h with rfl | h
    · omega
    · exact ih h

theorem lt_of_mem_sequence {code u n : Nat} (hn : n ≤ 5) (hr : code < room n)
    (h : u ∈ sequence code n) : u < 0x100 := by
  rcases List.mem_cons.1 h with rfl | h
  · cases n with
    | zero => exact Nat.lt_trans hr (by decide)
    | succ n =>
      have hh : code / 0x40 ^ (n + 1) < 2 ^ (5 - n) := div_lt_of_lt_room hr
      have hp : 2 ^ (6 - n) = 2 * 2 ^ (5 - n) := by rw [← Nat.pow_succ', ← Nat.succ_sub (by omega)]
      have hm : 2 ^ (6 - n) ≤ 2 ^ 6 := Nat.pow_le_pow_right (by decide) (Nat.sub_le 6 n)
      rw [lead]
      omega
  · exact lt_of_mem_trail h

theorem followers_spec {code : CodePoint} (h : code < room 5) :
    code.followers ≤ 5 ∧ code < room code.followers ∧ ∀ n < code.followers, room n ≤ code := by
  rw [followers]
  cases hf : (List.range 5).find? (code < room ·) with
  | some n =>
    obtain ⟨hr, hn, hl⟩ := List.find?_range_eq_some.1 hf
    exact ⟨Nat.le_of_lt (List.mem_range.1 hn), of_decide_eq_true hr,
      fun m hm => by simpa using hl m hm⟩
  | none =>
    rw [List.find?_eq_none] at hf
    exact ⟨Nat.le_refl 5, h, fun n hn => by simpa using hf n (List.mem_range.2 hn)⟩

theorem width_utf8 {code : CodePoint} (h : code < room 5) :
    Encoding.utf8.width code = code.followers + 1 := by
  obtain ⟨hn, hr, hl⟩ := followers_spec h
  have hw := Encoding.utf8_width_eq code
  have hl : code.followers = 0 ∨ room (code.followers - 1) ≤ code :=
    (Nat.eq_zero_or_pos _).imp_right fun hp => hl _ (Nat.sub_lt hp Nat.one_pos)
  generalize code.followers = n at hn hr hl ⊢
  interval_cases n
  all_goals
    simp only [room, Nat.reduceSub, Nat.reduceAdd, Nat.reducePow, Nat.reduceMul] at hr hl
    repeat' split at hw
    all_goals omega

example : (List.range 6).map room = [0x80, 0x800, 0x10000, 0x200000, 0x4000000, 0x80000000] := by
  decide

end CodePoint

namespace Buffer

/-- Bits, with those that the bytes behind an index add to them. -/
def gather (unit : Nat → Nat) (i bits : Nat) : Nat → Nat
  | 0 => bits
  | k + 1 => gather unit i bits k * 0x40 + unit (i + (k + 1)) % 0x40

theorem gather_trail {unit : Nat → Nat} {i n code : Nat}
    (h : ∀ k x, (CodePoint.trail code n)[k]? = some x → unit (i + (k + 1)) = x) {k : Nat}
    (hk : k ≤ n) :
    gather unit i (code / 0x40 ^ n) k = code / 0x40 ^ (n - k) := by
  induction k with
  | zero => rfl
  | succ k ih =>
    have hp : n - k = n - 1 - k + 1 := by omega
    have hu := h k _ (CodePoint.getElem?_trail code hk)
    have hm : unit (i + (k + 1)) % 0x40 = code / 0x40 ^ (n - 1 - k) % 0x40 := by omega
    rw [gather, ih (Nat.le_of_lt hk), hm, hp, Nat.pow_succ, ← Nat.div_div_eq_div_mul,
      Nat.div_add_mod', Nat.sub_sub, Nat.add_comm 1]

theorem decodeBytes_sequence {unit : Nat → Nat} {i n code : Nat} (hn : n ≤ 5)
    (hr : code < CodePoint.room n)
    (h : ∀ k x, (CodePoint.sequence code n)[k]? = some x → unit (i + k) = x) :
    decodeBytes unit i = code ∧ leadReach (unit i) = n + 1 := by
  have h₀ : unit i = CodePoint.lead code n := h 0 _ rfl
  have gathered {m : Nat} (hm : unit i % m = code / 0x40 ^ n) :
      gather unit i (unit i % m) n = code := by
    rw [hm, gather_trail (fun k => h (k + 1)) (Nat.le_refl n), Nat.sub_self]
    exact Nat.div_one code
  rw [decodeBytes, leadReach]
  cases n with
  | zero =>
    have h₀ : unit i = code := h₀
    have hr : code < 0x80 := hr
    rw [if_pos (by omega), if_pos (by omega)]
    exact ⟨h₀, rfl⟩
  | succ n =>
    have hh := CodePoint.div_lt_of_lt_room hr
    have h₀ : unit i = 0x100 - 2 ^ (6 - n) + code / 0x40 ^ (n + 1) := h₀
    have hn : n = 0 ∨ n = 1 ∨ n = 2 ∨ n = 3 ∨ n = 4 := by omega
    -- For each lead the decoder has a formula of its own, which gathers the bits of as many bytes
    -- as it tells.
    obtain rfl | rfl | rfl | rfl | rfl := hn
    · rw [if_neg (by omega), if_pos (by omega), if_neg (by omega), if_pos (by omega)]
      exact ⟨gathered (by omega), rfl⟩
    · iterate 2 rw [if_neg (by omega), if_neg (by omega), if_pos (by omega)]
      exact ⟨gathered (by omega), rfl⟩
    · iterate 2 rw [if_neg (by omega), if_neg (by omega), if_neg (by omega), if_pos (by omega)]
      exact ⟨gathered (by omega), rfl⟩
    · iterate 2 rw [if_neg (by omega), if_neg (by omega), if_neg (by omega), if_neg (by omega),
        if_pos (by omega)]
      exact ⟨gathered (by omega), rfl⟩
    · iterate 2 rw [if_neg (by omega), if_neg (by omega), if_neg (by omega), if_neg (by omega),
        if_neg (by omega),
        if_pos (by omega)]
      exact ⟨gathered (by omega), rfl⟩

end Buffer

end EcmaFront
