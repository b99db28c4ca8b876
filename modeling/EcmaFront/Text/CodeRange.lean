import EcmaFront.Text.CodePoint

/-!
Properties of code points as lists of inclusive ranges.
-/

set_option autoImplicit false

namespace EcmaFront

abbrev CodeRanges := List (CodePoint × CodePoint)

/-- The search stops at the first range that ends at or after the code point. -/
def CodeRanges.contains : CodeRanges → CodePoint → Bool
  | [], _ => false
  | (low, high) :: rest, code => if code ≤ high then low ≤ code else CodeRanges.contains rest code

def CodeRanges.isOrdered : CodeRanges → Bool
  | (low, high) :: (low', high') :: rest =>
    low ≤ high && high < low' && CodeRanges.isOrdered ((low', high') :: rest)
  | [(low, high)] => low ≤ high
  | [] => true

theorem CodeRanges.lt_of_isOrdered {low high : CodePoint} {rest : CodeRanges}
    (h : CodeRanges.isOrdered ((low, high) :: rest) = true) : ∀ r ∈ rest, high < r.1 := by
  induction rest generalizing low high with
  | nil => simp
  | cons s rest ih =>
    obtain ⟨low', high'⟩ := s
    simp only [isOrdered, Bool.and_eq_true, decide_eq_true_eq] at h
    intro r hr
    rcases List.mem_cons.1 hr with rfl | hr
    · exact h.1.2
    · have hle : low' ≤ high' := by
        cases rest with
        | nil => simpa [isOrdered] using h.2
        | cons t rest =>
          obtain ⟨_, _⟩ := t
          simp only [isOrdered, Bool.and_eq_true, decide_eq_true_eq] at h
          exact h.2.1.1
      exact Nat.lt_trans (Nat.lt_of_lt_of_le h.1.2 hle) (ih h.2 r hr)

theorem CodeRanges.isOrdered_tail {r : CodePoint × CodePoint} {rest : CodeRanges}
    (h : CodeRanges.isOrdered (r :: rest) = true) : CodeRanges.isOrdered rest = true := by
  cases rest with
  | nil => rfl
  | cons s rest => obtain ⟨_, _⟩ := r; obtain ⟨_, _⟩ := s; simp_all [isOrdered]

theorem CodeRanges.contains_iff {ranges : CodeRanges} (h : ranges.isOrdered = true)
    (code : CodePoint) :
    ranges.contains code = true ↔ ∃ r ∈ ranges, r.1 ≤ code ∧ code ≤ r.2 := by
  induction ranges with
  | nil => simp [contains]
  | cons r rest ih =>
    obtain ⟨low, high⟩ := r
    have hlt := lt_of_isOrdered h
    simp only [contains, List.mem_cons, exists_eq_or_imp]
    split
    · next hc =>
      simp only [decide_eq_true_eq, hc, and_true]
      constructor
      · exact Or.inl
      · rintro (hl | ⟨s, hs, hl, _⟩)
        · exact hl
        · exact absurd (Nat.lt_of_lt_of_le (hlt s hs) hl) (Nat.not_lt.2 hc)
    · next hc =>
      rw [ih (isOrdered_tail h)]
      simp [hc]

end EcmaFront
