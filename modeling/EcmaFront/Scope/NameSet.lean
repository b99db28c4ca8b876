/-!
Finite sets of names, listed in increasing order without repetition, so that equal sets are equal
lists.
-/

set_option autoImplicit false

namespace EcmaFront

structure NameSet where
  toList : List String
  sorted : toList.Pairwise (· < ·)
  deriving DecidableEq, Repr

namespace NameSet

def empty : NameSet := ⟨[], .nil⟩

instance : Inhabited NameSet := ⟨empty⟩

def contains (s : NameSet) (name : String) : Bool := s.toList.contains name

def insertInto (name : String) : List String → List String
  | [] => [name]
  | x :: xs =>
    if name = x then x :: xs else if name < x then name :: x :: xs else x :: insertInto name xs

theorem mem_insertInto {x name : String} {xs : List String} :
    x ∈ insertInto name xs ↔ x = name ∨ x ∈ xs := by
  induction xs with
  | nil => simp [insertInto]
  | cons y ys ih =>
    simp only [insertInto]
    split
    · subst_vars; simp
    · split
      · simp
      · simp only [List.mem_cons, ih]; grind

theorem sorted_insertInto {xs : List String} (h : xs.Pairwise (· < ·)) (name : String) :
    (insertInto name xs).Pairwise (· < ·) := by
  induction xs with
  | nil => simp [insertInto]
  | cons y ys ih =>
    rw [List.pairwise_cons] at h
    simp only [insertInto]
    split
    · exact List.pairwise_cons.2 h
    · next hne =>
      split
      · next hlt =>
        refine List.pairwise_cons.2 ⟨fun z hz => ?_, List.pairwise_cons.2 h⟩
        rcases List.mem_cons.1 hz with rfl | hz
        · exact hlt
        · exact Std.lt_trans hlt (h.1 z hz)
      · next hge =>
        refine List.pairwise_cons.2 ⟨fun z hz => ?_, ih h.2⟩
        rcases mem_insertInto.1 hz with rfl | hz
        · rcases Std.lt_trichotomy z y with hlt | heq | hgt
          · exact absurd hlt hge
          · exact absurd heq hne
          · exact hgt
        · exact h.1 z hz

def insert (s : NameSet) (name : String) : NameSet :=
  ⟨insertInto name s.toList, sorted_insertInto s.sorted name⟩

def union (s t : NameSet) : NameSet := t.toList.foldl insert s

def filter (p : String → Bool) (s : NameSet) : NameSet := ⟨s.toList.filter p, s.sorted.filter p⟩

@[simp] theorem contains_insert (s : NameSet) (name x : String) :
    (s.insert name).contains x = (x == name || s.contains x) := by
  simp only [contains, insert, List.contains_eq_mem, mem_insertInto, Bool.decide_or]
  rfl

@[simp] theorem contains_empty (x : String) : empty.contains x = false := rfl

theorem contains_foldl_insert (names : List String) (s : NameSet) (x : String) :
    (names.foldl insert s).contains x = (s.contains x || names.contains x) := by
  induction names generalizing s with
  | nil => simp
  | cons y ys ih =>
    rw [List.foldl_cons, ih, contains_insert, List.contains_cons]
    cases x == y <;> simp

@[simp] theorem contains_union (s t : NameSet) (x : String) :
    (s.union t).contains x = (s.contains x || t.contains x) :=
  contains_foldl_insert t.toList s x

@[simp] theorem contains_filter (s : NameSet) (p : String → Bool) (x : String) :
    (s.filter p).contains x = (s.contains x && p x) := by
  simp [contains, filter, List.mem_filter]

end NameSet

end EcmaFront
