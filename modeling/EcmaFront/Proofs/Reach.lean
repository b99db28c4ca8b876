import EcmaFront.Scope.Stack
import Mathlib.Data.List.TakeDrop
import Mathlib.Data.List.TakeWhile

/-!
Changes of the frames up to the nearest function or program.
-/

set_option autoImplicit false

namespace EcmaFront.Scopes

/-- Change the blocks up to the nearest function or program, and that one. -/
def reach (p q : Frame → Frame) : List Frame → List Frame
  | [] => []
  | f :: fs => if f.isBlock then p f :: reach p q fs else q f :: fs

theorem reach_eq (p q : Frame → Frame) (fs : List Frame) :
    reach p q fs = (fs.takeWhile (·.isBlock)).map p ++ match fs.dropWhile (·.isBlock) with
      | [] => []
      | target :: outer => q target :: outer := by
  induction fs with
  | nil => rfl
  | cons f fs ih =>
    cases hf : f.isBlock with
    | true => simp [reach, hf, ih]
    | false => simp [reach, hf]

theorem modifyFunction_eq (s : Scopes) (change : Frame → Frame) :
    (s.modifyFunction change).frames = reach id change s.frames := by
  obtain ⟨fs⟩ := s
  show Scopes.modifyFirstIn _ change fs = reach id change fs
  induction fs with
  | nil => rfl
  | cons f fs ih =>
    cases hf : f.isBoundary <;> simp [Scopes.modifyFirstIn, reach, Frame.isBlock_eq, hf, ih]

theorem activate_eq (s : Scopes) :
    s.activate.frames = reach ({ · with fullActivation := true })
      ({ · with fullActivation := true }) s.frames := by
  rw [reach_eq, Scopes.activate, List.span_eq_takeWhile_dropWhile]
  cases s.frames.dropWhile (·.isBlock) <;> simp

theorem exists_target {fs : List Frame} (hs : fs.any (·.isBoundary) = true) :
    ∃ target outer, fs.dropWhile (·.isBlock) = target :: outer := by
  cases hd : fs.dropWhile (·.isBlock) with
  | nil =>
    obtain ⟨f, hf, hb⟩ := List.any_eq_true.1 hs
    have hk := List.dropWhile_eq_nil_iff.1 hd f hf
    simp [Frame.isBlock_eq, hb] at hk
  | cons target outer => exact ⟨target, outer, rfl⟩

theorem declareVar_eq {s : Scopes} (hs : s.frames.any (·.isBoundary) = true) (x : String) :
    s.declareVar x =
      (⟨reach (fun f => { f with hoisted := f.hoisted.insert x }) (·.declareVar x) s.frames⟩,
        ⟨isRestricted x, s.enclosing.any (·.lexical.contains x)⟩) := by
  obtain ⟨target, outer, hd⟩ := exists_target hs
  rw [reach_eq, Scopes.declareVar, List.span_eq_takeWhile_dropWhile, hd]

theorem enclosing_cons (f : Frame) (fs : List Frame) :
    (Scopes.mk (f :: fs)).enclosing = f :: if f.isBlock then (Scopes.mk fs).enclosing else [] := by
  simp only [enclosing, List.span_eq_takeWhile_dropWhile]
  cases hf : f.isBlock <;> simp [hf]

def boundaries (s : Scopes) : List Frame := s.frames.filter (·.isBoundary)

theorem boundaries_cons {f : Frame} (hf : f.isBoundary = true) (rest : List Frame) :
    boundaries ⟨f :: rest⟩ = f :: boundaries ⟨rest⟩ := List.filter_cons_of_pos hf

theorem boundaries_block {f : Frame} (hf : f.isBoundary = false) (rest : List Frame) :
    boundaries ⟨f :: rest⟩ = boundaries ⟨rest⟩ := List.filter_cons_of_neg (by simp [hf])

theorem function?_eq (s : Scopes) : s.function? = s.boundaries.head? := List.head?_filter.symm

theorem boundaries_unbounded {s : Scopes} (h : s.frames.any (·.isBoundary) = false) :
    s.boundaries = [] := by
  simpa [boundaries, List.filter_eq_nil_iff] using h

section Map

variable {β : Type} {g : Frame → β}

theorem map_modifyTop {s : Scopes} {change : Frame → Frame} (h : ∀ f, g (change f) = g f) :
    (s.modifyTop change).frames.map g = s.frames.map g := by
  rcases s with ⟨_ | ⟨f, rest⟩⟩
  · rfl
  · simp [modifyTop, h]

theorem map_modifyFirst {s : Scopes} {p : Frame → Bool} {change : Frame → Frame}
    (h : ∀ f, g (change f) = g f) :
    (s.modifyFirst p change).frames.map g = s.frames.map g := by
  rcases s with ⟨frames⟩
  simp only [modifyFirst]
  induction frames with
  | nil => rfl
  | cons f rest ih =>
    simp only [modifyFirstIn]
    split <;> simp [h, ih]

theorem map_reach {p q : Frame → Frame} (hp : ∀ f, g (p f) = g f) (hq : ∀ f, g (q f) = g f)
    (fs : List Frame) :
    (reach p q fs).map g = fs.map g := by
  induction fs with
  | nil => rfl
  | cons f fs ih =>
    rw [reach]
    split <;> simp [hp, hq, ih]

theorem map_activate {s : Scopes} (h : ∀ f : Frame, g { f with fullActivation := true } = g f) :
    s.activate.frames.map g = s.frames.map g := by
  rw [activate_eq]
  exact map_reach h h s.frames

theorem map_boundaries_congr {s s' : Scopes}
    (h : s'.frames.map (fun f => (f.isBoundary, g f)) = s.frames.map fun f => (f.isBoundary, g f)) :
    s'.boundaries.map g = s.boundaries.map g := by
  have hb (s : Scopes) : s.boundaries.map g =
      ((s.frames.map fun f => (f.isBoundary, g f)).filter (·.1)).map (·.2) := by
    rw [List.filter_map, List.map_map]
    rfl
  rw [hb, hb, h]

theorem map_boundaries_reach {p q : Frame → Frame} {change : β → β}
    (hp : ∀ f, (p f).isBoundary = f.isBoundary) (hq : ∀ f, (q f).isBoundary = f.isBoundary)
    (hg : ∀ f, g (q f) = change (g f)) (fs : List Frame) :
    (boundaries ⟨reach p q fs⟩).map g = ((boundaries ⟨fs⟩).map g).modifyHead change := by
  induction fs with
  | nil => rfl
  | cons f fs ih =>
    rw [boundaries, boundaries] at ih
    rw [reach, Frame.isBlock_eq, boundaries, boundaries]
    cases hf : f.isBoundary <;> simp [hp, hq, hg, hf, ih]

end Map

theorem declareVar_unbounded {s : Scopes} (hs : s.frames.any (·.isBoundary) = false) (x : String) :
    (s.declareVar x).1 = s := by
  have hd : s.frames.dropWhile (·.isBlock) = [] := by
    refine List.dropWhile_eq_nil_iff.2 fun f hf => ?_
    have hb := List.any_eq_false.1 hs f hf
    simpa [Frame.isBlock_eq] using hb
  rw [Scopes.declareVar, List.span_eq_takeWhile_dropWhile, hd]

theorem reach_id (q : Frame → Frame) {fs : List Frame} (hs : fs.any (·.isBoundary) = false) :
    reach id q fs = fs := by
  induction fs with
  | nil => rfl
  | cons f fs ih =>
    rw [List.any_cons, Bool.or_eq_false_iff] at hs
    have hf : f.isBlock = true := by simp [Frame.isBlock_eq, hs.1]
    simp [reach, hf, ih hs.2]

end EcmaFront.Scopes
