import EcmaFront.Scope.Environment
import Mathlib.Data.List.Induction

/-!
What an environment records of what was done to it: the names in the order of their first
declarations, and of each the traits that it was given since then. Whether everything was captured
counts for all variables, at whatever time.
-/

set_option autoImplicit false

namespace EcmaFront

inductive Trait where
  | var | let | const | captured | exported | imported | wholeModule
  deriving DecidableEq, Repr

def Traits.has (t : Traits) : Trait → Bool
  | .var => t.isVar
  | .let => t.isLet
  | .const => t.isConst
  | .captured => t.captured
  | .exported => t.exported
  | .imported => t.imported
  | .wholeModule => t.isNamespace

theorem Traits.has_union (s t : Traits) (trait : Trait) :
    (s.union t).has trait = (s.has trait || t.has trait) := by
  cases trait <;> rfl

theorem Traits.has_empty (trait : Trait) : Traits.has {} trait = false := by cases trait <;> rfl

theorem Traits.has_captured (t : Traits) (trait : Trait) :
    Traits.has { t with captured := true } trait = (t.has trait || decide (trait = .captured)) := by
  cases trait <;> simp [has]

/-- What is done to an environment. The traits are given to the variable that was declared, or
found. -/
inductive EnvironmentStep where
  | add (name : String) (traits : Traits)
  | find (name : String) (traits : Traits)
  | capture (name : String)
  | captureAll
  deriving DecidableEq, Repr

namespace EnvironmentStep

def added? : EnvironmentStep → Option String
  | .add name _ => some name
  | _ => none

/-- The traits that the variable of a name is given, if there is one. -/
def gives : EnvironmentStep → String → Traits
  | .add name traits, x | .find name traits, x => if x = name then traits else {}
  | .capture name, x => if x = name then { captured := true } else {}
  | .captureAll, _ => {}

def declared (steps : List EnvironmentStep) : List String := steps.filterMap added?

def Given (steps : List EnvironmentStep) (name : String) (trait : Trait) : Prop :=
  ∃ before step after, steps = before ++ step :: after ∧ name ∈ declared (before ++ [step]) ∧
    (step.gives name).has trait = true

variable {steps : List EnvironmentStep} {name : String} {trait : Trait}

theorem declared_concat (steps : List EnvironmentStep) (s : EnvironmentStep) :
    declared (steps ++ [s]) = declared steps ++ s.added?.toList := by
  rw [declared, List.filterMap_append]
  cases h : s.added? <;> simp [declared, h]

theorem Given.mem_declared (h : Given steps name trait) : name ∈ declared steps := by
  obtain ⟨before, step, after, rfl, hm, -⟩ := h
  rw [← List.singleton_append, ← List.append_assoc, declared, List.filterMap_append]
  exact List.mem_append_left _ hm

theorem given_concat {step : EnvironmentStep} : Given (steps ++ [step]) name trait ↔
    Given steps name trait ∨ name ∈ declared (steps ++ [step]) ∧
    (step.gives name).has trait = true := by
  constructor
  · rintro ⟨before, s, after, he, hm, hg⟩
    obtain rfl | ⟨after, last, rfl⟩ := List.eq_nil_or_concat after
    · obtain ⟨rfl, hs⟩ := List.append_inj' he rfl
      cases hs
      exact .inr ⟨hm, hg⟩
    · rw [List.concat_eq_append, ← List.cons_append, ← List.append_assoc] at he
      exact .inl ⟨before, s, after, (List.append_inj' he rfl).1, hm, hg⟩
  · rintro (⟨before, s, after, rfl, hm, hg⟩ | ⟨hm, hg⟩)
    · exact ⟨before, s, after ++ [step], by rw [List.append_assoc, List.cons_append], hm, hg⟩
    · exact ⟨steps, step, [], rfl, hm, hg⟩

end EnvironmentStep

namespace Environment

open EnvironmentStep

def step (env : Environment) : EnvironmentStep → Environment
  | .add name traits => env.declare name traits
  | .find name traits => env.mark name traits
  | .capture name => env.capture name
  | .captureAll => env.captureAll

def run (env : Environment) (steps : List EnvironmentStep) : Environment := steps.foldl step env

theorem run_concat (env : Environment) (steps : List EnvironmentStep) (s : EnvironmentStep) :
    env.run (steps ++ [s]) = (env.run steps).step s := by
  rw [run, List.foldl_append]
  rfl

variable {env : Environment} {name x : String} {traits : Traits}

theorem find?_map (entries : List (String × Traits)) (f : String → Traits → Traits) (all : Bool)
    (x : String) :
    find? ⟨entries.map fun (n, t) => (n, f n t), all⟩ x = (entries.lookup x).map (f x) := by
  simp only [find?]
  induction entries with
  | nil => rfl
  | cons entry entries ih =>
    obtain ⟨n, t⟩ := entry
    rw [List.map_cons, List.lookup_cons, List.lookup_cons, ih]
    cases h : x == n with
    | true => rw [eq_of_beq h]; rfl
    | false => rfl

theorem find?_mark (env : Environment) (name : String) (traits : Traits) (x : String) :
    (env.mark name traits).find? x = (env.find? x).map fun t => if x == name then t.union traits
      else t :=
  find?_map env.entries (fun n t => if n == name then t.union traits else t) _ x

theorem find?_captureAll (env : Environment) (x : String) :
    env.captureAll.find? x = (env.find? x).map fun t => { t with captured := true } :=
  find?_map env.entries (fun _ t => { t with captured := true }) _ x

theorem find?_add (env : Environment) (name x : String) :
    (env.add name).find? x = if x = name then some
      ((env.find? x).getD { captured := env.everythingCaptured })
      else env.find? x := by
  unfold add
  split
  · next h =>
    split
    · next hx =>
      subst hx
      obtain ⟨t, ht⟩ := Option.isSome_iff_exists.1 h
      rw [ht]; rfl
    · rfl
  · next h =>
    have hn : env.find? name = none := by simpa [contains] using h
    show (env.entries ++ [(name, _)]).lookup x = _
    rw [List.lookup_append]
    split
    · next hx =>
      subst hx
      rw [show env.entries.lookup x = none from hn, hn]
      simp
    · next hx =>
      rw [List.lookup_cons, beq_eq_false_iff_ne.2 hx, List.lookup_nil, Option.or_none]
      rfl

theorem has_step {s : EnvironmentStep} {t : Traits} (h : (env.step s).find? x = some t)
    (trait : Trait) :
    t.has trait = (((env.find? x).getD { captured := env.everythingCaptured }).has trait ||
      (s.gives x).has trait ||
      decide (trait = .captured ∧ s = .captureAll)) := by
  have hm {env : Environment} {name : String} {traits t : Traits}
      (h : (env.mark name traits).find? x = some t) :
      ∃ u, env.find? x = some u ∧
        t.has trait = (u.has trait || (if x = name then traits else ({} : Traits)).has trait) := by
    rw [find?_mark, Option.map_eq_some_iff] at h
    obtain ⟨u, hu, rfl⟩ := h
    refine ⟨u, hu, ?_⟩
    by_cases hx : x = name
    · rw [if_pos (beq_iff_eq.2 hx), if_pos hx, Traits.has_union]
    · rw [if_neg (mt beq_iff_eq.1 hx), if_neg hx, Traits.has_empty, Bool.or_false]
  cases s with
  | add name traits =>
    obtain ⟨u, hu, ht⟩ := hm h
    rw [find?_add] at hu
    by_cases hx : x = name
    · rw [if_pos hx] at hu
      cases hu
      simpa [gives] using ht
    · rw [if_neg hx] at hu
      simpa [gives, hu] using ht
  | find name traits =>
    obtain ⟨u, hu, ht⟩ := hm h
    simpa [gives, hu] using ht
  | capture name =>
    obtain ⟨u, hu, ht⟩ := hm h
    simpa [gives, hu] using ht
  | captureAll =>
    rw [step, find?_captureAll, Option.map_eq_some_iff] at h
    obtain ⟨u, hu, rfl⟩ := h
    simp [gives, hu, Traits.has_captured, Traits.has_empty]

theorem everythingCaptured_run (steps : List EnvironmentStep) :
    (empty.run steps).everythingCaptured = true ↔ .captureAll ∈ steps := by
  induction steps using List.reverseRecOn with
  | nil => simp [run, empty]
  | append_singleton steps s ih =>
    rw [run_concat, List.mem_append, ← ih, List.mem_singleton]
    cases s with
    | add name traits =>
      have hc : (((empty.run steps).declare name traits)).everythingCaptured =
          (empty.run steps).everythingCaptured := by
        rw [declare, mark, add]
        split <;> rfl
      simp [step, hc]
    | find name traits => simp [step, mark]
    | capture name => simp [step, capture, mark]
    | captureAll => simp [step, captureAll]

theorem names_run (steps : List EnvironmentStep) :
    (empty.run steps).names = (declared steps).eraseDups := by
  induction steps using List.reverseRecOn with
  | nil => rfl
  | append_singleton steps s ih =>
    rw [run_concat, declared_concat, List.eraseDups_append, ← ih]
    cases s with
    | add name traits =>
      have hc : (empty.run steps).contains name = (declared steps).contains name := by
        rw [Bool.eq_iff_iff, ← mem_names, ih, List.mem_eraseDups, List.contains_iff_mem]
      rw [step, names_declare, hc, List.contains_eq_mem]
      by_cases hn : name ∈ declared steps
      · simp [added?, List.removeAll, hn]
      · simp [added?, List.removeAll, hn, List.eraseDups_cons]
    | find name traits => simp [step, added?]
    | capture name => simp [step, capture, added?]
    | captureAll => simp [step, added?]

theorem has_run {steps : List EnvironmentStep} {t : Traits} (h : (empty.run steps).find? x = some t)
    (trait : Trait) :
    t.has trait = true ↔ Given steps x trait ∨ trait = .captured ∧ .captureAll ∈ steps := by
  induction steps using List.reverseRecOn generalizing t with
  | nil => cases h
  | append_singleton steps s ih =>
    have hd : x ∈ declared (steps ++ [s]) := by
      rw [← List.mem_eraseDups, ← names_run, mem_names, contains, h]
      rfl
    rw [run_concat] at h
    have old : ((empty.run steps).find? x |>.getD { captured := (empty.run steps).everythingCaptured
        }).has trait = true ↔
        Given steps x trait ∨ trait = .captured ∧ .captureAll ∈ steps := by
      cases hx : (empty.run steps).find? x with
      | some u => exact ih hx
      | none =>
        have hn : ¬Given steps x trait := fun hg => by
          have hc := hg.mem_declared
          rw [← List.mem_eraseDups, ← names_run, mem_names, contains, hx] at hc
          cases hc
        rw [← everythingCaptured_run, Option.getD_none, or_iff_right hn]
        cases trait <;> simp [Traits.has]
    rw [has_step h, given_concat, Bool.or_eq_true, Bool.or_eq_true, old, decide_eq_true_eq,
      List.mem_append, List.mem_singleton, eq_comm (a := EnvironmentStep.captureAll)]
    tauto

end Environment

end EcmaFront
