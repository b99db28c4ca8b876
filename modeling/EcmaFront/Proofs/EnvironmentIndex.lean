import EcmaFront.Scope.IndexedEnvironment
import EcmaFront.Proofs.EnvironmentRun
import Mathlib.Data.List.Nodup

/-!
The index of an environment tells the places of its names, no more and no fewer, whatever is done to
it. So a place that it tells is always inside the array, and what is done through the index comes to
the same as a search of the entries.
-/

set_option autoImplicit false

namespace EcmaFront

section Entries

variable {entries : List (String × Traits)} {entry : String × Traits} {name : String}
  {traits old : Traits}

theorem ne_of_nodup_cons (h : ((entry :: entries).map (·.1)).Nodup) :
    ∀ e ∈ entries, e.1 ≠ entry.1 := by
  intro e he hn
  rw [List.map_cons, List.nodup_cons, ← hn] at h
  exact h.1 (List.mem_map_of_mem he)

theorem lookup_of_mem (h : (entries.map (·.1)).Nodup) (hm : (name, traits) ∈ entries) :
    entries.lookup name = some traits := by
  induction entries with
  | nil => cases hm
  | cons entry entries ih =>
    rcases List.mem_cons.1 hm with rfl | hm
    · rw [List.lookup_cons, beq_self_eq_true]
    · rw [List.lookup_cons, beq_eq_false_iff_ne.2 (ne_of_nodup_cons h _ hm)]
      exact ih (List.nodup_cons.1 h).2 hm

theorem entries_mark (h : (entries.map (·.1)).Nodup) {place : Nat}
    (hp : entries[place]? = some (name, old)) (all : Bool) :
    (Environment.mark ⟨entries, all⟩ name traits).entries = entries.set place
      (name, old.union traits) := by
  induction entries generalizing place with
  | nil => cases hp
  | cons entry entries ih =>
    have hc : (Environment.mark ⟨entry :: entries, all⟩ name traits).entries =
        (entry.1, if entry.1 == name then entry.2.union traits else entry.2) ::
          (Environment.mark ⟨entries, all⟩ name traits).entries := rfl
    rw [hc]
    cases place with
    | zero =>
      obtain rfl : entry = (name, old) := Option.some.inj hp
      rw [if_pos (beq_self_eq_true name),
        Environment.mark_eq_self fun e he hn => absurd hn (ne_of_nodup_cons h e he),
        List.set_cons_zero]
    | succ place =>
      have hn : entry.1 ≠ name := (ne_of_nodup_cons h _ (List.mem_of_getElem? hp)).symm
      rw [if_neg (mt beq_iff_eq.1 hn), ih (List.nodup_cons.1 h).2 hp, List.set_cons_succ]

end Entries

namespace IndexedEnvironment

open EnvironmentStep

def Consistent (env : IndexedEnvironment) : Prop :=
  ∀ (name : String) (place : Nat), env.index[name]? = some place ↔ env.names[place]? = some name

theorem consistent_empty : empty.Consistent := by
  intro name place
  simp [empty, names]

variable {env : IndexedEnvironment} {name : String} {place : Nat}

namespace Consistent

theorem nodup (h : env.Consistent) : env.names.Nodup := by
  rw [List.nodup_iff_getElem?_ne_getElem?]
  intro i j hi hj he
  have hn := (h _ j).2 (List.getElem?_eq_getElem hj)
  rw [(h _ i).2 (he.trans (List.getElem?_eq_getElem hj)), Option.some.injEq] at hn
  exact Nat.ne_of_lt hi hn

theorem not_mem (h : env.Consistent) (hn : env.index[name]? = none) : name ∉ env.names := by
  intro hm
  obtain ⟨place, hp⟩ := List.mem_iff_getElem?.1 hm
  rw [(h name place).2 hp] at hn
  cases hn

theorem slot (h : env.Consistent) (hp : env.index[name]? = some place) :
    ∃ slot : env.Slot, env.slot place = .ok slot ∧ (env.entry slot).1 = name := by
  have hg := (h name place).1 hp
  rw [names, List.getElem?_map, Option.map_eq_some_iff] at hg
  obtain ⟨entry, he, rfl⟩ := hg
  rw [Array.getElem?_toList, Array.getElem?_eq_some_iff] at he
  obtain ⟨hl, rfl⟩ := he
  exact ⟨⟨place, hl⟩, dif_pos hl, rfl⟩

theorem push (h : env.Consistent) (hn : env.index[name]? = none) : (env.push name).Consistent := by
  intro x place
  have hm := h.not_mem hn
  have hi : (env.push name).index[x]? = if name == x then some env.entries.size
      else env.index[x]? :=
    Std.HashMap.getElem?_insert
  rw [hi, names_push, List.getElem?_append, length_names]
  by_cases hx : name = x
  · subst hx
    rw [if_pos (beq_self_eq_true name), Option.some.injEq]
    split
    · next hl =>
        exact ⟨fun he => absurd hl (he ▸ Nat.lt_irrefl _),
          fun he => absurd (List.mem_of_getElem? he) hm⟩
    · next hl =>
      rw [List.getElem?_singleton]
      split
      · next hz => exact iff_of_true (by omega) rfl
      · next hz => exact iff_of_false (by omega) nofun
  · rw [if_neg (mt beq_iff_eq.1 hx), h x place]
    split
    · rfl
    · next hl =>
      have hp : env.names[place]? = none := List.getElem?_eq_none (by rw [length_names]; omega)
      simp [hp, List.getElem?_singleton, hx]

theorem give (h : env.Consistent) (slot : env.Slot) (traits : Traits) :
    (env.give slot traits).Consistent := by
  intro name place
  rw [names_give]
  exact h name place

theorem captureAll (h : env.Consistent) : env.captureAll.Consistent := by
  intro name place
  rw [names_captureAll]
  exact h name place

end Consistent

theorem plain_give (h : env.Consistent) (slot : env.Slot) (traits : Traits) :
    (env.give slot traits).plain = env.plain.mark (env.entry slot).1 traits := by
  have hp : env.entries.toList[slot.1]? = some ((env.entry slot).1, (env.entry slot).2) := by
    rw [Array.getElem?_toList]
    exact Array.getElem?_eq_getElem slot.2
  rw [plain, give, Array.toList_set]
  exact congrArg (Environment.mk · env.everythingCaptured)
    (entries_mark h.nodup hp env.everythingCaptured).symm

theorem contains_plain (h : env.Consistent) (name : String) :
    env.plain.contains name = env.index[name]?.isSome := by
  rw [Bool.eq_iff_iff, ← Environment.mem_names, names_plain]
  cases hi : env.index[name]? with
  | none => exact iff_of_false (h.not_mem hi) nofun
  | some place => exact iff_of_true (List.mem_of_getElem? ((h name place).1 hi)) rfl

theorem findSlot_ok (h : env.Consistent) (name : String) : ∃ found, env.findSlot name = .ok found ∧
    (∀ slot, found = some slot → (env.entry slot).1 = name) ∧
    (found = none → name ∉ env.names) := by
  cases hi : env.index[name]? with
  | none => exact ⟨none, by rw [findSlot, hi], nofun, fun _ => h.not_mem hi⟩
  | some place =>
    obtain ⟨slot, hs, hn⟩ := h.slot hi
    refine ⟨some slot, by rw [findSlot, hi]; exact congrArg (some <$> ·) hs, ?_, nofun⟩
    rintro _ ⟨⟩
    exact hn

theorem find?_eq (h : env.Consistent) (name : String) :
    env.find? name = .ok (env.plain.find? name) := by
  obtain ⟨found, hf, hs, hn⟩ := findSlot_ok h name
  rw [find?, hf]
  refine congrArg Except.ok ?_
  cases found with
  | none =>
    have hc := mt (Environment.mem_names env.plain name).2 (hn rfl)
    rw [Environment.contains, Option.not_isSome_iff_eq_none] at hc
    exact hc.symm
  | some slot =>
    have hm : (name, (env.entry slot).2) ∈ env.entries.toList := by
      rw [← hs slot rfl]
      exact Array.getElem_mem_toList slot.2
    exact (lookup_of_mem h.nodup hm).symm

theorem add_ok (h : env.Consistent) (name : String) :
    ∃ (grown : IndexedEnvironment) (slot : grown.Slot),
    env.add name = .ok ⟨grown, slot, !env.plain.contains name⟩ ∧
    (grown.entry slot).1 = name ∧ grown.Consistent ∧
      grown.plain = env.plain.add name := by
  have hc := contains_plain h name
  cases hi : env.index[name]? with
  | none =>
    rw [hi, Option.isSome_none] at hc
    have hg := h.push hi
    have hp : (env.push name).index[name]? = some env.entries.size :=
      Std.HashMap.getElem?_insert_self
    obtain ⟨slot, hs, hn⟩ := hg.slot hp
    refine ⟨env.push name, slot, ?_, hn, hg, ?_⟩
    · rw [add, hi, hc]
      exact congrArg (_ <$> ·) hs
    · rw [plain_push, Environment.add, if_neg (by rw [hc]; decide)]
  | some place =>
    rw [hi, Option.isSome_some] at hc
    obtain ⟨slot, hs, hn⟩ := h.slot hi
    refine ⟨env, slot, ?_, hn, h, ?_⟩
    · rw [add, hi, hc]
      exact congrArg (_ <$> ·) hs
    · rw [Environment.add, if_pos hc]

def step (env : IndexedEnvironment) : EnvironmentStep → Except OutOfRange IndexedEnvironment
  | .add name traits => env.declare name traits
  | .find name traits => env.mark name traits
  | .capture name => env.capture name
  | .captureAll => .ok env.captureAll

def run (env : IndexedEnvironment) (steps : List EnvironmentStep) :
    Except OutOfRange IndexedEnvironment :=
  steps.foldlM step env

theorem step_ok (h : env.Consistent) (s : EnvironmentStep) :
    ∃ after, env.step s = .ok after ∧ after.Consistent ∧ after.plain = env.plain.step s := by
  have marked (name : String) (traits : Traits) : ∃ after, env.mark name traits = .ok after ∧
      after.Consistent ∧
      after.plain = env.plain.mark name traits := by
    obtain ⟨found, hf, hs, hn⟩ := findSlot_ok h name
    cases found with
    | none =>
      refine ⟨env, by rw [mark, hf]; rfl, h, (Environment.mark_eq_self fun e he hx => ?_).symm⟩
      exact absurd (hx ▸ List.mem_map_of_mem he) (hn rfl)
    | some slot =>
      refine ⟨env.give slot traits, by rw [mark, hf]; rfl, h.give slot traits, ?_⟩
      rw [plain_give h, hs slot rfl]
  cases s with
  | add name traits =>
    obtain ⟨grown, slot, ha, hn, hg, hp⟩ := add_ok h name
    refine ⟨grown.give slot traits, by rw [step, declare, ha]; rfl, hg.give slot traits, ?_⟩
    rw [plain_give hg, hn, hp]
    rfl
  | find name traits => exact marked name traits
  | capture name => exact marked name { captured := true }
  | captureAll => exact ⟨env.captureAll, rfl, h.captureAll, plain_captureAll env⟩

theorem run_ok (h : env.Consistent) (steps : List EnvironmentStep) :
    ∃ after, env.run steps = .ok after ∧ after.Consistent ∧ after.plain = env.plain.run steps := by
  induction steps generalizing env with
  | nil => exact ⟨env, rfl, h, rfl⟩
  | cons s steps ih =>
    obtain ⟨next, hs, hc, hp⟩ := step_ok h s
    obtain ⟨after, hr, hc, hp'⟩ := ih hc
    refine ⟨after, ?_, hc, ?_⟩
    · rw [run, List.foldlM_cons, hs]
      exact hr
    · rw [hp', hp]
      rfl

/-- What an environment and its index tell of the steps that led to them. -/
structure Records (env : IndexedEnvironment) (steps : List EnvironmentStep) : Prop where
  /-- No name is listed twice. -/
  nodup : env.names.Nodup
  /-- Names are listed in the order of their first declarations. -/
  names : env.names = (declared steps).eraseDups
  /-- The index tells the places of the listed names, and no others. -/
  index (name : String) (place : Nat) : env.index[name]? = some place ↔
    env.names[place]? = some name
  /-- A variable has the traits that it was given while it was there. It is captured besides if
  everything was, before or after it was declared. -/
  traits (name : String) (traits : Traits) (h : (name, traits) ∈ env.entries) (trait : Trait) :
    traits.has trait = true ↔ Given steps name trait ∨ trait = .captured ∧ .captureAll ∈ steps
  everythingCaptured : env.everythingCaptured = true ↔ .captureAll ∈ steps
  /-- A search comes to an end at the entry of the name, if there is one. -/
  find (name : String) : env.find? name = .ok (env.entries.toList.lookup name)
  findSlot (name : String) : ∃ found, env.findSlot name = .ok found ∧
    (∀ slot, found = some slot → (env.entry slot).1 = name) ∧ (found = none → name ∉ env.names)
  /-- So does a declaration, which tells whether the name is new. -/
  add (name : String) : ∃ (grown : IndexedEnvironment) (slot : grown.Slot) (isNew : Bool),
    env.add name = .ok ⟨grown, slot, isNew⟩ ∧ (grown.entry slot).1 = name ∧
    (isNew = true ↔ name ∉ env.names)
  /-- Without the index it is the environment that searches its entries. -/
  plain : env.plain = Environment.empty.run steps

/-- From an empty environment on, no step asks for a place outside the array, and what is recorded
is what was done. -/
theorem run_records (steps : List EnvironmentStep) :
    ∃ env, empty.run steps = .ok env ∧ env.Records steps := by
  obtain ⟨env, hr, hc, hp⟩ := run_ok consistent_empty steps
  have hp : env.plain = Environment.empty.run steps := hp
  refine ⟨env, hr, ?_⟩
  constructor
  case nodup => exact hc.nodup
  case names => rw [← names_plain, hp, Environment.names_run]
  case index => exact hc
  case traits =>
    intro name traits hm trait
    have hf : env.plain.find? name = some traits :=
      lookup_of_mem hc.nodup (Array.mem_toList_iff.2 hm)
    rw [hp] at hf
    exact Environment.has_run hf trait
  case everythingCaptured => rw [← Environment.everythingCaptured_run, ← hp]; rfl
  case find => exact find?_eq hc
  case findSlot => exact findSlot_ok hc
  case add =>
    intro name
    obtain ⟨grown, slot, ha, hn, -, -⟩ := add_ok hc name
    refine ⟨grown, slot, _, ha, hn, ?_⟩
    rw [Bool.not_eq_true', ← Bool.not_eq_true, ← Environment.mem_names, names_plain]
  case plain => exact hp

end IndexedEnvironment

end EcmaFront
