import EcmaFront.Scope.Environment
import Std.Data.HashMap

/-!
An environment laid out for search: the entries in an array, in the order of declaration, and an
index that tells the place of a name. The index is trusted: a place that it tells is not compared
with the name, and one beyond the array is a fault.
-/

set_option autoImplicit false

namespace EcmaFront

/-- An array was asked for a place beyond its end. -/
structure OutOfRange where
  place : Nat
  size : Nat
  deriving DecidableEq, Repr

structure IndexedEnvironment where
  entries : Array (String × Traits) := #[]
  index : Std.HashMap String Nat := ∅
  everythingCaptured : Bool := false

namespace IndexedEnvironment

def empty : IndexedEnvironment := {}

def plain (env : IndexedEnvironment) : Environment := ⟨env.entries.toList, env.everythingCaptured⟩

def names (env : IndexedEnvironment) : List String := env.entries.toList.map (·.1)

def size (env : IndexedEnvironment) : Nat := env.entries.size

def isEmpty (env : IndexedEnvironment) : Bool := env.entries.isEmpty

def contains (env : IndexedEnvironment) (name : String) : Bool := env.index.contains name

abbrev Slot (env : IndexedEnvironment) : Type := Fin env.entries.size

def entry (env : IndexedEnvironment) (slot : env.Slot) : String × Traits := env.entries[slot]

def slot (env : IndexedEnvironment) (place : Nat) : Except OutOfRange env.Slot :=
  if h : place < env.entries.size then .ok ⟨place, h⟩ else .error ⟨place, env.entries.size⟩

def findSlot (env : IndexedEnvironment) (name : String) : Except OutOfRange (Option env.Slot) :=
  match env.index[name]? with
  | some place => some <$> env.slot place
  | none => .ok none

def find? (env : IndexedEnvironment) (name : String) : Except OutOfRange (Option Traits) :=
  Option.map (fun slot => (env.entry slot).2) <$> env.findSlot name

def give (env : IndexedEnvironment) (slot : env.Slot) (traits : Traits) : IndexedEnvironment :=
  { env with entries := env.entries.set slot ((env.entry slot).1, (env.entry slot).2.union traits) }

def push (env : IndexedEnvironment) (name : String) : IndexedEnvironment :=
  { env with
    entries := env.entries.push (name, { captured := env.everythingCaptured })
    index := env.index.insert name env.entries.size }

/-- Declare a name if it is new. Tells where its variable stands, and whether it is new. -/
def add (env : IndexedEnvironment) (name : String) :
    Except OutOfRange ((env : IndexedEnvironment) × env.Slot × Bool) :=
  match env.index[name]? with
  | some place => (⟨env, ·, false⟩) <$> env.slot place
  | none => (⟨env.push name, ·, true⟩) <$> (env.push name).slot env.entries.size

def declare (env : IndexedEnvironment) (name : String) (traits : Traits) :
    Except OutOfRange IndexedEnvironment :=
  (fun ⟨env, slot, _⟩ => env.give slot traits) <$> env.add name

/-- Give the variable of a name, if there is one, further traits. -/
def mark (env : IndexedEnvironment) (name : String) (traits : Traits) :
    Except OutOfRange IndexedEnvironment :=
  (fun | some slot => env.give slot traits | none => env) <$> env.findSlot name

def capture (env : IndexedEnvironment) (name : String) : Except OutOfRange IndexedEnvironment :=
  env.mark name { captured := true }

def captureAll (env : IndexedEnvironment) : IndexedEnvironment :=
  { env with
    entries := env.entries.map fun (n, t) => (n, { t with captured := true })
    everythingCaptured := true }

@[simp] theorem names_plain (env : IndexedEnvironment) : env.plain.names = env.names := rfl

@[simp] theorem length_names (env : IndexedEnvironment) : env.names.length = env.entries.size := by
  rw [names, List.length_map, Array.length_toList]

@[simp] theorem names_give (env : IndexedEnvironment) (slot : env.Slot) (traits : Traits) :
    (env.give slot traits).names = env.names := by
  refine List.ext_getElem? fun i => ?_
  simp only [names, give, entry, Array.toList_set, List.getElem?_map, List.getElem?_set]
  split
  · next h => subst h; simp
  · rfl

@[simp] theorem names_push (env : IndexedEnvironment) (name : String) :
    (env.push name).names = env.names ++ [name] := by
  simp [names, push]

@[simp] theorem names_captureAll (env : IndexedEnvironment) : env.captureAll.names = env.names := by
  simp [names, captureAll]

@[simp] theorem plain_push (env : IndexedEnvironment) (name : String) :
    (env.push name).plain =
      ⟨env.plain.entries ++ [(name, { captured := env.plain.everythingCaptured })],
        env.plain.everythingCaptured⟩ := by
  simp [plain, push]

@[simp] theorem plain_captureAll (env : IndexedEnvironment) :
    env.captureAll.plain = env.plain.captureAll := by
  simp [plain, captureAll, Environment.captureAll]

end IndexedEnvironment

end EcmaFront
