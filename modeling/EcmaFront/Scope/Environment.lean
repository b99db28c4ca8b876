/-!
The variables of one scope: names in the order in which they were first declared, each with its
traits. Once everything is captured, so is what is declared later.
-/

set_option autoImplicit false

namespace EcmaFront

structure Traits where
  isVar : Bool := false
  isLet : Bool := false
  isConst : Bool := false
  /-- Referred to from a function inside the scope. -/
  captured : Bool := false
  exported : Bool := false
  imported : Bool := false
  /-- Stands for a whole imported module. -/
  isNamespace : Bool := false
  deriving DecidableEq, Repr, Inhabited

/-- The traits of either. -/
def Traits.union (s t : Traits) : Traits where
  isVar := s.isVar || t.isVar
  isLet := s.isLet || t.isLet
  isConst := s.isConst || t.isConst
  captured := s.captured || t.captured
  exported := s.exported || t.exported
  imported := s.imported || t.imported
  isNamespace := s.isNamespace || t.isNamespace

structure Environment where
  entries : List (String × Traits) := []
  everythingCaptured : Bool := false
  deriving DecidableEq, Repr, Inhabited

namespace Environment

def empty : Environment := {}

def names (env : Environment) : List String := env.entries.map (·.1)

def size (env : Environment) : Nat := env.entries.length

def isEmpty (env : Environment) : Bool := env.entries.isEmpty

def find? (env : Environment) (name : String) : Option Traits := env.entries.lookup name

def contains (env : Environment) (name : String) : Bool := (env.find? name).isSome

/-- Give the variable of a name, if there is one, further traits. -/
def mark (env : Environment) (name : String) (traits : Traits) : Environment :=
  { env with entries := env.entries.map fun (n, t) => (n, if n == name then t.union traits else t) }

def add (env : Environment) (name : String) : Environment :=
  if env.contains name then env
  else { env with entries := env.entries ++ [(name, { captured := env.everythingCaptured })] }

def declare (env : Environment) (name : String) (traits : Traits) : Environment :=
  (env.add name).mark name traits

def capture (env : Environment) (name : String) : Environment := env.mark name { captured := true }

def captureAll (env : Environment) : Environment :=
  ⟨env.entries.map fun (n, t) => (n, { t with captured := true }), true⟩

theorem mem_names (env : Environment) (name : String) :
    name ∈ env.names ↔ env.contains name = true := by
  obtain ⟨entries, _⟩ := env
  simp only [names, contains, find?]
  induction entries with
  | nil => simp
  | cons entry entries ih =>
    obtain ⟨n, t⟩ := entry
    rw [List.map_cons, List.mem_cons, ih, List.lookup_cons]
    by_cases h : name = n
    · simp [h]
    · simp [h, beq_eq_false_iff_ne.2 h]

@[simp] theorem names_mark (env : Environment) (name : String) (traits : Traits) :
    (env.mark name traits).names = env.names := by
  simp [mark, names]

theorem mark_eq_self {env : Environment} {name : String} {traits : Traits}
    (h : ∀ e ∈ env.entries, e.1 = name → e.2.union traits = e.2) : env.mark name traits = env := by
  have he : env.entries.map (fun e => (e.1, if e.1 == name then e.2.union traits else e.2)) =
      env.entries := by
    refine (List.map_congr_left fun e hm => ?_).trans (List.map_id _)
    by_cases hn : e.1 = name
    · simp only [hn, h e hm hn, beq_self_eq_true, if_true, id]
      rw [← hn]
    · simp [hn]
  exact congrArg (Environment.mk · env.everythingCaptured) he

theorem names_add (env : Environment) (name : String) :
    (env.add name).names = if env.contains name then env.names else env.names ++ [name] := by
  unfold add
  split <;> simp [names]

theorem names_declare (env : Environment) (name : String) (traits : Traits) :
    (env.declare name traits).names = if env.contains name then env.names
      else env.names ++ [name] := by
  rw [declare, names_mark, names_add]

@[simp] theorem names_captureAll (env : Environment) : env.captureAll.names = env.names := by
  simp [captureAll, names]

theorem contains_of_names {env env' : Environment} (h : env'.names = env.names) (name : String) :
    env'.contains name = env.contains name := by
  rw [Bool.eq_iff_iff, ← mem_names, ← mem_names, h]

@[simp] theorem contains_mark (env : Environment) (name : String) (traits : Traits) (x : String) :
    (env.mark name traits).contains x = env.contains x :=
  contains_of_names (names_mark env name traits) x

@[simp] theorem contains_captureAll (env : Environment) (x : String) :
    env.captureAll.contains x = env.contains x :=
  contains_of_names (names_captureAll env) x

@[simp] theorem names_foldl_capture (names : List String) (env : Environment) :
    (names.foldl capture env).names = env.names := by
  induction names generalizing env with
  | nil => rfl
  | cons name rest ih => rw [List.foldl_cons, ih, capture, names_mark]

@[simp] theorem contains_foldl_capture (names : List String) (env : Environment) (x : String) :
    (names.foldl capture env).contains x = env.contains x :=
  contains_of_names (names_foldl_capture names env) x

theorem contains_declare (env : Environment) (name : String) (traits : Traits) (x : String) :
    (env.declare name traits).contains x = true ↔ env.contains x = true ∨ x = name := by
  rw [← mem_names, names_declare]
  split
  · next h =>
    rw [mem_names]
    exact ⟨.inl, fun hx => hx.elim id fun hx => hx ▸ h⟩
  · rw [List.mem_append, List.mem_singleton, mem_names]

theorem nodup_names_declare {env : Environment} (h : env.names.Nodup) (name : String)
    (traits : Traits) :
    (env.declare name traits).names.Nodup := by
  rw [names_declare]
  split
  · exact h
  · next hc =>
    rw [List.nodup_append]
    refine ⟨h, by simp, fun a ha b hb => ?_⟩
    rw [List.mem_singleton.1 hb]
    rintro rfl
    exact hc ((mem_names env a).1 ha)

end Environment

end EcmaFront
