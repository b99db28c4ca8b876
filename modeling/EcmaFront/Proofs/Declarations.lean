import EcmaFront.Proofs.Reach
import EcmaFront.Tree.Occurrence

/-!
What a text declares, and what the open frames gain by it. Each name goes to the frame that it
belongs to: a parameter, a `var` and most functions to the nearest function or program, a `let` or
`const` to the innermost frame.
-/

set_option autoImplicit false

namespace EcmaFront

/-- What a variable was declared as, whether it is captured or not. -/
def Traits.uncaptured (t : Traits) : Traits := { t with captured := false }

def Environment.declarations (env : Environment) : List (String × Traits) :=
  env.entries.map fun e => (e.1, e.2.uncaptured)

inductive DeclarationForm where
  | parameter
  | variable (kind : VariableKind)
  | function
  deriving DecidableEq, Repr

/-- The keyword that stands for the form. In a block of strict code a function is declared as by
`let`. -/
def DeclarationForm.kind (strict inBlock : Bool) : DeclarationForm → VariableKind
  | .parameter => .var
  | .variable kind => kind
  | .function => if strict && inBlock then .let else .var

/-- The lexical variable that a keyword makes of a name. -/
def VariableKind.lexical? (name : String) : VariableKind → Option (String × Traits)
  | .var => none
  | .let => some (name, { isLet := true })
  | .const => some (name, { isConst := true })

/-- A declaration of a name in a function or program. -/
structure Declaration where
  name : String
  form : DeclarationForm
  /-- It stands in a block of the function or program. -/
  inBlock : Bool
  deriving DecidableEq, Repr

/-- What a text declares: names, and environments of blocks together with what is declared directly
there. -/
inductive Declared where
  | name (d : Declaration)
  | block (scope : Environment) (ds : List Declaration)

namespace Declared

def names (l : List Declared) : List Declaration :=
  l.filterMap fun
    | .name d => some d
    | .block _ _ => none

def direct (l : List Declared) : List Declaration := (names l).filter (!·.inBlock)

def enclosed : Declared → Declared
  | .name d => .name { d with inBlock := true }
  | .block scope ds => .block scope ds

/-- The names that the nearest function or program takes. -/
def vars (strict inBlock : Bool) (l : List Declared) : List String :=
  (names l).filterMap fun d =>
    if d.form.kind strict (d.inBlock || inBlock) = .var then some d.name else none

def lexicals (strict inBlock : Bool) (ds : List Declaration) : List (String × Traits) :=
  ds.filterMap fun d => (d.form.kind strict inBlock).lexical? d.name

end Declared

namespace Declared

variable {strict inBlock : Bool} {l l' : List Declared}

@[simp] theorem names_append : names (l ++ l') = names l ++ names l' := List.filterMap_append

@[simp] theorem direct_append : direct (l ++ l') = direct l ++ direct l' := by simp [direct]

@[simp] theorem vars_append :
    vars strict inBlock (l ++ l') = vars strict inBlock l ++ vars strict inBlock l' := by
  simp [vars]

@[simp] theorem lexicals_append {ds ds' : List Declaration} :
    lexicals strict inBlock (ds ++ ds') =
    lexicals strict inBlock ds ++ lexicals strict inBlock ds' :=
  List.filterMap_append

theorem lexicals_name (name : String) (form : DeclarationForm) :
    lexicals strict inBlock (direct [.name ⟨name, form, false⟩]) =
      ((form.kind strict inBlock).lexical? name).toList := by
  show List.filterMap _ [(⟨name, form, false⟩ : Declaration)] = _
  rw [List.filterMap_cons, List.filterMap_nil]
  cases (form.kind strict inBlock).lexical? name <;> rfl

@[simp] theorem names_enclosed :
    names (l.map enclosed) = (names l).map ({ · with inBlock := true }) := by
  induction l with
  | nil => rfl
  | cons d l ih => cases d <;> simpa [names, enclosed] using ih

theorem vars_name (name : String) (form : DeclarationForm) :
    vars strict inBlock [.name ⟨name, form, false⟩] = if form.kind strict inBlock = .var then [name]
      else [] := by
  by_cases h : form.kind strict inBlock = .var <;> simp [vars, names, h]

end Declared

open Declared (names direct vars lexicals)

/-- What a program or function declares, without the functions in it. -/
def declaredNames : Collector Declared where
  leaf
    | .binding .parameter name => [.name ⟨name, .parameter, false⟩]
    | .binding (.variable kind) name => [.name ⟨name, .variable kind, false⟩]
    | .functionName name => [.name ⟨name, .function, false⟩]
    | _ => []
  function _ _ := []
  block scope l := .block scope (direct l) :: l.map .enclosed
  assigned l := l

/-- The scope of a program or function and the scopes of the blocks in it tell just of what is
declared: the parameters, the names of `var` and the functions of the whole body, each once and in
the order of the text, and the names of `let` and `const` that stand directly in the body or
block. -/
structure Enclosure.DeclaresExactly (e : Enclosure Declared) : Prop where
  declared : e.scope.declared.declarations =
    (vars e.scope.strict false e.found).eraseDups.map fun name => (name, { isVar := true })
  lexical : e.scope.lexical.declarations = lexicals e.scope.strict false (direct e.found)
  blocks : ∀ scope ds, .block scope ds ∈ e.found →
    scope.declarations = lexicals e.scope.strict true ds

namespace Declared

variable {strict inBlock : Bool} {l : List Declared}

theorem vars_block (scope : Environment) :
    vars strict inBlock (declaredNames.block scope l) = vars strict true l := by
  show (names (l.map enclosed)).filterMap _ = _
  rw [names_enclosed, List.filterMap_map]
  simp only [vars, Function.comp_def, Bool.true_or, Bool.or_true]

theorem direct_block (scope : Environment) : direct (declaredNames.block scope l) = [] := by
  show (names (l.map enclosed)).filter _ = _
  rw [names_enclosed, List.filter_map]
  simp

end Declared

namespace Environment

theorem declarations_mark (env : Environment) (name : String) {traits : Traits}
    (h : traits.captured = false) :
    (env.mark name traits).declarations = (mark ⟨env.declarations, false⟩ name traits).entries := by
  simp only [declarations, mark, List.map_map]
  refine List.map_congr_left fun e _ => ?_
  simp only [Function.comp_apply]
  split
  · simp [Traits.union, Traits.uncaptured, h]
  · rfl

theorem declarations_capture (env : Environment) (name : String) :
    (env.capture name).declarations = env.declarations := by
  simp only [declarations, capture, mark, List.map_map]
  refine List.map_congr_left fun e _ => ?_
  simp only [Function.comp_apply]
  split
  · simp [Traits.union, Traits.uncaptured]
  · rfl

theorem declarations_foldl_capture (names : List String) (env : Environment) :
    (names.foldl capture env).declarations = env.declarations := by
  induction names generalizing env with
  | nil => rfl
  | cons name rest ih => rw [List.foldl_cons, ih, declarations_capture]

theorem declarations_captureAll (env : Environment) :
    env.captureAll.declarations = env.declarations := by
  simp [declarations, captureAll, Traits.uncaptured]

theorem contains_declarations (env : Environment) (name : String) :
    contains ⟨env.declarations, false⟩ name = env.contains name :=
  contains_of_names (by simp [names, declarations]) name

theorem declarations_add (env : Environment) (name : String) :
    (env.add name).declarations = (add ⟨env.declarations, false⟩ name).entries := by
  rw [add, add, contains_declarations]
  split
  · rfl
  · simp [declarations, Traits.uncaptured]

theorem declarations_declare (env : Environment) (name : String) {traits : Traits}
    (h : traits.captured = false) :
    (env.declare name traits).declarations =
    (declare ⟨env.declarations, false⟩ name traits).entries := by
  rw [declare, declarations_mark _ _ h, declarations_add]
  rfl

theorem entries_declare_new {env : Environment} {name : String} (h : env.contains name = false)
    (traits : Traits) :
    (env.declare name traits).entries =
      env.entries ++ [(name, Traits.union { captured := env.everythingCaptured } traits)] := by
  have hs : env.mark name traits = env := by
    refine mark_eq_self fun e he hm => absurd ((mem_names env name).1 ?_) (by simp [h])
    exact hm ▸ List.mem_map_of_mem he
  have hm : (env.declare name traits).entries =
      (env.mark name traits).entries ++
      [(name, Traits.union { captured := env.everythingCaptured } traits)] := by
    simp [declare, add, h, mark]
  rw [hm, hs]

theorem declarations_declare_new {env : Environment} {name : String} {traits : Traits}
    (h : traits.captured = false) (hn : env.contains name = false) :
    (env.declare name traits).declarations = env.declarations ++ [(name, traits)] := by
  have ht : (Traits.union { captured := env.everythingCaptured } traits).uncaptured = traits := by
    cases traits
    cases h
    simp [Traits.union, Traits.uncaptured]
  rw [declarations, entries_declare_new hn, List.map_append, List.map_singleton, ht, declarations]

end Environment

def addVariable (entries : List (String × Traits)) (name : String) : List (String × Traits) :=
  (Environment.declare ⟨entries, false⟩ name { isVar := true }).entries

def addVariables (names : List String) (entries : List (String × Traits)) :
    List (String × Traits) :=
  names.foldl addVariable entries

theorem addVariables_nil (names : List String) :
    addVariables names [] = names.eraseDups.map fun name => (name, { isVar := true }) := by
  rw [← names.reverse_reverse]
  induction names.reverse with
  | nil => rfl
  | cons name rest ih =>
    rw [addVariables] at ih
    rw [addVariables, List.reverse_cons, List.foldl_append, ih, List.foldl_cons, List.foldl_nil,
      List.eraseDups_append]
    have hc : Environment.contains
        ⟨rest.reverse.eraseDups.map fun name => (name, { isVar := true }), false⟩ name =
        rest.reverse.elem name := by
      rw [Bool.eq_iff_iff, ← Environment.mem_names, List.elem_iff]
      simp [Environment.names]
    cases hn : rest.reverse.elem name with
    | true =>
      have hr : [name].removeAll rest.reverse = [] := by simpa [List.removeAll] using hn
      rw [hr, addVariable, Environment.declare, Environment.add, if_pos (hc.trans hn),
        Environment.mark_eq_self]
      · simp
      · rintro e he -
        obtain ⟨_, -, rfl⟩ := List.mem_map.1 he
        rfl
    | false =>
      have hr : [name].removeAll rest.reverse = [name] := by simpa [List.removeAll] using hn
      rw [hr, addVariable, Environment.entries_declare_new (hc.trans hn), List.map_append]
      rfl

def Frame.variables (f : Frame) : Bool × Environment × Environment :=
  (f.isBoundary, f.declared, f.lexical)

namespace Scopes

/-- The variables of the open functions and programs, the innermost first. -/
def outerVariables (s : Scopes) : List (List (String × Traits)) :=
  s.boundaries.map (·.declared.declarations)

/-- The lexical variables of the open frames, the innermost first. -/
def lexicalVariables (s : Scopes) : List (List (String × Traits)) :=
  s.frames.map (·.lexical.declarations)

/-- Between the frames lies what is declared at a place. Code at the place may be strict or in a
block. -/
structure Gains (strict inBlock : Bool) (l : List Declared) (s s' : Scopes) : Prop where
  outer : s'.outerVariables = s.outerVariables.modifyHead (addVariables (vars strict inBlock l))
  lexical : s'.lexicalVariables =
    s.lexicalVariables.modifyHead (· ++ lexicals strict inBlock (direct l))
  blocks : ∀ scope ds, .block scope ds ∈ l → scope.declarations = lexicals strict true ds

variable {strict inBlock : Bool} {l l' : List Declared} {s s₁ s' : Scopes}

namespace Gains

theorem of_views (ho : s'.outerVariables = s.outerVariables)
    (hl : s'.lexicalVariables = s.lexicalVariables) :
    Gains strict inBlock [] s s' := by
  refine ⟨?_, ?_, nofun⟩
  · rw [ho]
    cases s.outerVariables <;> rfl
  · rw [hl]
    cases s.lexicalVariables <;> simp [direct, names, lexicals]

theorem nothing (h : s'.frames.map Frame.variables = s.frames.map Frame.variables) :
    Gains strict inBlock [] s s' := by
  refine of_views (map_boundaries_congr ?_) ?_
  · simpa [Frame.variables, Function.comp_def] using
      congrArg (List.map fun v => (v.1, v.2.1.declarations)) h
  · simpa [Frame.variables, lexicalVariables, Function.comp_def] using
      congrArg (List.map fun v => v.2.2.declarations) h

theorem views (h : Gains strict inBlock [] s s') :
    s'.outerVariables = s.outerVariables ∧ s'.lexicalVariables = s.lexicalVariables := by
  constructor
  · rw [h.outer]
    cases s.outerVariables <;> rfl
  · rw [h.lexical]
    cases s.lexicalVariables <;> simp [direct, names, lexicals]

theorem trans (h : Gains strict inBlock l s s₁) (h' : Gains strict inBlock l' s₁ s') :
    Gains strict inBlock (l ++ l') s s' where
  outer := by
    rw [h'.outer, h.outer, List.modifyHead_modifyHead, Declared.vars_append]
    refine congrArg (List.modifyHead · _) (funext fun entries => ?_)
    exact List.foldl_append.symm
  lexical := by
    rw [h'.lexical, h.lexical, List.modifyHead_modifyHead, Declared.direct_append,
      Declared.lexicals_append]
    refine congrArg (List.modifyHead · _) (funext fun entries => ?_)
    exact List.append_assoc _ _ _
  blocks scope ds hm := (List.mem_append.1 hm).elim (h.blocks scope ds) (h'.blocks scope ds)

end Gains

namespace Gains

theorem reach {p q : Frame → Frame} {name : String} {form : DeclarationForm}
    (hk : form.kind strict inBlock = .var)
    (hp : ∀ f, (p f).variables = f.variables)
    (hq : ∀ f, (q f).variables =
      (f.isBoundary, f.declared.declare name { isVar := true }, f.lexical)) :
    Gains strict inBlock [.name ⟨name, form, false⟩] s ⟨Scopes.reach p q s.frames⟩ where
  outer := by
    rw [Declared.vars_name, if_pos hk]
    refine map_boundaries_reach (fun f => congrArg (·.1) (hp f))
      (fun f => congrArg (·.1) (hq f)) (fun f => ?_)
      s.frames
    have hd : (q f).declared = f.declared.declare name { isVar := true } := congrArg (·.2.1) (hq f)
    rw [hd, Environment.declarations_declare _ _ rfl]
    rfl
  lexical := by
    rw [Declared.lexicals_name, hk]
    have hm : (Scopes.reach p q s.frames).map (·.lexical.declarations) = s.lexicalVariables :=
      map_reach (fun f => congrArg (·.2.2.declarations) (hp f))
        (fun f => congrArg (·.2.2.declarations) (hq f)) _
    refine hm.trans ?_
    cases s.lexicalVariables <;> simp [VariableKind.lexical?]
  blocks := by simp

theorem unbounded {name : String} {form : DeclarationForm} (hk : form.kind strict inBlock = .var)
    (h : s.frames.any (·.isBoundary) = false) :
    Gains strict inBlock [.name ⟨name, form, false⟩] s s where
  outer := by rw [outerVariables, boundaries_unbounded h, List.map_nil, List.modifyHead_nil]
  lexical := by
    rw [Declared.lexicals_name, hk]
    cases s.lexicalVariables <;> simp [VariableKind.lexical?]
  blocks := by simp

theorem declareVar {form : DeclarationForm} (hk : form.kind strict inBlock = .var) (name : String) :
    Gains strict inBlock [.name ⟨name, form, false⟩] s (s.declareVar name).1 := by
  cases hs : s.frames.any (·.isBoundary) with
  | true =>
    rw [declareVar_eq hs]
    exact reach hk (fun _ => rfl) fun _ => rfl
  | false =>
    rw [declareVar_unbounded hs]
    exact unbounded hk hs

theorem declareLexical {form : DeclarationForm} {constant : Bool} {name : String}
    (hk : form.kind strict inBlock = if constant then .const else .let)
    (hd : (s.declareLexical name constant).2.duplicated = false) :
    Gains strict inBlock [.name ⟨name, form, false⟩] s (s.declareLexical name constant).1 := by
  rcases s with ⟨_ | ⟨f, rest⟩⟩
  · exact ⟨rfl, rfl, by simp⟩
  · have hc : f.lexical.contains name = false := by
      simp only [Scopes.declareLexical, Frame.declareLexical, Bool.or_eq_false_iff] at hd
      exact hd.2
    have hv : form.kind strict inBlock ≠ .var := by
      rw [hk]
      cases constant <;> nofun
    have ht : (VariableKind.lexical? name (if constant then .const else .let)).toList =
        [(name, { isLet := !constant, isConst := constant })] := by
      cases constant <;> rfl
    refine ⟨?_, ?_, by simp⟩
    · rw [Declared.vars_name, if_neg hv]
      have ho : (Scopes.declareLexical ⟨f :: rest⟩ name constant).1.outerVariables =
          outerVariables ⟨f :: rest⟩ := map_boundaries_congr rfl
      rw [ho]
      cases outerVariables ⟨f :: rest⟩ <;> rfl
    · rw [Declared.lexicals_name, hk, ht]
      refine congrArg (· :: rest.map (·.lexical.declarations)) ?_
      exact Environment.declarations_declare_new rfl hc

theorem declare {form : DeclarationForm} {kind : VariableKind}
    (hk : form.kind strict inBlock = kind) {name : String}
    (hd : kind ≠ .var → (s.declare name kind).2.duplicated = false) :
    Gains strict inBlock [.name ⟨name, form, false⟩] s (s.declare name kind).1 := by
  cases kind with
  | var => exact declareVar hk name
  | «let» => exact declareLexical hk (hd nofun)
  | const => exact declareLexical hk (hd nofun)

theorem declareParameter (name : String) :
    Gains strict inBlock [.name ⟨name, .parameter, false⟩] s (s.declareParameter name).1 := by
  unfold Scopes.declareParameter
  cases hf : s.function? with
  | none =>
    refine unbounded rfl ?_
    simpa [Scopes.function?] using hf
  | some f =>
    have hr : s.modifyFunction (·.declareParameter name |>.1) =
        ⟨Scopes.reach id (·.declareParameter name |>.1) s.frames⟩ :=
      congrArg Scopes.mk (modifyFunction_eq s _)
    rw [hr]
    exact reach rfl (fun _ => rfl) fun _ => rfl

theorem declareCatch (h : s.top?.any (·.isBlock) = true) (name : String) :
    Gains strict inBlock [] s (s.declareCatch name).1 := by
  rcases s with ⟨_ | ⟨f, rest⟩⟩
  · cases h
  · have hb : f.isBoundary = false := by
      simpa [Scopes.top?, Frame.isBlock_eq] using h
    refine of_views ?_ rfl
    have hc : (f.declareCatch name).1.isBoundary = false := hb
    rw [outerVariables, outerVariables, Scopes.declareCatch, boundaries_block hc,
      boundaries_block hb]

end Gains

end Scopes

/-! Leaving a frame changes no more than which variables are captured. -/

namespace Frame

theorem declarations_lexical_finishLexical (f : Frame) :
    f.finishLexical.lexical.declarations = f.lexical.declarations := by
  unfold finishLexical
  split
  · exact Environment.declarations_captureAll _
  · exact Environment.declarations_foldl_capture _ _

theorem declarations_declared_finishLexical (f : Frame) :
    f.finishLexical.declared.declarations = f.declared.declarations := by
  unfold finishLexical
  split
  · dsimp only
    split
    · exact Environment.declarations_captureAll _
    · rfl
  · dsimp only
    split
    · exact Environment.declarations_foldl_capture _ _
    · rfl

theorem declarations_declared_finish (f : Frame) :
    f.finish.2.declared.declarations = f.declared.declarations := by
  refine Eq.trans ?_ f.declarations_declared_finishLexical
  simp only [finish, captureDeclared]
  split
  · exact Environment.declarations_captureAll _
  · exact Environment.declarations_foldl_capture _ _

theorem declarations_lexical_finish (f : Frame) :
    f.finish.2.lexical.declarations = f.lexical.declarations := by
  refine Eq.trans ?_ f.declarations_lexical_finishLexical
  simp only [finish, captureDeclared]
  split <;> rfl

end Frame

namespace Scopes

variable {strict inBlock : Bool} {l : List Declared} {s s' : Scopes}

theorem variables_pop (f : Frame) (rest : List Frame) (trackClosed : Bool) :
    ((Scopes.mk (f :: rest)).pop trackClosed).frames.map Frame.variables =
    rest.map Frame.variables := by
  cases rest <;> rfl

theorem views_pop (f : Frame) (rest : List Frame) (trackClosed : Bool) :
    ((Scopes.mk (f :: rest)).pop trackClosed).outerVariables = outerVariables ⟨rest⟩ ∧
      ((Scopes.mk (f :: rest)).pop trackClosed).lexicalVariables = lexicalVariables ⟨rest⟩ := by
  have h : Gains false false [] ⟨rest⟩ ((Scopes.mk (f :: rest)).pop trackClosed) :=
    .nothing (variables_pop f rest trackClosed)
  exact h.views

end Scopes

end EcmaFront
