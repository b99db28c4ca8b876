import EcmaFront.Proofs.Reach
import EcmaFront.Proofs.ScopeRun

/-!
What a run does to every frame that was open before it.
-/

set_option autoImplicit false

namespace EcmaFront

structure Environment.Unsettled (env : Environment) : Prop where
  later : env.everythingCaptured = false
  entries : ∀ e ∈ env.entries, e.2.captured = false

namespace Environment.Unsettled

variable {env : Environment}

theorem empty : Environment.empty.Unsettled := ⟨rfl, nofun⟩

theorem add (h : env.Unsettled) (name : String) : (env.add name).Unsettled := by
  unfold Environment.add
  split
  · exact h
  · refine ⟨h.later, fun e he => ?_⟩
    rcases List.mem_append.1 he with he | he
    · exact h.entries e he
    · rw [List.mem_singleton.1 he]
      exact h.later

theorem mark (h : env.Unsettled) (name : String) {traits : Traits} (ht : traits.captured = false) :
    (env.mark name traits).Unsettled := by
  refine ⟨h.later, fun e he => ?_⟩
  obtain ⟨e', he', rfl⟩ := List.mem_map.1 he
  have hc := h.entries e' he'
  dsimp only
  split
  · simp [Traits.union, hc, ht]
  · exact hc

theorem declare (h : env.Unsettled) (name : String) {traits : Traits}
    (ht : traits.captured = false) :
    (env.declare name traits).Unsettled := (h.add name).mark name ht

end Environment.Unsettled

/-- A list of names without repetition, and one more behind them. -/
def noteName (names : List String) (x : String) : List String :=
  if x ∈ names then names else names ++ [x]

theorem foldl_noteName (xs names : List String) :
    xs.foldl noteName names = names ++ (xs.removeAll names).eraseDups := by
  induction xs generalizing names with
  | nil => simp [List.removeAll]
  | cons x xs ih =>
    rw [List.foldl_cons, ih, noteName]
    by_cases hx : x ∈ names
    · simp [List.removeAll, hx]
    · have hr : xs.removeAll (names ++ [x]) = (xs.removeAll names).filter (!· == x) := by
        simp [List.removeAll, List.filter_filter, ← Bool.beq_eq_decide_eq, Bool.and_comm]
      have hc : (x :: xs).removeAll names = x :: xs.removeAll names := by simp [List.removeAll, hx]
      rw [if_neg hx, hr, hc, List.eraseDups_cons, List.append_assoc, List.singleton_append]

theorem foldl_noteName_nil (xs : List String) : xs.foldl noteName [] = xs.eraseDups := by
  have hr : xs.removeAll [] = xs := List.filter_eq_self.2 fun _ _ => rfl
  rw [foldl_noteName, List.nil_append, hr]

namespace Environment

/-- The names come to the environment one after the other, each behind those that are there; or, if
they are not for it, none does. -/
structure Takes (env : Environment) (reached : Prop) (xs : List String) (env' : Environment) :
    Prop where
  names : reached → env'.names = xs.foldl noteName env.names
  same : ¬ reached → env'.names = env.names

namespace Takes

variable {env env' env'' : Environment} {reached : Prop} {xs ys : List String}

@[simp] theorem refl (env : Environment) (reached : Prop) : env.Takes reached [] env :=
  ⟨fun _ => rfl, fun _ => rfl⟩

@[simp] theorem unreached (env : Environment) (xs : List String) : env.Takes False xs env :=
  ⟨nofun, fun _ => rfl⟩

theorem trans (h : env.Takes reached xs env') (h' : env'.Takes reached ys env'') :
    env.Takes reached (xs ++ ys) env'' where
  names hr := by rw [h'.names hr, h.names hr, List.foldl_append]
  same hr := (h'.same hr).trans (h.same hr)

@[simp] theorem declare (env : Environment) (x : String) (traits : Traits) :
    env.Takes True [x] (env.declare x traits) where
  names _ := by simp only [names_declare, List.foldl_cons, List.foldl_nil, noteName, mem_names]
  same h := absurd trivial h

theorem outward {b : Bool} (h : env.Takes (b = true ∧ reached) xs env') :
    env.Takes reached (if b then xs else []) env' := by
  cases b with
  | true => exact ⟨fun hr => h.names ⟨rfl, hr⟩, fun hr => h.same fun ⟨_, h⟩ => hr h⟩
  | false => exact ⟨fun _ => h.same nofun, fun _ => h.same nofun⟩

end Takes

end Environment

namespace ScopeRun

/-- What a run does to a frame that was open before it: the `top` one, or one below such that the
way to it leads through blocks only, or another one. A `var` leaves its mark on blocks only if some
function or program around them takes it. -/
structure Effect (r : ScopeRun) (bounded top through : Prop) (f g : Frame) : Prop where
  kind : g.kind = f.kind
  name : g.name = f.name
  bindsOwnName : g.bindsOwnName = f.bindsOwnName
  lexical : ∀ x, g.lexical.contains x = true ↔
    f.lexical.contains x = true ∨ (top ∧ r.DeclaresLexical x)
  declared : ∀ x, g.declared.contains x = true ↔
    f.declared.contains x = true ∨ (top ∧ r.Catches x) ∨
    (through ∧ f.isBlock = false ∧ (r.DeclaresVar x ∨ r.TakesParameter x))
  hoisted : bounded → ∀ x, g.hoisted.contains x = true ↔ f.hoisted.contains x = true ∨
    (through ∧ f.isBlock = true ∧ r.DeclaresVar x)
  used : ∀ x, g.used.contains x = true ↔ f.used.contains x = true ∨ (top ∧ r.UsesFreely x)
  closed : ∀ x, g.closed.contains x = true ↔ f.closed.contains x = true ∨ (top ∧ r.ClosesOver x)
  written : ∀ x, g.written.contains x = true ↔
    f.written.contains x = true ∨ (top ∧ r.WritesFreely x)
  parameters : ∀ x, x ∈ g.parameters ↔
    x ∈ f.parameters ∨ (through ∧ f.isBlock = false ∧ r.TakesParameter x)
  shadowsArguments : g.shadowsArguments = true ↔ f.shadowsArguments = true ∨
    (through ∧ f.isBlock = false ∧ (r.DeclaresVar "arguments" ∨ r.TakesParameter "arguments"))
  usesEval : g.usesEval = true ↔ f.usesEval = true ∨ (top ∧ r.UsesEval)
  fullActivation : g.fullActivation = true ↔ f.fullActivation = true ∨ (through ∧ r.Activates)
  unsettled : f.lexical.Unsettled ∧ f.declared.Unsettled → g.lexical.Unsettled ∧
    g.declared.Unsettled
  lexicalNames : f.lexical.Takes top r.lexicalNames g.lexical
  /-- Only a block is that of a `catch` clause. -/
  declaredNames : f.isBlock = false → (top → ∀ x, ¬ r.Catches x) →
    f.declared.Takes through r.variableNames g.declared

attribute [local simp] DeclaresLexical Catches DeclaresVar TakesParameter UsesFreely WritesFreely
  ClosesOver UsesEval Activates
  makes_move Environment.contains_declare

namespace Effect

variable {r r' : ScopeRun} {bounded top through : Prop} {f g h : Frame}

theorem isBlock (hf : r.Effect bounded top through f g) : g.isBlock = f.isBlock := by
  rw [Frame.isBlock, Frame.isBlock, hf.kind]

theorem trans (hf : r.Effect bounded top through f g) (hg : r'.Effect bounded top through g h) :
    (r ++ r').Effect bounded top through f h where
  kind := hg.kind.trans hf.kind
  name := hg.name.trans hf.name
  bindsOwnName := hg.bindsOwnName.trans hf.bindsOwnName
  lexical x := by
    have ha : (r ++ r').DeclaresLexical x ↔ r.DeclaresLexical x ∨ r'.DeclaresLexical x := by
      simp only [DeclaresLexical, makes_append, and_or_left, exists_or]
    rw [hg.lexical, hf.lexical, ha]
    tauto
  declared x := by
    rw [hg.declared, hf.declared, hf.isBlock, Catches, Catches, Catches, DeclaresVar,
      DeclaresVar, DeclaresVar,
      TakesParameter, TakesParameter, TakesParameter, makes_append, makes_append, makes_append]
    tauto
  hoisted hb x := by
    rw [hg.hoisted hb, hf.hoisted hb, hf.isBlock, DeclaresVar, DeclaresVar,
      DeclaresVar, makes_append]
    tauto
  used x := by
    rw [hg.used, hf.used, UsesFreely, UsesFreely, UsesFreely, makes_append]
    tauto
  closed x := by
    rw [hg.closed, hf.closed, ClosesOver, ClosesOver, ClosesOver, makes_append]
    tauto
  written x := by
    rw [hg.written, hf.written, WritesFreely, WritesFreely, WritesFreely, makes_append]
    tauto
  parameters x := by
    rw [hg.parameters, hf.parameters, hf.isBlock, TakesParameter, TakesParameter,
      TakesParameter, makes_append]
    tauto
  shadowsArguments := by
    rw [hg.shadowsArguments, hf.shadowsArguments, hf.isBlock, DeclaresVar, DeclaresVar, DeclaresVar,
      TakesParameter, TakesParameter, TakesParameter, makes_append, makes_append]
    tauto
  usesEval := by
    rw [hg.usesEval, hf.usesEval, UsesEval, UsesEval, UsesEval, makes_append]
    tauto
  fullActivation := by
    rw [hg.fullActivation, hf.fullActivation, Activates, Activates, Activates, makes_append]
    tauto
  unsettled hu := hg.unsettled (hf.unsettled hu)
  lexicalNames := by
    rw [lexicalNames_append]
    exact hf.lexicalNames.trans hg.lexicalNames
  declaredNames hb hc := by
    simp only [Catches, makes_append, not_or] at hc
    rw [variableNames_append]
    exact (hf.declaredNames hb fun ht x => (hc ht x).1).trans
      (hg.declaredNames (hf.isBlock.trans hb) fun ht x => (hc ht x).2)

/-- A frame that no call of the run reaches. -/
theorem refl (r : ScopeRun) (bounded : Prop) (f : Frame) : r.Effect bounded False False f f := by
  constructor <;> simp

theorem done (bounded top through : Prop) (f : Frame) :
    ScopeRun.done.Effect bounded top through f f := by
  constructor <;> simp [not_makes_done]

theorem declareLexical (bounded : Prop) (f : Frame) {x : String} {kind : VariableKind}
    (hk : kind ≠ .var) :
    (move (.declare x kind) .done).Effect bounded True True f
      (f.declareLexical x (kind == .const)).1 := by
  constructor
  case unsettled => exact fun h => ⟨h.1.declare x rfl, h.2⟩
  case lexicalNames =>
    cases kind with
    | var => exact absurd rfl hk
    | «let» | const => exact .declare f.lexical x _
  all_goals simp [Frame.declareLexical, hk, hk.symm]

theorem declareVar (bounded top : Prop) {f : Frame} (hf : f.isBlock = false) (x : String) :
    (move (.declare x .var) .done).Effect bounded top True f (f.declareVar x) := by
  constructor
  case unsettled => exact fun h => ⟨h.1, h.2.declare x rfl⟩
  case shadowsArguments => simp [Frame.declareVar, hf, eq_comm (a := x)]
  all_goals simp [Frame.declareVar, hf]

theorem passVar (bounded top : Prop) {f : Frame} (hf : f.isBlock = true) (x : String) :
    (move (.declare x .var) .done).Effect bounded top True f
      { f with hoisted := f.hoisted.insert x } := by
  constructor
  all_goals simp [hf, or_comm]

theorem declareParameter (bounded top : Prop) {f : Frame} (hf : f.isBlock = false) (x : String) :
    (move (.parameter x) .done).Effect bounded top True f (f.declareParameter x).1 := by
  constructor
  case unsettled => exact fun h => ⟨h.1, h.2.declare x rfl⟩
  case shadowsArguments => simp [Frame.declareParameter, hf, eq_comm (a := x)]
  case parameters =>
    intro y
    by_cases hx : x ∈ f.parameters
    · simp only [Frame.declareParameter, List.contains_iff_mem, hx, if_true, TakesParameter,
        makes_move, ScopeMove.parameter.injEq, throughBlocks_nil, true_and, hf]
      exact ⟨.inl, fun h => h.elim id fun h => h ▸ hx⟩
    · simp [Frame.declareParameter, hx, hf]
  all_goals simp [Frame.declareParameter, hf]

theorem passParameter (bounded top : Prop) {f : Frame} (hf : f.isBlock = true) (x : String) :
    (move (.parameter x) .done).Effect bounded top True f f := by
  constructor
  all_goals simp [hf]

theorem declareCatch (bounded : Prop) (f : Frame) (x : String) :
    (move (.catchParameter x) .done).Effect bounded True True f (f.declareCatch x).1 := by
  constructor
  case unsettled => exact fun h => ⟨h.1, h.2.declare x rfl⟩
  case declaredNames => exact fun _ hc => (hc trivial x (makes_move.2 ⟨rfl, rfl⟩)).elim
  all_goals simp [Frame.declareCatch]

theorem use (bounded : Prop) (f : Frame) (x : String) :
    (move (.use x) .done).Effect bounded True True f (f.use x) := by
  constructor
  case usesEval => simp [Frame.use, eq_comm (a := x)]
  all_goals simp [Frame.use, or_comm]

theorem write (bounded : Prop) (f : Frame) (x : String) :
    (move (.write x) .done).Effect bounded True True f (f.write x) := by
  constructor
  all_goals simp [Frame.write, or_comm]

theorem activate (bounded top : Prop) (f : Frame) :
    (move .activate .done).Effect bounded top True f { f with fullActivation := true } := by
  constructor
  all_goals simp

end Effect

/-- What a run does to the frames of a stack, the innermost first. -/
inductive Effects (r : ScopeRun) (bounded : Prop) :
    Prop → Prop → List Frame → List Frame → Prop where
  | nil (top through : Prop) : Effects r bounded top through [] []
  | cons {top through : Prop} {f g : Frame} {fs gs : List Frame}
    (hf : r.Effect bounded top through f g)
    (hr : Effects r bounded False (through ∧ f.isBlock = true) fs gs) :
    Effects r bounded top through (f :: fs) (g :: gs)

namespace Effects

variable {r r' : ScopeRun} {bounded top through : Prop} {fs gs hs : List Frame}

theorem trans (hf : r.Effects bounded top through fs gs)
    (hg : r'.Effects bounded top through gs hs) :
    (r ++ r').Effects bounded top through fs hs := by
  induction hf generalizing hs with
  | nil => cases hg; exact .nil _ _
  | cons hf _ ih =>
    cases hg with
    | cons hg hr => exact .cons (hf.trans hg) (ih (hf.isBlock ▸ hr))

theorem refl (r : ScopeRun) (bounded : Prop) (fs : List Frame) :
    r.Effects bounded False False fs fs := by
  induction fs with
  | nil => exact .nil _ _
  | cons f fs ih => exact .cons (.refl r bounded f) (by simpa using ih)

theorem done (bounded top through : Prop) (fs : List Frame) :
    ScopeRun.done.Effects bounded top through fs fs := by
  induction fs generalizing top through with
  | nil => exact .nil _ _
  | cons f fs ih => exact .cons (.done bounded top through f) (ih _ _)

theorem ne_nil (h : r.Effects bounded top through fs gs) (hf : fs ≠ []) : gs ≠ [] := by
  cases h with
  | nil => exact hf
  | cons => exact List.cons_ne_nil _ _

theorem any_isBoundary (h : r.Effects bounded top through fs gs) :
    gs.any (·.isBoundary) = fs.any (·.isBoundary) := by
  induction h with
  | nil => rfl
  | cons hf _ ih =>
    rw [List.any_cons, List.any_cons, ih, Frame.isBoundary, Frame.isBoundary, hf.kind]

theorem unreached (h : ∀ (through : Prop) (f : Frame), r.Effect bounded False through f f)
    (through : Prop) (fs : List Frame) : r.Effects bounded False through fs fs := by
  induction fs generalizing through with
  | nil => exact .nil _ _
  | cons f fs ih => exact .cons (h through f) (ih _)

end Effects

theorem Effects.reach {r : ScopeRun} {bounded : Prop} {p q : Frame → Frame}
    (hp : ∀ (top : Prop) (f : Frame), f.isBlock = true → r.Effect bounded top True f (p f))
    (hq : ∀ (top : Prop) (f : Frame), f.isBlock = false → r.Effect bounded top True f (q f))
    (top : Prop) (fs : List Frame) : r.Effects bounded top True fs (Scopes.reach p q fs) := by
  induction fs generalizing top with
  | nil => exact .nil _ _
  | cons f fs ih =>
    cases hf : f.isBlock with
    | true =>
      simp only [Scopes.reach, hf, if_true]
      exact .cons (hp top f hf) (by simpa [hf] using ih False)
    | false =>
      simp only [Scopes.reach, hf, Bool.false_eq_true, if_false]
      exact .cons (hq top f hf) (by simpa [hf] using .refl r bounded fs)

theorem Effects.onTop {bounded : Prop} {m : ScopeMove} {f g : Frame} {fs : List Frame}
    (hm : (move m .done).Effect bounded True True f g)
    (hf : ∀ (through : Prop) (f : Frame), (move m .done).Effect bounded False through f f) :
    (move m .done).Effects bounded True True (f :: fs) (g :: fs) := .cons hm (.unreached hf _ fs)

theorem Effects.declareVar (bounded : Prop) (x : String) (s : Scopes)
    (hb : bounded → s.frames.any (·.isBoundary) = true) :
    (move (.declare x .var) .done).Effects bounded True True s.frames
      (s.declareVar x).1.frames := by
  cases hs : s.frames.any (·.isBoundary) with
  | true =>
    rw [Scopes.declareVar_eq hs]
    exact .reach (fun top f hf => .passVar bounded top hf x)
      (fun top f hf => .declareVar bounded top hf x)
      True s.frames
  | false =>
    have hn : ¬ bounded := fun h => by simp [hb h] at hs
    have hr : (move (.declare x .var) .done).Effects bounded True True s.frames
        (Scopes.reach id (·.declareVar x) s.frames) := by
      refine .reach (fun top f hf => ?_)
        (fun top f hf => .declareVar bounded top hf x) True s.frames
      constructor <;> simp [hf, hn]
    rw [Scopes.reach_id _ hs] at hr
    rwa [Scopes.declareVar_unbounded hs x]

theorem Effects.declareParameter (bounded : Prop) (x : String) (s : Scopes) :
    (move (.parameter x) .done).Effects bounded True True s.frames
      (s.declareParameter x).1.frames := by
  have hr : (move (.parameter x) .done).Effects bounded True True s.frames
      (Scopes.reach id (·.declareParameter x |>.1) s.frames) :=
    .reach (fun top f hf => .passParameter bounded top hf x)
      (fun top f hf => .declareParameter bounded top hf x)
      True s.frames
  unfold Scopes.declareParameter
  split
  · next hs =>
    have hn : s.frames.any (·.isBoundary) = false := by
      rw [Scopes.function?, List.find?_eq_none] at hs
      simpa using hs
    rwa [Scopes.reach_id _ hn] at hr
  · rwa [Scopes.modifyFunction_eq]

theorem Effects.move {bounded : Prop} (m : ScopeMove) (s : Scopes)
    (hb : bounded → s.frames.any (·.isBoundary) = true) :
    (move m .done).Effects bounded True True s.frames (m.apply s).1.frames := by
  obtain ⟨fs⟩ := s
  cases m with
  | declare x kind =>
    cases fs with
    | nil => cases kind <;> exact .nil _ _
    | cons f fs =>
      cases kind with
      | var => exact .declareVar bounded x ⟨f :: fs⟩ hb
      | «let» =>
        have hk : VariableKind.let ≠ .var := by decide
        exact .onTop (.declareLexical bounded f hk) fun _ f => by constructor <;> simp
      | const =>
        have hk : VariableKind.const ≠ .var := by decide
        exact .onTop (.declareLexical bounded f hk) fun _ f => by constructor <;> simp
  | parameter x => exact .declareParameter bounded x ⟨fs⟩
  | catchParameter x =>
    cases fs with
    | nil => exact .nil _ _
    | cons f fs => exact .onTop (.declareCatch bounded f x) fun _ f => by constructor <;> simp
  | use x =>
    cases fs with
    | nil => exact .nil _ _
    | cons f fs => exact .onTop (.use bounded f x) fun _ f => by constructor <;> simp
  | write x =>
    cases fs with
    | nil => exact .nil _ _
    | cons f fs => exact .onTop (.write bounded f x) fun _ f => by constructor <;> simp
  | activate =>
    show Effects _ _ _ _ _ (Scopes.activate ⟨fs⟩).frames
    rw [Scopes.activate_eq]
    exact .reach (fun top f _ => .activate bounded top f)
      (fun top f _ => .activate bounded top f) True fs

section Leaving

variable {o : Opening} {body : ScopeRun} {bounded : Prop}

theorem Effect.outward {through : Prop} {f g : Frame}
    (h : body.Effect bounded False (o.isBlock = true ∧ through) f g) :
    (frame o body .done).Effect bounded False through f g := by
  have hm (m : ScopeMove) : (frame o body .done).Makes throughBlocks m ↔
      o.isBlock = true ∧ body.Makes throughBlocks m := by
    simp only [makes_frame, throughBlocks_cons, makes_and]
  exact {
    kind := h.kind
    name := h.name
    bindsOwnName := h.bindsOwnName
    lexical := fun x => by rw [h.lexical]; tauto
    declared := fun x =>
      by rw [h.declared, DeclaresVar, DeclaresVar, TakesParameter, TakesParameter, hm, hm]; tauto
    hoisted := fun hb x => by rw [h.hoisted hb, DeclaresVar, DeclaresVar, hm]; tauto
    used := fun x => by rw [h.used]; tauto
    closed := fun x => by rw [h.closed]; tauto
    written := fun x => by rw [h.written]; tauto
    parameters := fun x => by rw [h.parameters, TakesParameter, TakesParameter, hm]; tauto
    shadowsArguments := by
      rw [h.shadowsArguments, DeclaresVar, DeclaresVar, TakesParameter,
        TakesParameter, hm, hm]; tauto
    usesEval := by rw [h.usesEval]; tauto
    fullActivation := by rw [h.fullActivation, Activates, Activates, hm]; tauto
    unsettled := h.unsettled
    lexicalNames := ⟨nofun, h.lexicalNames.same⟩
    declaredNames := fun hf _ => by
      rw [variableNames_frame]
      exact (h.declaredNames hf nofun).outward }

theorem Effects.outward {fs gs : List Frame} {through through' : Prop}
    (h : body.Effects bounded False through' fs gs) (ht : through' ↔ (o.isBlock = true ∧ through)) :
    (frame o body .done).Effects bounded False through fs gs := by
  generalize hp : False = top at h
  induction h generalizing through with
  | nil => exact .nil _ _
  | cons hf _ ih =>
    subst hp
    rw [ht] at hf
    exact .cons hf.outward (ih (by rw [ht, and_assoc]) rfl)

end Leaving

end ScopeRun

namespace Frame

variable {f : Frame} {x : String}

@[simp] theorem kind_settled (f : Frame) : f.settled.kind = f.kind := by
  unfold settled finishBlock finish captureDeclared finishLexical
  grind

@[simp] theorem used_settled (f : Frame) : f.settled.used = f.used := by
  unfold settled finishBlock finish captureDeclared finishLexical
  grind

@[simp] theorem written_settled (f : Frame) : f.settled.written = f.written := by
  unfold settled finishBlock finish captureDeclared finishLexical
  grind

@[simp] theorem usesEval_settled (f : Frame) : f.settled.usesEval = f.usesEval := by
  unfold settled finishBlock finish captureDeclared finishLexical
  grind

theorem isDeclared_finishLexical (f : Frame) (x : String) :
    f.finishLexical.isDeclared x = f.isDeclared x := by
  unfold finishLexical isDeclared
  split <;> split <;> simp

theorem isDeclared_captureDeclared (f : Frame) (x : String) :
    f.captureDeclared.1.isDeclared x = f.isDeclared x := by
  unfold captureDeclared isDeclared
  split <;> simp

@[simp] theorem isDeclared_settled (f : Frame) (x : String) :
    f.settled.isDeclared x = f.isDeclared x := by
  unfold settled
  split
  · exact isDeclared_finishLexical f x
  · exact (isDeclared_captureDeclared f.finishLexical x).trans (isDeclared_finishLexical f x)

theorem closed_captureDeclared (f : Frame) : f.captureDeclared.1.closed = f.closed := by
  unfold captureDeclared
  split <;> rfl

theorem closed_finishLexical (hl : f.lexical.contains x = false)
    (hd : f.isBlock = true → f.declared.contains x = false) :
    f.finishLexical.closed.contains x = f.closed.contains x := by
  unfold finishLexical
  split
  · rfl
  · cases hb : f.isBlock with
    | true => simp [hl, hd hb]
    | false => simp [hl]

@[simp] theorem isBoundary_settled (f : Frame) : f.settled.isBoundary = f.isBoundary := by
  rw [isBoundary, isBoundary, kind_settled]

theorem closed_settled (hx : f.isDeclared x = false) :
    f.settled.closed.contains x = f.closed.contains x := by
  simp only [isDeclared, Bool.or_eq_false_iff] at hx
  have hc := closed_finishLexical hx.1.2 fun _ => hx.1.1
  unfold settled
  split
  · exact hc
  · exact (congrArg (NameSet.contains · x) (closed_captureDeclared _)).trans hc

theorem used_collect_settled (f g : Frame) (x : String) :
    (g.collect f.settled true).used.contains x = true ↔
      g.used.contains x = true ∨ (f.used.contains x = true ∧ f.isDeclared x = false) := by
  simp [collect]

theorem written_collect_settled (f g : Frame) (x : String) :
    (g.collect f.settled true).written.contains x = true ↔
      g.written.contains x = true ∨ (f.written.contains x = true ∧ f.isDeclared x = false) := by
  simp [collect]

theorem closed_collect_settled (f g : Frame) (x : String) :
    (g.collect f.settled true).closed.contains x = true ↔ g.closed.contains x = true ∨
      (((f.isBlock = false ∧ f.used.contains x = true) ∨ f.closed.contains x = true) ∧
        f.isDeclared x = false) := by
  cases hx : f.isDeclared x with
  | true => cases hb : f.isBoundary <;> simp [collect, isBlock_eq, hb, hx]
  | false =>
    have hc := closed_settled hx
    cases hb : f.isBoundary <;> simp [collect, isBlock_eq, hb, hx, hc, or_assoc]

end Frame

namespace ScopeRun

section Leaving

variable {o : Opening} {body : ScopeRun} {bounded : Prop} {strict : Bool} {i f g : Frame}

theorem isDeclared_iff (h : body.Effect bounded True True (o.frame strict) i) (x : String) :
    i.isDeclared x = true ↔ ScopeNode.Binds ⟨o, body⟩ x := by
  have hown : (i.bindsOwnName && i.name == some x) = true ↔ o.ownName? = some x := by
    rw [h.bindsOwnName, h.name]
    rcases o with _ | ⟨_, _, _, _, _ | _⟩ | _ <;>
      simp [Opening.frame, Opening.ownName?, Frame.program, Frame.function, Frame.block]
  rw [Frame.isDeclared, Bool.or_eq_true, Bool.or_eq_true, hown, h.declared, h.lexical,
    ScopeNode.Binds]
  simp only [Opening.declared_frame, Opening.lexical_frame, Opening.isBlock_frame,
    Environment.contains_empty, Bool.false_eq_true, false_or, true_and]
  tauto

theorem Effect.leave (hi : body.Effect bounded True True (o.frame strict) i)
    (hf : body.Effect bounded False (o.isBlock = true ∧ True) f g) :
    (frame o body .done).Effect bounded True True f (g.collect i.settled true) := by
  have hg := hf.outward
  have hd (x : String) : i.isDeclared x = false ↔ ¬ ScopeNode.Binds ⟨o, body⟩ x := by
    rw [← isDeclared_iff hi x, Bool.not_eq_true]
  have hused (x : String) : i.used.contains x = true ↔ body.UsesFreely x := by simpa using hi.used x
  have hclosed (x : String) : i.closed.contains x = true ↔ body.ClosesOver x := by
    simpa using hi.closed x
  have hwritten (x : String) : i.written.contains x = true ↔ body.WritesFreely x := by
    simpa using hi.written x
  have heval : i.usesEval = true ↔ body.UsesEval := by simpa using hi.usesEval
  have hblock : i.isBlock = o.isBlock := hi.isBlock.trans (Opening.isBlock_frame strict o)
  exact {
    kind := hg.kind
    name := hg.name
    bindsOwnName := hg.bindsOwnName
    lexical := fun x => by
      show g.lexical.contains x = true ↔ _
      simp only [hg.lexical x, DeclaresLexical, not_makes_own_frame, and_false, exists_false]
    declared := fun x => by
      show g.declared.contains x = true ↔ _
      simp only [hg.declared x, Catches, not_makes_own_frame, and_false, false_or]
    hoisted := hg.hoisted
    used := fun x => by
      rw [Frame.used_collect_settled, usesFreely_frame, hused, hg.used, hd]
      simp only [false_and, or_false, true_and]
    closed := fun x => by
      rw [Frame.closed_collect_settled, closesOver_frame, hblock, hused, hclosed, hg.closed, hd]
      simp only [false_and, or_false, true_and]
    written := fun x => by
      rw [Frame.written_collect_settled, writesFreely_frame, hwritten, hg.written, hd]
      simp only [false_and, or_false, true_and]
    parameters := hg.parameters
    shadowsArguments := hg.shadowsArguments
    usesEval := by
      have hx : (g.collect i.settled true).usesEval = (g.usesEval || i.usesEval) := by
        simp [Frame.collect]
      rw [hx, Bool.or_eq_true, hg.usesEval, heval, UsesEval, UsesEval, makes_frame]
      simp only [false_and, or_false, true_and]
    fullActivation := hg.fullActivation
    unsettled := hg.unsettled
    lexicalNames := ⟨fun _ => hg.lexicalNames.same id, fun h => absurd trivial h⟩
    declaredNames := fun hb _ => hg.declaredNames hb nofun }

end Leaving

theorem Effects.leave {o : Opening} {body : ScopeRun} {bounded : Prop} {strict : Bool}
    {fs gs : List Frame} (hf : fs ≠ [])
    (h : body.Effects bounded True True (o.frame strict :: fs) gs) :
    (frame o body .done).Effects bounded True True fs (Scopes.leave ⟨gs⟩).frames := by
  cases h with
  | cons hi hr =>
    cases hr with
    | nil => exact absurd rfl hf
    | cons hg hr =>
      rw [Opening.isBlock_frame, true_and] at hg hr
      refine .cons (hi.leave (by rwa [and_true])) (hr.outward ?_)
      rw [true_and]

theorem effects (r : ScopeRun) {bounded : Prop} {s : Scopes} (hs : s.frames ≠ [])
    (hb : bounded → s.frames.any (·.isBoundary) = true) :
    r.Effects bounded True True s.frames (r.perform s).frames := by
  induction r generalizing s with
  | done => exact .done bounded True True s.frames
  | move m rest ih =>
    have hm := Effects.move m s hb
    rw [move_eq]
    exact hm.trans (ih (hm.ne_nil hs) fun h => hm.any_isBoundary ▸ hb h)
  | frame o body rest ihb ih =>
    have hin := ihb (s := s.enter o) (by simp [Scopes.enter, Scopes.push]) fun h => by
      simp [Scopes.enter, Scopes.push, hb h]
    have hm := Effects.leave hs hin
    rw [frame_eq]
    exact hm.trans (ih (hm.ne_nil hs) fun h => hm.any_isBoundary ▸ hb h)

end ScopeRun

end EcmaFront
