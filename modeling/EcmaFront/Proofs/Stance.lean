import EcmaFront.Proofs.Walk
import EcmaFront.Tree.WellFormed

/-!
What the open frames say of jumps and of parameters. A phrase leaves them as it found them, but for
the parameters that it reads and the frames that it leaves.
-/

set_option autoImplicit false

namespace EcmaFront

/-- Where jumps may go inside a frame, and the parameters that were read in it. -/
structure Frame.Stance where
  kind : FrameKind
  labels : List Label
  loops : Nat
  switches : Nat
  parameters : List String
  repeatedParameter : Bool

namespace Frame.Stance

def take (f : Stance) (name : String) : Stance :=
  { f with
    parameters := if f.parameters.contains name then f.parameters else f.parameters ++ [name]
    repeatedParameter := f.repeatedParameter || f.parameters.contains name }

def takes (names : List String) : List Stance → List Stance
  | [] => []
  | f :: rest => if f.kind = .block then f :: takes names rest else names.foldl take f :: rest

variable {f : Stance} {rest fs : List Stance} {names names' : List String}

theorem takes_block (hk : f.kind = .block) : takes names (f :: rest) = f :: takes names rest :=
  if_pos hk

theorem takes_cons (hk : f.kind ≠ .block) : takes names (f :: rest) = names.foldl take f :: rest :=
  if_neg hk

@[simp] theorem takes_nil (fs : List Stance) : takes [] fs = fs := by
  induction fs with
  | nil => rfl
  | cons f rest ih =>
    by_cases hk : f.kind = .block
    · rw [takes_block hk, ih]
    · exact takes_cons hk

theorem kind_foldl (names : List String) (f : Stance) : (names.foldl take f).kind = f.kind := by
  induction names generalizing f with
  | nil => rfl
  | cons name names ih => exact ih (f.take name)

theorem takes_append : takes (names ++ names') fs = takes names' (takes names fs) := by
  induction fs with
  | nil => rfl
  | cons f rest ih =>
    by_cases hk : f.kind = .block
    · rw [takes_block hk, takes_block hk, takes_block hk, ih]
    · have hk' : (names.foldl take f).kind ≠ .block := by rwa [kind_foldl]
      rw [takes_cons hk, takes_cons hk, takes_cons hk', List.foldl_append]

theorem takes_blocks (h : ∀ f ∈ fs, f.kind = .block) : takes names fs = fs := by
  induction fs with
  | nil => rfl
  | cons f rest ih =>
    obtain ⟨hf, hr⟩ := List.forall_mem_cons.1 h
    rw [takes_block hf, ih hr]

theorem nodup_of_foldl (h : (names.foldl take f).repeatedParameter = false) :
    names.Nodup ∧ f.repeatedParameter = false ∧ ∀ name ∈ names, name ∉ f.parameters := by
  induction names generalizing f with
  | nil => exact ⟨.nil, h, nofun⟩
  | cons name names ih =>
    obtain ⟨hn, hr, hm⟩ := ih h
    obtain ⟨hr, hc⟩ : f.repeatedParameter = false ∧ name ∉ f.parameters := by simpa [take] using hr
    have hp : (f.take name).parameters = f.parameters ++ [name] := by simp [take, hc]
    rw [hp] at hm
    refine ⟨List.nodup_cons.2 ⟨?_, hn⟩, hr, List.forall_mem_cons.2 ⟨hc, ?_⟩⟩
    · intro hi
      exact hm name hi (by simp)
    · intro x hx hp
      exact hm x hx (by simp [hp])

end Frame.Stance

open EcmaFront.Frame (Stance)
open Frame.Stance (takes takes_append takes_block takes_cons takes_blocks)

def Frame.stance (f : Frame) : Stance :=
  ⟨f.kind, f.labels, f.loops, f.switches, f.parameters, f.repeatedParameter⟩

namespace Scopes

def stances (s : Scopes) : List Stance := s.frames.map Frame.stance

variable {s s' : Scopes}

theorem length_stances (s : Scopes) : s.stances.length = s.depth := List.length_map ..

theorem truncate_of_stances (h : s'.stances.length = s.stances.length) :
    s'.truncate s.depth = s' := by
  rw [length_stances, length_stances] at h
  rw [← h, truncate_depth]

@[simp] theorem stances_push (s : Scopes) (f : Frame) :
    (s.push f).stances = f.stance :: s.stances := rfl

@[simp] theorem stances_pushBlock (s : Scopes) :
    s.pushBlock.stances = ⟨.block, [], 0, 0, [], false⟩ :: s.stances := rfl

@[simp] theorem stances_pop (s : Scopes) (trackClosed : Bool) :
    (s.pop trackClosed).stances = s.stances.tail := by
  rcases s with ⟨_ | ⟨_, _ | ⟨_, _⟩⟩⟩ <;> rfl

theorem stances_modifyTop {change : Frame → Frame} (h : ∀ f, (change f).stance = f.stance) :
    (s.modifyTop change).stances = s.stances := map_modifyTop h

theorem stances_change {change : Frame → Frame} {g : Stance → Stance}
    (h : ∀ f, (change f).stance = g f.stance) :
    (s.modifyTop change).stances = s.stances.modifyHead g := by
  rcases s with ⟨_ | ⟨f, rest⟩⟩
  · rfl
  · exact congrArg (· :: rest.map Frame.stance) (h f)

theorem stances_undone {change undo : Frame → Frame} (g g' : Stance → Stance)
    (h : ∀ f, (change f).stance = g f.stance) (hu : ∀ f, (undo f).stance = g' f.stance)
    (hg : ∀ f, g' (g f) = f) {s' : Scopes} (hs : s'.stances = (s.modifyTop change).stances) :
    (s'.modifyTop undo).stances = s.stances := by
  rw [stances_change hu, hs, stances_change h, List.modifyHead_modifyHead]
  cases s.stances <;> simp [hg]

theorem stances_endLoop (h : s'.stances = s.beginLoop.stances) : s'.endLoop.stances = s.stances :=
  stances_undone (fun f => { f with loops := f.loops + 1 })
    (fun f => { f with loops := f.loops - 1 })
    (fun _ => rfl) (fun _ => rfl) (fun _ => rfl) h

theorem stances_popLabel {name : String} {isLoop : Bool}
    (h : s'.stances = (s.pushLabel name isLoop).stances) :
    s'.popLabel.stances = s.stances :=
  stances_undone (fun f => { f with labels := ⟨name, isLoop⟩ :: f.labels })
    (fun f => { f with labels := f.labels.tail }) (fun _ => rfl) (fun _ => rfl) (fun _ => rfl) h

theorem stances_endSwitch (s : Scopes) :
    s.endSwitch.stances = s.stances.modifyHead fun f => { f with switches := f.switches - 1 } :=
  stances_change fun _ => rfl

@[simp] theorem stances_use (s : Scopes) (name : String) : (s.use name).stances = s.stances :=
  stances_modifyTop fun _ => rfl

@[simp] theorem stances_write (s : Scopes) (name : String) : (s.write name).stances = s.stances :=
  stances_modifyTop fun _ => rfl

@[simp] theorem stances_activate (s : Scopes) : s.activate.stances = s.stances :=
  map_activate fun _ => rfl

@[simp] theorem stances_strict (s : Scopes) :
    (s.modifyFunction ({ · with strict := true })).stances = s.stances :=
  map_modifyFirst fun _ => rfl

@[simp] theorem stances_declare (s : Scopes) (name : String) (kind : VariableKind) :
    (s.declare name kind).1.stances = s.stances := by
  rcases kind with _ | _ | _
  · cases hs : s.frames.any (·.isBoundary) with
    | true =>
      rw [declare, declareVar_eq hs]
      refine map_reach (fun f => ?_) (fun f => ?_) s.frames <;> rfl
    | false => rw [declare, declareVar_unbounded hs]
  all_goals rcases s with ⟨_ | ⟨f, rest⟩⟩ <;> rfl

theorem stances_declareParameter (s : Scopes) (name : String) :
    (s.declareParameter name).1.stances = takes [name] s.stances := by
  have hm (fs : List Frame) :
      (modifyFirstIn (·.isBoundary) (·.declareParameter name |>.1) fs).map Frame.stance =
      takes [name] (fs.map Frame.stance) := by
    induction fs with
    | nil => rfl
    | cons f rest ih =>
      by_cases hk : f.kind = .block
      · have hs : f.stance.kind = .block := hk
        rw [modifyFirstIn, if_neg (by simp [Frame.isBoundary, hk]), List.map_cons, List.map_cons,
          takes_block hs, ih]
      · have hs : f.stance.kind ≠ .block := hk
        rw [modifyFirstIn, if_pos (by simp [Frame.isBoundary, hk]), List.map_cons,
          List.map_cons, takes_cons hs]
        rfl
  unfold declareParameter
  split
  · next hn =>
    refine (takes_blocks fun f hf => ?_).symm
    obtain ⟨f, hm, rfl⟩ := List.mem_map.1 hf
    have hk : f.kind = .block := by simpa [Frame.isBoundary] using List.find?_eq_none.1 hn f hm
    exact hk
  · exact hm s.frames

theorem stances_declarationOf (s : Scopes) (name : String) (form : BindingForm) :
    (Parse.declarationOf name form s).1.stances =
    takes (if form = .parameter then [name] else []) s.stances := by
  rcases form with kind | _ | _ | _
  · simp [Parse.declarationOf]
  · exact stances_declareParameter s name
  · rcases s with ⟨_ | ⟨f, rest⟩⟩
    · rfl
    · exact (Frame.Stance.takes_nil _).symm
  · simp [Parse.declarationOf]

end Scopes

namespace Pat

theorem elementLeaves_cons (e : Option (PatternElement Expr Pat))
    (es : List (Option (PatternElement Expr Pat))) :
    elementLeaves (e :: es) = e.elim [] (·.target.leaves) ++ elementLeaves es := by
  rcases e with _ | ⟨_, p, _⟩ <;> simp [elementLeaves]

theorem propertyLeaves_cons (p : PatternProperty Expr Pat) (ps : List (PatternProperty Expr Pat)) :
    propertyLeaves (p :: ps) = p.target.leaves ++ propertyLeaves ps := by
  simp [propertyLeaves]

end Pat

def BindingForm.parameters (form : BindingForm) (leaves : List Pat) : List String :=
  if form = .parameter then leaves.filterMap Pat.name? else []

theorem BindingForm.parameters_append (form : BindingForm) (ps qs : List Pat) :
    form.parameters (ps ++ qs) = form.parameters ps ++ form.parameters qs := by
  unfold parameters
  split
  · exact List.filterMap_append
  · rfl

theorem BindingForm.takes_parameters {form : BindingForm} (h : form ≠ .parameter)
    {leaves : List Pat} {fs : List Stance} :
    takes (form.parameters leaves) fs = fs := by
  rw [parameters, if_neg h, Frame.Stance.takes_nil]

theorem BindingForm.parameters_nil (form : BindingForm) : form.parameters [] = [] := by
  unfold parameters
  split <;> rfl

namespace ParseState

def stances (s : ParseState) : List Stance := s.scopes.stances

variable (s : ParseState) {c : ParseContext} {s' : ParseState}

@[simp] theorem stances_scopes : s.scopes.stances = s.stances := rfl

@[simp] theorem stances_next : s.next.stances = s.stances := rfl

@[simp] theorem stances_readRegexp : s.readRegexp.stances = s.stances := rfl

@[simp] theorem stances_deeper : s.deeper.stances = s.stances := rfl

@[simp] theorem stances_shallower : s.shallower.stances = s.stances := rfl

@[simp] theorem stances_allow (allowed : Bool) : (s.allow allowed).stances = s.stances := rfl

@[simp] theorem stances_noteRich : s.noteRich.stances = s.stances := rfl

@[simp] theorem stances_onScopes (change : Scopes → Scopes) :
    (s.onScopes change).stances = (change s.scopes).stances :=
  rfl

@[simp] theorem stances_enter (h : Parse.FunctionHeader) :
    (s.enter h).stances = ⟨.function, [], 0, 0, [], false⟩ :: s.stances := rfl

@[simp] theorem stances_leaveTo (outer : ParseState) : (s.leaveTo outer).stances = s.stances := rfl

@[simp] theorem stances_noteAccessor (names : PropertyNames) :
    (s.noteAccessor names).stances = s.stances := by
  unfold noteAccessor
  split <;> rfl

@[simp] theorem stances_awaitWrite (name? : Option String) (extent : Extent) :
    (s.awaitWrite name? extent).stances = s.stances := by
  cases name? <;> rfl

variable {s}

theorem Resembles.stances (h : s.Resembles s') : s'.stances = s.stances :=
  congrArg Scopes.stances h.scopes

theorem Glances.stances (h : s.Glances s') : s'.stances = s.stances := h.resembles.stances

theorem stances_ends (h : Parse.Ends s s') : s'.stances = s.stances := by
  cases h <;> rfl

theorem stances_restart (directive : Nat) {start : Checkpoint}
    (h : start.depth = s.stances.length) :
    (s.restart directive start).stances = s.stances := by
  have hd : start.depth = s.scopes.depth := h.trans s.scopes.length_stances
  show (s.scopes.truncate start.depth).stances = _
  rw [hd, Scopes.truncate_depth]
  rfl

end ParseState

namespace Parse

variable {c : ParseContext} {s s' : ParseState}

theorem stances_declaring {name : String} {kind : VariableKind} {conflicts : Conflicts}
    (h : declaring (·.declare name kind) c s = (.ok conflicts, s')) : s'.stances = s.stances := by
  cases h
  exact s.scopes.stances_declare name kind

theorem stances_takeBoundNames {mark : Nat} {names : List String}
    (h : takeBoundNames mark c s = (.ok names, s')) :
    s'.stances = s.stances := by
  cases h
  rfl

theorem stances_writeNames {names : List String} (h : writeNames names c s = (.ok (), s')) :
    s'.stances = s.stances := by
  cases h
  induction names generalizing s with
  | nil => rfl
  | cons name names ih =>
    exact (ih (s := s.onScopes (·.write name))).trans (Scopes.stances_write _ _)

theorem stances_commitWrites {point : Checkpoint} (h : commitWrites point c s = (.ok (), s')) :
    s'.stances = s.stances := (commitWrites_ok (g := Frame.stance) (fun _ _ => rfl) h).1

theorem stances_noteAssignment {target : Expr} {extent : Extent}
    (h : noteAssignment .tree target extent c s = (.ok (), s')) : s'.stances = s.stances := by
  unfold noteAssignment at h
  replace h : Yields _ c s _ := h
  split at h
  · simp only [Yields, write, state_bind, ite_ok, failAt_ok, and_false, false_or, modifyScopes_run,
      Prod.mk.injEq, true_and] at h
    obtain ⟨-, rfl⟩ := h
    exact Scopes.stances_write _ _
  · rw [(pure_ok.1 h).2]

theorem stances_bindName {form : BindingForm} {name : String} {start : Position} {extent : Extent}
    {p : Pat} (h : bindName .tree form name start extent c s = (.ok p, s')) :
    s'.stances = takes (form.parameters p.leaves) s.stances := by
  simp only [bindName, spanFrom_bind] at h
  replace h : Yields _ c s _ := h
  split at h
  · simp only [Yields, modifyScopes_bind, modify_bind, pure_ok] at h
    obtain ⟨rfl, rfl⟩ := h
    simp only [BindingForm.parameters, reduceCtorEq, if_false, Frame.Stance.takes_nil]
    exact Scopes.stances_use _ _
  · next hn =>
    simp only [Yields, bind_ok, pure_ok] at h
    obtain ⟨_, _, hd, rfl, rfl⟩ := h
    simp only [declareBinding, declaring, ask_bind, state_bind] at hd
    replace hd : Yields _ c _ _ := hd
    have hs : (BindingForm.parameters form (Pat.binding (s.spanFrom start) name).leaves) =
        if form = .parameter then [name] else [] := by
        simp [BindingForm.parameters, Pat.leaves, Pat.name?]
    rw [hs]
    refine Eq.trans ?_ (Scopes.stances_declarationOf s.scopes name form)
    split at hd
    · simp [Yields] at hd
    · split at hd
      · cases hd
        rfl
      · rw [(pure_ok.1 hd).2]
        rfl

theorem stances_bindingName {form : BindingForm} {p : Pat}
    (h : bindingName .tree form c s = (.ok p, s')) :
    s'.stances = takes (form.parameters p.leaves) s.stances := by
  simp only [bindingName, state_bind, ite_ok, next_bind, unexpected_ok, and_false, or_false] at h
  exact stances_bindName (s := s.next) h.2

theorem stances_jump {labelFault? : String → Option Label → Option Cause} {allowed : Scopes → Bool}
    {outside : Cause} {make : Span → Option String → Stmt} {a : Stmt}
    (h : jump (B := .tree) labelFault? allowed outside make c s = (.ok a, s')) :
    s'.stances = s.stances := by
  simp only [jump, state_bind, next_bind] at h
  replace h : Yields _ c _ _ := h
  split at h
  · replace h : Yields _ c _ _ := h
    split at h
    · simp [Yields] at h
    · simp only [Yields, next_bind, bind_ok, spanFrom_bind, pure_ok] at h
      obtain ⟨_, _, he, -, rfl⟩ := h
      exact ParseState.stances_ends (s := s.next.next) (ends_of_consumeSemicolon he)
  · simp [Yields] at h
    obtain ⟨-, he, -⟩ := h
    exact ParseState.stances_ends (s := s.next) (ends_of_consumeSemicolon he)

theorem stances_finishBlock {scope : Environment} (h : finishBlock c s = (.ok scope, s')) :
    s'.stances = s.stances.tail := by
  obtain ⟨hn, rfl⟩ | ⟨f, rest, hs, -, rfl⟩ := finishBlock_ok h
  · rw [ParseState.stances, hn]
    rfl
  · rw [ParseState.stances, ParseState.stances, hs]
    exact Scopes.stances_pop _ _

theorem stances_finishFunction {scope : ScopeSummary} (h : finishFunction c s = (.ok scope, s')) :
    s'.stances = s.stances.tail := by
  obtain ⟨hn, rfl⟩ | ⟨f, rest, hs, -, rfl⟩ := finishFunction_ok h
  · rw [ParseState.stances, hn]
    rfl
  · rw [ParseState.stances, ParseState.stances, hs]
    exact Scopes.stances_pop _ _

theorem stances_recordFunction {f : Function} (h : recordFunction f c s = (.ok (), s')) :
    s'.stances = s.stances :=
  congrArg Scopes.stances (recordFunction_ok h).1

theorem stances_enableStrict {directive : Extent} (h : enableStrict directive c s = (.ok (), s')) :
    s'.stances = s.stances := by
  obtain ⟨rfl, -⟩ | ⟨rfl, -⟩ := enableStrict_ok h
  · rfl
  · exact Scopes.stances_strict _

theorem checkParameters_ok {header : FunctionHeader} {ps : List (Parameter Expr Pat)}
    (h : checkParameters header ps c s = (.ok (), s')) :
    s' = s ∧ arityFault? header.mode ps = none ∧
      ((header.form == .arrow || header.mode.isMethodLike || s.richParameters) &&
        s.scopes.top?.any (·.repeatedParameter)) = false := by
  unfold checkParameters at h
  replace h : Yields _ c s _ := h
  split at h
  · simp [Yields] at h
  · next ha =>
    simp only [Yields, state_bind, ite_ok, fail_ok, and_false, false_or, pure_ok] at h
    obtain ⟨hr, -, rfl⟩ := h
    exact ⟨rfl, ha, by simpa using hr⟩

theorem stances_arrow {header : FunctionHeader}
    (h : (if header.form == .arrow then consumeArrow else pure ()) c s = (.ok (), s')) :
    s'.stances = s.stances := by
  split at h
  · simp only [consumeArrow, state_bind, ite_ok, unexpected_ok, fail_ok, and_false, false_or,
      next_run, Prod.mk.injEq, true_and] at h
    obtain ⟨-, -, rfl⟩ := h
    rfl
  · rw [(pure_ok.1 h).2]

theorem stances_superExpression {a : Expr} (h : superExpression (B := .tree) c s = (.ok a, s')) :
    s'.stances = s.stances := by
  simp only [superExpression, state_bind, next_bind] at h
  replace h : Yields _ c _ _ := h
  split at h
  all_goals
    simp only [Yields, bind_ok, ite_ok, modifyScopes_run, failAt_ok, and_false, or_false,
      Prod.mk.injEq, spanFrom_bind, pure_ok, false_and, exists_false] at h
  all_goals
    obtain ⟨-, _, _, ⟨-, rfl⟩, -, rfl⟩ := h
    exact Scopes.map_modifyFirst fun _ => rfl

theorem stances_newTarget {a : Expr} {new : ParseState}
    (h : newTarget (B := .tree) new c s = (.ok a, s')) :
    s'.stances = s.stances := by
  simp only [newTarget, state_bind, ite_ok, unexpected_ok, and_false, false_or, next_bind,
    spanFrom_bind, pure_ok, failAt_ok, or_false] at h
  obtain ⟨-, -, -, rfl⟩ := h
  rfl

end Parse

open Parse (FunctionHeader)

/-- What a phrase does to the stances of the open frames. An attempt must not depend on the journal,
and a list that turns strict is read again with the frames that were open at its start. -/
def Nonterminal.Stands : (g : Nonterminal .tree) → ParseState → g.Result → ParseState → Prop
  | .parameters _, s, ps, s' | .formals, s, ps, s' =>
    s'.stances = takes (ps.flatMap (·.pattern.names)) s.stances
  | .formal, s, p, s' => s'.stances = takes p.pattern.names s.stances
  | .parameterTarget, s, p, s' => s'.stances = takes p.names s.stances
  | .pattern form, s, p, s' | .patternInside form, s, p, s' =>
    s'.stances = takes (form.parameters p.leaves) s.stances
  | .patternElements form, s, parts, s' =>
    s'.stances = takes (form.parameters (Pat.elementLeaves parts.elements ++
      Pat.restLeaves parts.rest)) s.stances
  | .patternElement form, s, e, s' => s'.stances = takes (form.parameters e.target.leaves) s.stances
  | .patternProperties form, s, ps, s' =>
    s'.stances = takes (form.parameters (Pat.propertyLeaves ps)) s.stances
  | .patternProperty form, s, p, s' =>
    s'.stances = takes (form.parameters p.target.leaves) s.stances
  | .patternPropertyTarget form _ _, s, x, s' =>
    s'.stances = takes (form.parameters x.1.leaves) s.stances
  | .functionInside _ _ _, s, _, s' =>
    ∀ f rest, s.stances = f :: rest → f.kind ≠ .block → s'.stances = rest
  | .functionBody _ _, s, _, s' | .forHead _, s, _, s' | .declaringLoop _ _, s, _, s'
  | .assigningLoop _, s, _, s'
  | .expressionLoop _, s, _, s' | .countedLoop _ _, s, _, s' | .eachLoop _ _ _, s, _, s' =>
    s'.stances = s.stances.tail
  | .body _ start, s, _, s' => start.depth = s.stances.length → s'.stances = s.stances
  | .attempt accept, s, _, s' =>
    (∀ s j, accept (s.withJournal j) = accept s) → s'.stances = s.stances
  | _, s, _, s' => s'.stances = s.stances

open Parse in
open BindingForm (takes_parameters parameters_append) in
open ParseState (stances_ends stances_next stances_noteAccessor stances_scopes stances_restart) in
/-- By induction on the reading: a phrase changes nothing around it but the parameters it reads. -/
theorem Reading.stances {P : Prop} {c : ParseContext} {g : Nonterminal .tree} {s s' : ParseState}
    {a : g.Result} (h : Reading .tree P c g s a s') : g.Stands s a s' := by
  induction h with
  | itemLet _ hl _ ih | itemLetName _ hl _ ih =>
    exact Eq.trans ih (atLetDeclaration_glances hl).stances
  | forStatement _ _ _ ih => exact ih
  | doWhileStatement _ _ _ _ he ihb iht =>
    subst he
    split <;> exact Eq.trans iht ihb
  | continueStatement _ h | breakStatement _ h => exact stances_jump h
  | returnStatement _ _ _ he | debuggerStatement _ he =>
    exact (stances_ends he).trans (stances_next _)
  | returnValueStatement _ _ _ _ he ih | throwStatement _ _ _ he ih | expressionStatement _ _ he ih
  | variableStatement _ he ih => exact (stances_ends he).trans ih
  | withStatement _ _ _ _ iho ihb => exact Eq.trans ihb ((Scopes.stances_activate _).trans iho)
  | switchStatement _ _ _ _ _ hf ihd ihc =>
    refine (stances_finishBlock hf).trans ?_
    rw [stances_next, ParseState.stances_onScopes, Scopes.stances_endSwitch, stances_scopes, ihc]
    exact ihd
  | letExpressionStatement _ hl _ he ih =>
    exact (stances_ends he).trans (Eq.trans ih (atLetDeclaration_glances hl).stances)
  | labeledStatement _ hc _ _ hl _ ih =>
    have hs := (labelsLoop_glances hl).stances.trans (colonFollows_resembles hc).stances
    exact (Scopes.stances_popLabel ih).trans hs
  | nameStatement _ hc _ he ih =>
    exact (stances_ends he).trans (Eq.trans ih (colonFollows_resembles hc).stances)
  | @functionDeclaration s s₁ _ _ _ _ _ hd _ _ hr ih =>
    have hd : s₁.stances = s.next.stances := stances_declaring hd
    exact (stances_recordFunction hr).trans (Eq.trans ih hd)
  | initializedDeclarator _ hn _ hw _ iht ihi =>
    exact Eq.trans ihi ((stances_writeNames hw).trans ((stances_takeBoundNames hn).trans iht))
  | bareDeclarator _ hn _ _ iht => exact (stances_takeBoundNames hn).trans iht
  | declaratorPattern _ _ ih | catchPattern _ _ _ ih =>
    exact Eq.trans ih (takes_parameters (by nofun))
  | declaratorName _ h | catchName _ h =>
    exact Eq.trans (stances_bindingName h) (takes_parameters (by nofun))
  | patternName _ _ h => exact stances_bindingName h
  | soleParameter _ _ h =>
    rw [Nonterminal.Stands, List.flatMap_singleton]
    exact stances_bindingName h
  | parameterName _ h => exact stances_bindingName h
  | parameterPattern _ _ _ ih => exact ih
  | restFormal _ _ _ ih =>
    rw [Nonterminal.Stands, List.flatMap_singleton]
    exact ih
  | moreFormals _ _ _ _ _ ih ihs =>
    rw [Nonterminal.Stands, List.flatMap_cons, takes_append, ← ih]
    exact ihs
  | block _ _ _ hf ih => exact (stances_finishBlock hf).trans (congrArg List.tail ih)
  | @restartedBody s s₁ _ s₃ _ _ start _ _ _ _ _ _ _ _ _ _ he _ ihd ih ihb =>
    intro hs
    have he : s₃.stances = s.stances := (stances_enableStrict he).trans (Eq.trans ih ihd)
    have hr : (s₃.restart s₁.token.extent.start start).stances = s.stances :=
      (stances_restart _ (hs.trans (congrArg List.length he.symm))).trans he
    exact (ihb (hs.trans (congrArg List.length hr.symm))).trans hr
  | loopBody _ ih => exact Scopes.stances_endLoop ih
  | declaringHead _ hh _ ih | assigningHead _ hh _ ih =>
    exact Eq.trans ih (congrArg List.tail (headKind?_glances hh).stances)
  | expressionEach _ _ _ hw _ ihl ih =>
    exact Eq.trans ih (congrArg List.tail ((stances_noteAssignment hw).trans ihl))
  | countedLoop _ _ _ _ _ _ hf iht ihu ihb =>
    exact (stances_finishBlock hf).trans (congrArg List.tail (Eq.trans ihb (Eq.trans ihu iht)))
  | forOf _ _ _ hf ihr ihb | forIn _ _ _ hf ihr ihb =>
    exact (stances_finishBlock hf).trans (congrArg List.tail (Eq.trans ihb ihr))
  | catchClause _ _ _ _ _ _ hf ihp ih =>
    exact (stances_finishBlock hf).trans (congrArg List.tail (Eq.trans ih ihp))
  | arrowFunction ha _ ih => exact Eq.trans ih (atArrowFunction_glances ha).stances
  | patternAssignment ha _ _ iht ihv =>
    exact Eq.trans ihv (Eq.trans (iht fun _ _ => rfl) (atArrowFunction_glances ha).stances)
  | noPatternAssignment ha _ _ iht ih =>
    exact Eq.trans ih (Eq.trans (iht fun _ _ => rfl) (atArrowFunction_glances ha).stances)
  | patternEach _ _ _ iht ih => exact Eq.trans ih (congrArg List.tail (iht fun _ _ => rfl))
  | noPatternLoop _ _ iht ih => exact Eq.trans ih (congrArg List.tail (iht fun _ _ => rfl))
  | targetAssignment _ _ _ hw _ ih ihv => exact Eq.trans ihv ((stances_noteAssignment hw).trans ih)
  | noAttempt _ hf => exact fun ha => (followsBrackets_glances ha hf).stances
  | givenUp _ _ hf h =>
    intro ha
    have hg := (followsBrackets_glances ha hf).stances
    exact (Scopes.map_grown (fun h => by rw [h.2]; rfl) (grown_of_giveUp h).1).trans hg
  | attempt _ hf _ _ hw ih =>
    intro ha
    have hg := (followsBrackets_glances ha hf).stances
    exact (stances_commitWrites hw).trans (Eq.trans ih ((takes_parameters (by nofun)).trans hg))
  | prefixUpdate _ _ _ _ hw ih | postfixUpdate _ _ _ _ hw ih =>
    exact (stances_noteAssignment hw).trans ih
  | @newTarget s _ _ _ _ _ h => exact stances_newTarget (s := s.next.next) h
  | superHead _ h => exact stances_superExpression h
  | accessor _ ha _ _ _ ihx ih =>
    refine Eq.trans ih (Eq.trans ihx ?_)
    exact (stances_noteAccessor _ _).trans (accessor?_glances ha).stances
  | dataProperty _ ha _ _ _ ihx ih =>
    exact Eq.trans ih (Eq.trans ihx (accessor?_glances ha).stances)
  | functionNode _ hr ih => exact (stances_recordFunction hr).trans ih
  | functionParts _ ih => exact ih _ _ rfl nofun
  | functionInside _ hc ha _ ihp ihb =>
    intro f rest hs hf
    have hp := stances_arrow ha
    rw [(checkParameters_ok hc).1, ihp, hs, takes_cons hf] at hp
    exact Eq.trans ihb (congrArg List.tail hp)
  | blockBody _ _ hf ih =>
    exact (stances_finishFunction hf).trans (congrArg List.tail (ih (Scopes.length_stances _).symm))
  | expressionBody _ _ _ hf ih => exact (stances_finishFunction hf).trans (congrArg List.tail ih)
  | patternTarget _ _ _ ih =>
    exact (ParseState.stances_awaitWrite _ _ _).trans
      (Eq.trans ih (takes_parameters (by nofun)).symm)
  | noPatternElements =>
    simp [Nonterminal.Stands, Pat.elementLeaves, Pat.restLeaves, BindingForm.parameters_nil]
  | noPatternProperties => simp [Nonterminal.Stands, Pat.propertyLeaves, BindingForm.parameters_nil]
  | patternHole _ _ ih => exact ih
  | patternRest _ _ _ ih => exact ih
  | lastPatternElement _ _ _ ih =>
    simpa [Nonterminal.Stands, Pat.elementLeaves_cons, Pat.elementLeaves, Pat.restLeaves] using ih
  | morePatternElements _ _ _ _ ih ihs =>
    rw [Nonterminal.Stands, ArrayParts.cons, Pat.elementLeaves_cons, List.append_assoc,
      parameters_append, takes_append]
    exact Eq.trans ihs (congrArg _ ih)
  | patternElement _ _ ih ihd => exact Eq.trans ihd ih
  | lastPatternProperty _ _ _ ih =>
    simpa [Nonterminal.Stands, Pat.propertyLeaves_cons, Pat.propertyLeaves] using ih
  | morePatternProperties _ _ _ _ ih ihs =>
    rw [Nonterminal.Stands, Pat.propertyLeaves_cons, parameters_append, takes_append]
    exact Eq.trans ihs (congrArg _ ih)
  | patternProperty _ _ _ ihx iht ihd => exact Eq.trans ihd (Eq.trans iht (congrArg _ ihx))
  | arrayPattern _ _ _ ih | objectPattern _ _ _ ih =>
    simpa [Nonterminal.Stands, Pat.leaves, NodeAlgebra.tree] using ih
  | shorthandTarget _ h => exact stances_bindName h
  | _ => simp_all [Nonterminal.Stands]

end EcmaFront
