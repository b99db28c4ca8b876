import EcmaFront.Proofs.Redeclaration

/-!
Which variables a frame settles as captured. The names that functions inside refer to climb from
frame to frame until one binds them; the variables captured in the end are those that a function
inside refers to past every other binding, or all of them where a name may be looked up at run time.
-/

set_option autoImplicit false

namespace EcmaFront

namespace Environment

variable {env : Environment}

theorem entries_capture (env : Environment) (name : String) :
    (env.capture name).entries =
      env.entries.map fun e => (e.1, { e.2 with captured := e.2.captured || e.1 == name }) := by
  unfold capture mark
  refine List.map_congr_left fun e _ => ?_
  obtain ⟨n, t⟩ := e
  cases hn : n == name <;> simp [Traits.union, hn]

theorem entries_foldl_capture (names : List String) (env : Environment) :
    (names.foldl capture env).entries =
      env.entries.map fun e =>
        (e.1, { e.2 with captured := e.2.captured || names.contains e.1 }) := by
  induction names generalizing env with
  | nil => simp
  | cons name rest ih =>
    rw [List.foldl_cons, ih, entries_capture, List.map_map]
    refine List.map_congr_left fun e _ => ?_
    simp [Bool.or_assoc, ← Bool.beq_eq_decide_eq]

theorem captured_foldl_iff (hu : env.Unsettled) (names : List String) {e : String × Traits}
    (he : e ∈ (names.foldl capture env).entries) : e.2.captured = true ↔ e.1 ∈ names := by
  rw [entries_foldl_capture] at he
  obtain ⟨e', he', rfl⟩ := List.mem_map.1 he
  simp [hu.entries e' he']

theorem captured_captureAll {e : String × Traits} (he : e ∈ env.captureAll.entries) :
    e.2.captured = true := by
  obtain ⟨e', -, rfl⟩ := List.mem_map.1 he
  rfl

def capturedNames (env : Environment) : List String := (env.entries.filter (·.2.captured)).map (·.1)

theorem capturedNames_captureAll (env : Environment) :
    env.captureAll.capturedNames = env.names := by
  have hall : env.captureAll.entries.filter (·.2.captured) = env.captureAll.entries :=
    List.filter_eq_self.2 fun _ he => captured_captureAll he
  rw [capturedNames, hall]
  exact names_captureAll env

theorem capturedNames_foldl (hu : env.Unsettled) (p : String → Bool) :
    ((env.names.filter p).foldl capture env).capturedNames = env.names.filter p := by
  have hc (e : String × Traits) (he : e ∈ env.entries) :
      (e.2.captured || (env.names.filter p).contains e.1) = p e.1 := by
    have hm : e.1 ∈ env.names := List.mem_map_of_mem he
    rw [hu.entries e he, Bool.false_or, Bool.eq_iff_iff, List.contains_iff_mem, List.mem_filter]
    exact and_iff_right hm
  have hf : env.entries.filter (fun e => e.2.captured || (env.names.filter p).contains e.1) =
      env.entries.filter (p ·.1) := List.filter_congr hc
  rw [capturedNames, entries_foldl_capture, List.filter_map, List.map_map]
  show (env.entries.filter fun e => e.2.captured || (env.names.filter p).contains e.1).map (·.1) = _
  rw [hf, names, List.filter_map]
  rfl

end Environment

/-- The variables that the frame owns, settled: those of a function or program, or the lexical ones
of a block. -/
def Frame.bindings (f : Frame) : List (String × Traits) :=
  if f.isBlock then f.finishBlock.2.entries
    else f.finish.2.lexical.entries ++ f.finish.2.declared.entries

/-- The names that a frame owns at its end: those that it declares by `let` or `const`, each once,
and those of its parameters and variables behind them if it is no block. -/
def ScopeNode.owned (n : ScopeNode) : List String :=
  n.body.lexicalNames.eraseDups ++ if n.opening.isBlock then [] else n.body.variableNames.eraseDups

/-- A variable of the frame is captured by what happens inside: code there, or in a frame inside,
calls `eval`; or code there may look up any name; or a function inside uses the name and no frame on
the way binds it. -/
def ScopeNode.Captures (n : ScopeNode) (x : String) : Prop :=
  n.body.UsesEval ∨ n.body.Activates ∨ n.body.ClosesOver x

namespace Frame

variable {f : Frame}

@[simp] theorem names_lexical_finishLexical (f : Frame) :
    f.finishLexical.lexical.names = f.lexical.names := by
  unfold finishLexical
  split <;> simp

theorem names_declared_captureDeclared (f : Frame) :
    f.captureDeclared.1.declared.names = f.declared.names := by
  unfold captureDeclared
  split <;> simp

theorem captured_finishLexical (hu : f.lexical.Unsettled) {e : String × Traits}
    (he : e ∈ f.finishLexical.lexical.entries) :
    e.2.captured = true ↔ f.isOpen = true ∨ f.closed.contains e.1 = true := by
  unfold finishLexical at he
  split at he
  · next ho => simp [ho, Environment.captured_captureAll he]
  · next ho =>
    have hm : f.lexical.contains e.1 = true := by
      rw [← Environment.contains_foldl_capture _ f.lexical, ← Environment.mem_names]
      exact List.mem_map_of_mem he
    rw [Environment.captured_foldl_iff hu _ he, ← List.contains_iff_mem]
    show NameSet.contains _ e.1 = true ↔ _
    simp [ho, hm]

theorem captured_captureDeclared (hu : f.declared.Unsettled) {e : String × Traits}
    (he : e ∈ f.captureDeclared.1.declared.entries) :
    e.2.captured = true ↔ f.isOpen = true ∨ f.closed.contains e.1 = true := by
  unfold captureDeclared at he
  split at he
  · next ho => simp [ho, Environment.captured_captureAll he]
  · next ho =>
    have hm : e.1 ∈ f.declared.names := by
      rw [Environment.mem_names,
        ← Environment.contains_foldl_capture (f.declared.names.filter f.closed.contains),
        ← Environment.mem_names]
      exact List.mem_map_of_mem he
    rw [Environment.captured_foldl_iff hu _ he, List.mem_filter]
    simp [ho, hm]

theorem captured_names (hu : f.declared.Unsettled) :
    f.captureDeclared.2.names = f.captureDeclared.1.declared.capturedNames := by
  unfold captureDeclared
  split
  · exact (Environment.capturedNames_captureAll f.declared).symm
  · exact (Environment.capturedNames_foldl hu f.closed.contains).symm

theorem contains_captureDeclared (f : Frame) (x : String) :
    f.captureDeclared.1.declared.contains x = f.declared.contains x :=
  Environment.contains_of_names (names_declared_captureDeclared f) x

theorem lexical_captureDeclared (f : Frame) : f.captureDeclared.1.lexical = f.lexical := by
  unfold captureDeclared
  split <;> rfl

theorem isOpen_finishLexical (f : Frame) : f.finishLexical.isOpen = f.isOpen := by
  unfold finishLexical isOpen
  split <;> rfl

theorem declared_finishLexical (hf : f.isBlock = false) :
    f.finishLexical.declared = f.declared := by
  unfold finishLexical
  split <;> simp [hf]

theorem names_declared_finish (hf : f.isBlock = false) :
    f.finish.2.declared.names = f.declared.names :=
  (names_declared_captureDeclared _).trans (congrArg Environment.names (declared_finishLexical hf))

theorem names_bindings (f : Frame) :
    f.bindings.map (·.1) = f.lexical.names ++ if f.isBlock then [] else f.declared.names := by
  have hl : f.finish.2.lexical.names = f.lexical.names := by
    rw [← names_lexical_finishLexical f, ← lexical_captureDeclared f.finishLexical]
    rfl
  cases hb : f.isBlock with
  | true =>
    rw [bindings, hb, if_pos rfl, if_pos rfl, List.append_nil]
    exact names_lexical_finishLexical f
  | false =>
    rw [bindings, hb, if_neg (by decide), if_neg (by decide), List.map_append, ← hl,
      ← names_declared_finish hb]
    rfl

/-- The variables of a frame are captured if it is open to any look-up or a function inside refers
to them, provided that no name is both declared and lexical. -/
theorem captured_bindings (hu : f.lexical.Unsettled ∧ f.declared.Unsettled)
    (hd : f.isBlock = false → ∀ x, f.declared.contains x = true → f.lexical.contains x = false)
    {e : String × Traits} (he : e ∈ f.bindings) :
    e.2.captured = true ↔ f.isOpen = true ∨ f.closed.contains e.1 = true := by
  unfold bindings at he
  split at he
  · exact captured_finishLexical hu.1 he
  · next hb =>
    rcases List.mem_append.1 he with he | he
    · have hl : f.finish.2.lexical = f.finishLexical.lexical :=
        lexical_captureDeclared f.finishLexical
      rw [hl] at he
      exact captured_finishLexical hu.1 he
    · have hb : f.isBlock = false := by simpa using hb
      have hdeclared := declared_finishLexical hb
      have hm : f.declared.contains e.1 = true := by
        have hn : e.1 ∈ f.finishLexical.captureDeclared.1.declared.names := List.mem_map_of_mem he
        rwa [← hdeclared, ← contains_captureDeclared, ← Environment.mem_names]
      have hc := closed_finishLexical (hd hb e.1 hm) fun h => by simp [hb] at h
      rw [captured_captureDeclared (hdeclared ▸ hu.2) he, isOpen_finishLexical, hc]

end Frame

namespace ScopeRun

theorem any_isBoundary_cons {f : Frame} (hb : f.isBlock = false) (fs : List Frame) :
    (f :: fs).any (·.isBoundary) = true := by
  have h : f.isBoundary = true := by simpa [Frame.isBlock_eq] using hb
  simp [h]

theorem reported_of_var {r : ScopeRun} {s : Scopes} {x : String} (hs : s.frames ≠ [])
    (hb : s.frames.any (·.isBoundary) = true) (hx : r.DeclaresVar x)
    (hl : ∃ g ∈ s.enclosing, g.lexical.contains x = true) : r.Reported s x := by
  induction r generalizing s with
  | done => exact absurd hx not_makes_done
  | move m rest ih =>
    have he := effects (.move m .done) hs fun _ : True => hb
    rw [DeclaresVar, move_eq, makes_append, makes_move] at hx
    rw [move_eq, reported_append]
    rcases hx with ⟨-, rfl⟩ | hx
    · refine .inl ⟨_, List.mem_cons_self, rfl, ?_⟩
      show (s.declareVar x).2.duplicated = true
      rw [Scopes.declareVar_eq hb]
      exact List.any_eq_true.2 hl
    · exact .inr (ih (he.ne_nil hs) (he.any_isBoundary.trans hb) hx (he.enclosing.2 (.inl hl)))
  | frame o body rest ihb ih =>
    have he := effects (.frame o body .done) hs fun _ : True => hb
    rw [DeclaresVar, frame_eq, makes_append, makes_frame] at hx
    simp only [throughBlocks_cons, makes_and] at hx
    rw [frame_eq, reported_append]
    rcases hx with ⟨ho, hx⟩ | hx
    · have hin : body.Reported (s.enter o) x := by
        refine ihb (List.cons_ne_nil _ _) (by simp [Scopes.enter, Scopes.push, hb]) hx ?_
        obtain ⟨g, hg, hgx⟩ := hl
        refine ⟨g, ?_, hgx⟩
        rw [Scopes.enter, Scopes.push, Scopes.enclosing_cons, Opening.isBlock_frame, ho]
        exact List.mem_cons_of_mem _ hg
      obtain ⟨e, hm, h⟩ := hin
      exact .inl ⟨e, List.mem_append_left _ hm, h⟩
    · exact .inr (ih (he.ne_nil hs) (he.any_isBoundary.trans hb) hx (he.enclosing.2 (.inl hl)))

/-- The frame does not declare the name in both ways, and no parameter of the name is to come if it
is lexical. -/
structure Apart (r : ScopeRun) (f : Frame) (x : String) : Prop where
  disjoint : f.declared.contains x = true → f.lexical.contains x = false
  parameter : f.lexical.contains x = true → .parameter x ∉ r.own

theorem Apart.step {r r' : ScopeRun} {o : Opening} {f g : Frame} {fs gs : List Frame} {x : String}
    (he : r.Effects True True True (f :: fs) (g :: gs)) (hb : f.isBlock = false)
    (hf : f.isBlock = o.isBlock) (ho : ScopeNode.ParametersFirst ⟨o, r ++ r'⟩)
    (hn : ∀ n ∈ r.nodes, n.ParametersFirst) (hc : ¬ r.Clash x)
    (hl : r.DeclaresLexical x → f.declared.contains x = true → r.Reported ⟨f :: fs⟩ x)
    (hr : ¬ r.Reported ⟨f :: fs⟩ x) (ha : (r ++ r').Apart f x) : r'.Apart g x := by
  have htop : r.Effect True True True f g := by cases he with | cons h _ => exact h
  have hbound := any_isBoundary_cons hb fs
  have hvar (hv : r.DeclaresVar x) (h : f.lexical.contains x = true) : r.Reported ⟨f :: fs⟩ x :=
    reported_of_var (List.cons_ne_nil f fs) hbound hv
      ⟨f, Scopes.enclosing_cons f fs ▸ List.mem_cons_self, h⟩
  constructor
  · intro hd
    by_contra h
    rw [Bool.not_eq_false, htop.lexical] at h
    rw [htop.declared] at hd
    rcases hd with hd | ⟨-, hd⟩ | ⟨-, -, hd | hd⟩
    · rcases h with h | ⟨-, h⟩
      · rw [ha.disjoint hd] at h
        cases h
      · exact hr (hl h hd)
    · have hblock := ho.catchParameters _
        (by rw [own_append]; exact List.mem_append_left _ (catches_iff.1 hd)) rfl
      rw [← hf, hb] at hblock
      cases hblock
    · rcases h with h | ⟨-, h⟩
      · exact hr (hvar hd h)
      · exact hc (.inr (.inl ⟨h, .inl hd⟩))
    · have hp := parameter_own hn hd
      rcases h with h | ⟨-, h⟩
      · exact ha.parameter h (by rw [own_append]; exact List.mem_append_left _ hp)
      · exact hc (.inr (.inl ⟨h, .inr (.inl hp)⟩))
  · intro h
    rcases (htop.lexical x).1 h with h | ⟨-, h⟩
    · have hin := ha.parameter h
      rw [own_append, List.mem_append] at hin
      exact fun hm => hin (.inr hm)
    · exact ho.not_parameter h

/-- At the end of the run the innermost frame does not declare the name in both ways. -/
def EndsDisjoint (r : ScopeRun) (f : Frame) (fs : List Frame) (x : String) : Prop :=
  ∀ g gs, r.perform ⟨f :: fs⟩ = ⟨g :: gs⟩ → g.declared.contains x = true →
    g.lexical.contains x = false

theorem endsDisjoint_append {r r' : ScopeRun} {o : Opening} {f : Frame}
    {fs : List Frame} {x : String}
    (hb : f.isBlock = false) (hf : f.isBlock = o.isBlock)
      (ho : ScopeNode.ParametersFirst ⟨o, r ++ r'⟩)
    (hn : ∀ n ∈ r.nodes, n.ParametersFirst) (hc : ¬ r.Clash x)
    (hl : r.DeclaresLexical x → f.declared.contains x = true → r.Reported ⟨f :: fs⟩ x)
    (hr : ¬ (r ++ r').Reported ⟨f :: fs⟩ x) (ha : (r ++ r').Apart f x)
    (ih : ∀ g gs, g.isBlock = f.isBlock → ¬ r'.Reported ⟨g :: gs⟩ x → r'.Apart g x →
      r'.EndsDisjoint g gs x) :
    (r ++ r').EndsDisjoint f fs x := by
  have hbound := any_isBoundary_cons hb fs
  have he := effects r (List.cons_ne_nil f fs) fun _ : True => hbound
  rw [reported_append, not_or] at hr
  intro h hs hp
  rw [perform_append] at hp
  generalize r.perform ⟨f :: fs⟩ = s at he hp hr
  obtain ⟨_ | ⟨g, gs⟩⟩ := s
  · cases he
  · have hg : g.isBlock = f.isBlock := by cases he with | cons h _ => exact h.isBlock
    exact ih g gs hg hr.2 (ha.step he hb hf ho hn hc hl hr.1) h hs hp

theorem endsDisjoint {r : ScopeRun} {o : Opening} {f : Frame} {fs : List Frame} {x : String}
    (hb : f.isBlock = false) (hf : f.isBlock = o.isBlock) (ho : ScopeNode.ParametersFirst ⟨o, r⟩)
    (hn : ∀ n ∈ r.nodes, n.ParametersFirst) (hr : ¬ r.Reported ⟨f :: fs⟩ x) (ha : r.Apart f x) :
    r.EndsDisjoint f fs x := by
  induction r generalizing f fs with
  | done =>
    intro g gs hp
    cases hp
    exact ha.disjoint
  | move m rest ih =>
    have hbound := any_isBoundary_cons hb fs
    have hl : (move m .done).DeclaresLexical x → f.declared.contains x = true →
        (move m .done).Reported ⟨f :: fs⟩ x := fun hl hd =>
      (reportedExactly_move hbound m x).2 (.inr (.inr (.inl ⟨hl, .inr (.inl hd)⟩)))
    rw [move_eq] at ho hr ha ⊢
    exact endsDisjoint_append hb hf ho nofun (not_clash_move m x) hl hr ha fun g gs hg hr ha =>
      ih (hg.trans hb) (hg.trans hf) ho.right hn hr ha
  | frame o' body rest _ ih =>
    have hl : (frame o' body .done).DeclaresLexical x → f.declared.contains x = true →
        (frame o' body .done).Reported ⟨f :: fs⟩ x := by
      rintro ⟨kind, -, hk⟩
      exact absurd hk not_makes_own_frame
    simp only [nodes, List.cons_append, List.forall_mem_cons, List.forall_mem_append] at hn
    rw [frame_eq] at ho hr ha ⊢
    refine endsDisjoint_append hb hf ho ?_ (not_clash_frame o' body x) hl hr ha fun g gs hg hr ha =>
      ih (hg.trans hb) (hg.trans hf) ho.right hn.2.2 hr ha
    simpa [nodes] using ⟨hn.1, hn.2.1⟩

namespace Effect

variable {body : ScopeRun} {o : Opening} {bounded : Prop} {strict : Bool} {f : Frame}

theorem names_lexical (h : body.Effect bounded True True (o.frame strict) f) :
    f.lexical.names = body.lexicalNames.eraseDups := by
  rw [h.lexicalNames.names trivial, Opening.lexical_frame, Environment.names_empty,
    foldl_noteName_nil]

theorem names_declared (h : body.Effect bounded True True (o.frame strict) f)
    (ho : o.isBlock = false) (hp : ScopeNode.ParametersFirst ⟨o, body⟩) :
    f.declared.names = body.variableNames.eraseDups := by
  have hc (x : String) : ¬ body.Catches x := fun hx => by
    have hb : o.isBlock = true := hp.catchParameters _ (catches_iff.1 hx) rfl
    rw [ho] at hb
    cases hb
  have hd := h.declaredNames ((Opening.isBlock_frame strict o).trans ho) fun _ => hc
  rw [hd.names trivial, Opening.declared_frame, Environment.names_empty, foldl_noteName_nil]

end Effect

/-- Capture analysis is exact. Take any run of a frame's inside that takes parameters first and in
which no declaration is reported, whatever the frames around hold. When the frame is left, it owns
the variables that the run declares for it, each flagged captured if and only if what happens inside
captures the name, and what is told of a function or program lists the captured ones of its declared
variables in the order of declaration. -/
theorem captured_iff_captures (s : Scopes) (o : Opening) (body : ScopeRun)
    (hn : ∀ n ∈ ScopeNode.mk o body :: body.nodes, n.ParametersFirst)
    (hr : ∀ e ∈ body.reports (s.enter o), e.1.declares?.isSome = true → e.2.duplicated = false) :
    ∃ f fs, body.perform (s.enter o) = ⟨f :: fs⟩ ∧
      f.bindings.map (·.1) = ScopeNode.owned ⟨o, body⟩ ∧
      (∀ e ∈ f.bindings, e.2.captured = true ↔ ScopeNode.Captures ⟨o, body⟩ e.1) ∧
      (o.isBlock = false →
        f.finish.2.declared.names = body.variableNames.eraseDups ∧
        f.finish.2.captured = (f.finish.2.declared.entries.filter (·.2.captured)).map (·.1)) := by
  have he := effects body (s := s.enter o) (List.cons_ne_nil _ _) fun h : o.isBlock = false => by
    simp [Scopes.enter, Scopes.push, h]
  generalize hp : body.perform (s.enter o) = s' at he
  obtain ⟨_ | ⟨f, fs⟩⟩ := s'
  · cases he
  have hf : body.Effect (o.isBlock = false) True True (o.frame s.strict) f := by
    cases he with | cons h _ => exact h
  have hu := hf.unsettled (by simp [Environment.Unsettled.empty])
  have hd (hb : f.isBlock = false) (x : String) (hx : f.declared.contains x = true) :
      f.lexical.contains x = false := by
    have ho : o.isBlock = false := by rw [← hb, hf.isBlock, Opening.isBlock_frame]
    have hunreported : ¬ body.Reported (s.enter o) x := by
      rintro ⟨e, hm, hx, hdup⟩
      rw [hr e hm (by simp [hx])] at hdup
      cases hdup
    rw [List.forall_mem_cons] at hn
    refine endsDisjoint ?_ (Opening.isBlock_frame _ o) hn.1 hn.2 hunreported ?_ f fs hp hx
    · rw [Opening.isBlock_frame, ho]
    · constructor <;> simp
  have hopen : f.isOpen = true ↔ body.UsesEval ∨ body.Activates := by
    rw [Frame.isOpen, Bool.or_eq_true, hf.usesEval, hf.fullActivation]
    simp
  have hclosed (x : String) : f.closed.contains x = true ↔ body.ClosesOver x := by
    simpa using hf.closed x
  have hblock : f.isBlock = o.isBlock := hf.isBlock.trans (Opening.isBlock_frame _ o)
  have hlexical : f.lexical.names = body.lexicalNames.eraseDups := hf.names_lexical
  have hvariables (ho : o.isBlock = false) : f.declared.names = body.variableNames.eraseDups :=
    hf.names_declared ho (List.forall_mem_cons.1 hn).1
  refine ⟨f, fs, rfl, ?_, fun e hm => ?_, fun ho => ⟨?_, ?_⟩⟩
  · rw [Frame.names_bindings, hlexical, hblock, ScopeNode.owned]
    split
    · rfl
    · next ho => rw [hvariables (Bool.eq_false_iff.2 ho)]
  · rw [Frame.captured_bindings hu hd hm, hopen, hclosed, ScopeNode.Captures, or_assoc]
  · rw [Frame.names_declared_finish (hblock.trans ho), hvariables ho]
  · exact Frame.captured_names ((Frame.declared_finishLexical (hblock.trans ho)).symm ▸ hu.2)

/-- A variable that a function inside uses before it is declared is there, and captured. -/
theorem variable_used_inside_is_captured :
    let o := Opening.program .script false .none
    let body := frame (.function .plainFunction .none (some "f") false false)
      (.move (.use "x") .done)
      (.move (.declare "x" .var) (.move (.declare "y" .let) .done))
    ((∀ n ∈ ScopeNode.mk o body :: body.nodes, n.ParametersFirst) ∧
      ∀ e ∈ body.reports (Scopes.empty.enter o), e.1.declares?.isSome = true →
      e.2.duplicated = false) ∧
    ∃ f fs, body.perform (Scopes.empty.enter o) = ⟨f :: fs⟩ ∧ f.bindings.map (·.1) = ["y", "x"] ∧
      (∃ e ∈ f.bindings, e.1 = "x" ∧ e.2.captured = true) ∧ f.finish.2.captured = ["x"] := by
  intro o body
  have hn : ∀ n ∈ ScopeNode.mk o body :: body.nodes, n.ParametersFirst := by decide
  have hr : ∀ e ∈ body.reports (Scopes.empty.enter o), e.1.declares?.isSome = true →
      e.2.duplicated = false := by
    decide
  obtain ⟨f, fs, hf, hx, he, -⟩ := captured_iff_captures .empty o body hn hr
  have hcloses : body.ClosesOver "x" := by
    refine ⟨_, ⟨⟨_, List.mem_cons_self, rfl⟩, fun n hn => ?_⟩, .inside _ (.here _ _)⟩
    rw [List.mem_singleton.1 hn]
    simp [ScopeNode.Binds, DeclaresLexical, Catches, DeclaresVar, TakesParameter, makes_move,
      Opening.ownName?]
  have hnames : f.bindings.map (·.1) = ["y", "x"] := hx.trans (by decide)
  have hm : "x" ∈ f.bindings.map (·.1) := by
    rw [hnames]
    decide
  obtain ⟨e, hb, hex⟩ := List.mem_map.1 hm
  have hlist : (body.perform (Scopes.empty.enter o)).frames.head?.map (·.finish.2.captured) =
      some ["x"] := by decide
  rw [hf] at hlist
  refine ⟨⟨hn, hr⟩, f, fs, hf, hnames, ⟨e, hb, hex, (he e hb).2 ?_⟩, Option.some.inj hlist⟩
  rw [hex]
  exact .inr (.inr hcloses)

end ScopeRun

end EcmaFront
