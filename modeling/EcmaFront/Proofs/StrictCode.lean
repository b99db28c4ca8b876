import EcmaFront.Proofs.Passage

/-!
What strict code is kept free of. Each rule has its own place: a name is refused where it is
declared, a write where it is made, and what a function took before it turned strict is looked at
when its directive is read.
-/

set_option autoImplicit false

namespace EcmaFront

open Finding (items)

def Occurrence.isForbidden : Occurrence → Bool
  | .binding form name => form != .assignment && isRestricted name
  | .functionName name | .write name => isRestricted name
  | .withObject | .delete _ | .loneFunction => true
  | .reference _ | .target _ => false

/-- The name that a function has as a variable, be it inside itself or around. -/
def FunctionNode.boundName? (n : FunctionNode) : Option String :=
  if n.parts.mode == .plainFunction then n.parts.name else none

/-- A part of a text, nested functions apart. -/
inductive CodePart where
  | occurrence (o : Occurrence)
  /-- A name in a pattern that is written if the pattern is assigned to. -/
  | target (name : String)
  | function (n : FunctionNode)

namespace CodePart

def assigned : CodePart → CodePart
  | .target name => .occurrence (.write name)
  | part => part

def target? : CodePart → Option String
  | .target name => some name
  | _ => none

def parameter? : CodePart → Option String
  | .occurrence (.binding .parameter name) => some name
  | _ => none

def targets (l : List CodePart) : List String := l.filterMap target?

def parameters (l : List CodePart) : List String := l.filterMap parameter?

end CodePart

open CodePart (targets parameters)

def codeParts : Collector CodePart where
  leaf
    | .target name => [.target name]
    | o => [.occurrence o]
  function n _ := [.function n]
  block _ l := l
  assigned l := l.map .assigned

/-- Strict code contains nothing forbidden. A strict function in any code is not called `eval` or
`arguments`, unless it is an expression and the code around it is strict already. -/
structure CodePart.Sound (strict : Bool) (l : List CodePart) : Prop where
  allowed : strict = true → ∀ o, .occurrence o ∈ l → o.isForbidden = false
  names : ∀ n, .function n ∈ l → n.parts.scope.strict = true →
    n.boundName?.any isRestricted = true →
    strict = true ∧ n.isDeclaration = false

/-- The code of a program or function is sound, and if it is strict, no parameter is repeated. -/
structure Enclosure.IsSound (e : Enclosure CodePart) : Prop where
  code : CodePart.Sound e.scope.strict e.found
  distinct : e.scope.strict = true → (parameters e.found).Nodup

namespace CodePart

variable {l l' : List CodePart}

@[simp] theorem targets_append : targets (l ++ l') = targets l ++ targets l' :=
  List.filterMap_append

@[simp] theorem parameters_append : parameters (l ++ l') = parameters l ++ parameters l' :=
  List.filterMap_append

@[simp] theorem targets_assigned : targets (l.map assigned) = [] := by
  rw [targets, List.filterMap_map, List.filterMap_eq_nil_iff]
  intro part _
  cases part <;> rfl

@[simp] theorem parameters_assigned : parameters (l.map assigned) = parameters l := by
  rw [parameters, List.filterMap_map]
  refine List.filterMap_congr fun part _ => ?_
  cases part <;> rfl

theorem mem_targets {name : String} (h : .target name ∈ l) : name ∈ targets l :=
  List.mem_filterMap.2 ⟨_, h, rfl⟩

namespace Sound

variable {strict : Bool}

theorem nil : Sound strict [] := ⟨fun _ _ => nofun, fun _ => nofun⟩

theorem append (h : Sound strict l) (h' : Sound strict l') : Sound strict (l ++ l') where
  allowed hs o ho := (List.mem_append.1 ho).elim (h.allowed hs o) (h'.allowed hs o)
  names n hn := (List.mem_append.1 hn).elim (h.names n) (h'.names n)

theorem occurrence {o : Occurrence} (h : strict = true → o.isForbidden = false) :
    Sound strict [.occurrence o] where
  allowed hs o' ho := by
    cases List.mem_singleton.1 ho
    exact h hs
  names n hn := by cases List.mem_singleton.1 hn

theorem assigned (h : Sound strict l)
    (ht : strict = true → ∀ name ∈ targets l, isRestricted name = false) :
    Sound strict (l.map .assigned) where
  allowed hs o ho := by
    obtain ⟨part, hm, he⟩ := List.mem_map.1 ho
    cases part with
    | occurrence => cases he; exact h.allowed hs _ hm
    | target name => cases he; exact ht hs name (mem_targets hm)
    | function => cases he
  names n hn := by
    obtain ⟨part, hm, he⟩ := List.mem_map.1 hn
    cases part with
    | occurrence => cases he
    | target => cases he
    | function => cases he; exact h.names _ hm

end Sound

end CodePart

/-- What was read of a function before its body. -/
structure Frame.Head where
  name : Option String
  strictValid : Bool
  repeatedParameter : Bool
  parameters : List String

def Frame.head (f : Frame) : Frame.Head :=
  ⟨f.name, f.strictValid, f.repeatedParameter, f.parameters⟩

def Scopes.heads (s : Scopes) : List Frame.Head := s.boundaries.map Frame.head

namespace Frame.Head

/-- The head tells whether the name and the parameters are fit for strict code. -/
structure Knows (h : Head) (ps : List String) : Prop where
  unrestricted : h.strictValid = true → h.name.any isRestricted = false ∧ ∀ p ∈ ps,
    isRestricted p = false
  distinct : h.repeatedParameter = false → ps.Nodup ∧ ∀ p ∈ ps, p ∈ h.parameters

structure Leads (h : Head) (ps : List String) (h' : Head) : Prop where
  name : h'.name = h.name
  knows : ∀ {qs}, h.Knows qs → h'.Knows (qs ++ ps)

theorem Leads.refl (h : Head) : h.Leads [] h := ⟨rfl, fun hk => by rwa [List.append_nil]⟩

theorem Leads.trans {h h₁ h' : Head} {ps qs : List String} (hl : h.Leads ps h₁)
    (hl' : h₁.Leads qs h') :
    h.Leads (ps ++ qs) h' :=
  ⟨hl'.name.trans hl.name, fun hk => List.append_assoc .. ▸ hl'.knows (hl.knows hk)⟩

theorem Leads.bind (h : Head) (valid : Bool) :
    h.Leads [] { h with strictValid := h.strictValid && valid } where
  name := rfl
  knows hk := by
    rw [List.append_nil]
    exact ⟨fun hv => hk.unrestricted (Bool.and_eq_true_iff.1 hv).1, hk.distinct⟩

def take (h : Head) (p : String) : Head where
  name := h.name
  strictValid := h.strictValid && !isRestricted p
  repeatedParameter := h.repeatedParameter || h.parameters.contains p
  parameters := if h.parameters.contains p then h.parameters else h.parameters ++ [p]

theorem Leads.take (h : Head) (p : String) : h.Leads [p] (h.take p) where
  name := rfl
  knows {qs} hk := by
    refine ⟨fun hv => ?_, fun hr => ?_⟩
    · obtain ⟨hv, hp⟩ : h.strictValid = true ∧ isRestricted p = false := by
        simpa [Head.take] using hv
      obtain ⟨hn, hq⟩ := hk.unrestricted hv
      exact ⟨hn, by simpa [or_imp, forall_and, hp] using hq⟩
    · obtain ⟨hr, hc⟩ : h.repeatedParameter = false ∧ p ∉ h.parameters := by
        simpa [Head.take] using hr
      obtain ⟨hd, hm⟩ := hk.distinct hr
      have hl : (h.take p).parameters = h.parameters ++ [p] := by simp [Head.take, hc]
      rw [hl]
      refine ⟨?_, fun q hq => ?_⟩
      · rw [List.nodup_append]
        exact ⟨hd, by simp, fun q hq r hr => List.mem_singleton.1 hr ▸ fun he => hc (he ▸ hm q hq)⟩
      · rw [List.mem_append] at hq ⊢
        exact hq.imp_left (hm q)

end Frame.Head

namespace Scopes

variable {s s' : Scopes} {h : Frame.Head} {hs : List Frame.Head}

theorem heads_congr
    (hg : s'.frames.map (fun f => (f.isBoundary, f.head)) =
      s.frames.map fun f => (f.isBoundary, f.head)) :
    s'.heads = s.heads := map_boundaries_congr hg

theorem any_isBoundary_of_heads (he : s.heads = h :: hs) : s.frames.any (·.isBoundary) = true := by
  cases hb : s.frames.any (·.isBoundary) with
  | true => rfl
  | false => rw [heads, boundaries_unbounded hb] at he; cases he

theorem function?_of_heads (he : s.heads = h :: hs) : ∃ f, s.function? = some f ∧ f.head = h := by
  obtain ⟨f, rest, hf, hh, -⟩ := List.map_eq_cons_iff.1 he
  exact ⟨f, by rw [function?_eq, hf, List.head?_cons], hh⟩

theorem heads_reach {p q : Frame → Frame} (change : Frame.Head → Frame.Head)
    (he : s.heads = h :: hs) (hp : ∀ f, (p f).isBoundary = f.isBoundary)
    (hq : ∀ f, (q f).isBoundary = f.isBoundary) (hg : ∀ f, (q f).head = change f.head) :
    heads ⟨reach p q s.frames⟩ = change h :: hs := by
  rw [heads, map_boundaries_reach hp hq hg]
  exact congrArg (List.modifyHead change) he

theorem heads_declareVar (he : s.heads = h :: hs) (name : String) :
    (s.declareVar name).1.heads =
    { h with strictValid := h.strictValid && !isRestricted name } :: hs := by
  rw [declareVar_eq (any_isBoundary_of_heads he)]
  exact heads_reach (fun h => { h with strictValid := h.strictValid && !isRestricted name }) he
    (fun _ => rfl) (fun _ => rfl) fun _ => rfl

theorem heads_declareLexical (he : s.heads = h :: hs) (name : String) (constant : Bool) :
    ∃ valid, (s.declareLexical name constant).1.heads =
    { h with strictValid := h.strictValid && valid } :: hs := by
  rcases s with ⟨_ | ⟨f, rest⟩⟩
  · cases he
  cases hf : f.isBoundary with
  | true =>
    have hf' : (f.declareLexical name constant).1.isBoundary = true := hf
    rw [heads, boundaries_cons hf] at he
    obtain ⟨rfl, rfl⟩ := List.cons.inj he
    exact ⟨!isRestricted name, by rw [heads, declareLexical, boundaries_cons hf']; rfl⟩
  | false =>
    have hf' : (f.declareLexical name constant).1.isBoundary = false := hf
    rw [heads, boundaries_block hf] at he
    exact ⟨true, by rw [heads, declareLexical, boundaries_block hf', he, Bool.and_true]⟩

theorem heads_declare (he : s.heads = h :: hs) (name : String) (kind : VariableKind) :
    ∃ valid, (s.declare name kind).1.heads =
    { h with strictValid := h.strictValid && valid } :: hs := by
  rcases kind with _ | _ | _
  · exact ⟨_, heads_declareVar he name⟩
  · exact heads_declareLexical he name false
  · exact heads_declareLexical he name true

theorem heads_declareCatch (name : String) : (s.declareCatch name).1.heads = s.heads := by
  refine heads_congr ?_
  rcases s with ⟨_ | ⟨f, rest⟩⟩ <;> rfl

theorem heads_declareParameter (he : s.heads = h :: hs) (name : String) :
    (s.declareParameter name).1.heads = h.take name :: hs ∧
      (s.declareParameter name).2 = ⟨isRestricted name, h.parameters.contains name⟩ := by
  obtain ⟨f, hf, rfl⟩ := function?_of_heads he
  have hm : s.modifyFunction (·.declareParameter name |>.1) =
      ⟨Scopes.reach id (·.declareParameter name |>.1) s.frames⟩ :=
      congrArg Scopes.mk (modifyFunction_eq s _)
  rw [declareParameter, hf]
  refine ⟨?_, rfl⟩
  rw [hm]
  exact heads_reach (·.take name) he (fun _ => rfl) (fun _ => rfl) fun _ => rfl

end Scopes

theorem Parse.unrestricted_of_bindingFault? {form : BindingForm} {name : String} {s : Scopes}
    (hs : s.heads ≠ []) (hf : form ≠ .assignment)
    (h : bindingFault? form name (declarationOf name form s).2 true = none) :
    isRestricted name = false := by
  have hc : (declarationOf name form s).2.strict = false := by
    cases hc : (declarationOf name form s).2.strict with
    | false => rfl
    | true =>
      simp only [bindingFault?, hc, Bool.and_self, if_true] at h
      split at h <;> cases h
  rcases form with kind | _ | _ | _
  · exact Scopes.strict_of_declare hc
  · obtain ⟨head, heads, he⟩ := List.exists_cons_of_ne_nil hs
    rw [declarationOf, (Scopes.heads_declareParameter he name).2] at hc
    exact hc
  · rcases s with ⟨_ | ⟨f, rest⟩⟩
    · exact absurd rfl hs
    · exact hc
  · exact absurd rfl hf

theorem Parse.new_of_bindingFault? {name : String} {conflicts : Conflicts}
    (h : bindingFault? .parameter name conflicts true = none) : conflicts.duplicated = false := by
  cases hd : conflicts.duplicated with
  | false => rfl
  | true =>
    simp only [bindingFault?, hd, Bool.not_true, bne_self_eq_false, Bool.false_eq_true,
      if_false, if_true] at h
    repeat' split at h
    all_goals cases h

theorem Scopes.heads_declarationOf {s : Scopes} {h : Frame.Head} {hs : List Frame.Head}
    (he : s.heads = h :: hs) {form : BindingForm} {name : String} {strict : Bool}
    (hf : Parse.bindingFault? form name (Parse.declarationOf name form s).2 strict = none) :
    ∃ h', (Parse.declarationOf name form s).1.heads = h' :: hs ∧
      h.Leads (parameters [.occurrence (.binding form name)]) h' ∧
      (strict = true → h.repeatedParameter = false → h'.repeatedParameter = false) := by
  rcases form with kind | _ | _ | _
  · obtain ⟨valid, hv⟩ := heads_declare he name kind
    exact ⟨_, hv, .bind h valid, fun _ hr => hr⟩
  · obtain ⟨ht, hc⟩ := heads_declareParameter he name
    refine ⟨_, ht, .take h name, fun hs hr => ?_⟩
    rw [hs, Parse.declarationOf, hc] at hf
    have hd : h.parameters.contains name = false := Parse.new_of_bindingFault? hf
    rw [Frame.Head.take, hr, hd, Bool.or_false]
  · exact ⟨h, (heads_declareCatch name).trans he, .refl h, fun _ hr => hr⟩
  · exact ⟨h, he, .refl h, fun _ hr => hr⟩

namespace Walk

def Awaits (s : ParseState) (names : List String) (s' : ParseState) : Prop :=
  ∃ ws, s'.pendingWrites = ws ++ s.pendingWrites ∧ ∀ name ∈ names, ∃ extent, (name, extent) ∈ ws

/-- Nothing that strict code may not contain lies between two states. Names in patterns wait to be
written, and the head of the innermost function knows of its parameters. -/
structure Guarded (s : ParseState) (l : List CodePart) (s' : ParseState) : Prop where
  pending : Awaits s (targets l) s'
  sound : s.scopes.heads ≠ [] → CodePart.Sound s.strict l
  heads : ∀ {h hs}, s.scopes.heads = h :: hs → ∃ h', s'.scopes.heads = h' :: hs ∧
    h.Leads (parameters l) h' ∧ (s.strict = true → h.repeatedParameter = false →
      h'.repeatedParameter = false)

/-- A body is read again as strict code only if what was read of the function before allows it. -/
structure Redone (s s' : ParseState) : Prop where
  pending : s'.pendingWrites = s.pendingWrites
  heads : ∀ {h hs}, s.scopes.heads = h :: hs → ∃ h', s'.scopes.heads = h' :: hs ∧ h.Leads [] h' ∧
    (s.strict = true → h.repeatedParameter = false → h'.repeatedParameter = false) ∧
    (s.strict = false → s'.strict = true → h'.strictValid = true ∧ h'.repeatedParameter = false)

namespace Awaits

variable {s s₁ s' : ParseState} {names names' : List String}

theorem nothing (h : s'.pendingWrites = s.pendingWrites) : Awaits s [] s' := ⟨[], h, nofun⟩

theorem trans (h : Awaits s names s₁) (h' : Awaits s₁ names' s') :
    Awaits s (names ++ names') s' := by
  obtain ⟨ws, hw, ht⟩ := h
  obtain ⟨ws', hw', ht'⟩ := h'
  refine ⟨ws' ++ ws, by rw [hw', hw, List.append_assoc], fun name hn => ?_⟩
  obtain hn | hn := List.mem_append.1 hn
  · exact (ht name hn).imp fun _ hm => List.mem_append_right ws' hm
  · exact (ht' name hn).imp fun _ hm => List.mem_append_left ws hm

theorem forget (h : Awaits s names s') : Awaits s [] s' := h.imp fun _ hw => ⟨hw.1, nofun⟩

end Awaits

namespace Guarded

variable {l l' : List CodePart} {s s₁ s' : ParseState}

theorem nothing (hp : s'.pendingWrites = s.pendingWrites) (hh : s'.scopes.heads = s.scopes.heads) :
    Guarded s [] s' where
  pending := .nothing hp
  sound _ := .nil
  heads {h _} he := ⟨h, hh.trans he, .refl h, fun _ hr => hr⟩

theorem occurrence {o : Occurrence} (hp : s'.pendingWrites = s.pendingWrites)
    (hh : s'.scopes.heads = s.scopes.heads) (hl : parameters [.occurrence o] = [])
    (ho : s.strict = true → o.isForbidden = false) :
    Guarded s [.occurrence o] s' where
  pending := .nothing hp
  sound _ := .occurrence ho
  heads {h _} he := ⟨h, hh.trans he, hl ▸ .refl h, fun _ hr => hr⟩

theorem trans (hs : s₁.strict = s.strict) (h : Guarded s l s₁) (h' : Guarded s₁ l' s') :
    Guarded s (l ++ l') s' where
  pending := by
    rw [CodePart.targets_append]
    exact h.pending.trans h'.pending
  sound hne := by
    obtain ⟨head, heads, he⟩ := List.exists_cons_of_ne_nil hne
    obtain ⟨head', he', -⟩ := h.heads he
    have hs' := h'.sound (by rw [he']; exact List.cons_ne_nil _ _)
    rw [hs] at hs'
    exact (h.sound hne).append hs'
  heads he := by
    obtain ⟨h₁, he₁, hl, hr⟩ := h.heads he
    obtain ⟨h', he', hl', hr'⟩ := h'.heads he₁
    refine ⟨h', he', ?_, fun hv hn => hr' (hs ▸ hv) (hr hv hn)⟩
    rw [CodePart.parameters_append]
    exact hl.trans hl'

theorem awaiting (s : ParseState) (name : String) (extent : Extent) :
    Guarded s [.target name] (s.awaitWrite (some name) extent) where
  pending := ⟨[(name, extent)], rfl,
    fun _ hn => ⟨extent, List.mem_singleton.1 hn ▸ List.mem_singleton_self _⟩⟩
  sound _ := by
    refine ⟨fun _ o ho => ?_, fun n hn => ?_⟩
    · cases List.mem_singleton.1 ho
    · cases List.mem_singleton.1 hn
  heads {h _} he := ⟨h, he, .refl h, fun _ hr => hr⟩

end Guarded

end Walk

namespace Parse

variable {c : ParseContext} {s s' : ParseState}

theorem unrestricted_of_writeAll {writes : List (String × Extent)}
    (h : writeAll writes c s = (.ok (), s')) (hs : s.strict = true) :
    ∀ w ∈ writes, isRestricted w.1 = false := by
  induction writes generalizing s with
  | nil => nofun
  | cons first rest ih =>
    simp only [writeAll, bind_ok, write, state_bind, ite_ok, failAt_ok, and_false, false_or,
      modifyScopes_run, Prod.mk.injEq, true_and] at h
    obtain ⟨_, _, ⟨hr, rfl⟩, hw⟩ := h
    have hs' : (s.scopes.write first.1).strict = s.scopes.strict :=
      Scopes.strict_congr (Scopes.outline_modifyTop fun _ => rfl)
    refine List.forall_mem_cons.2 ⟨?_, ih hw (hs'.trans hs)⟩
    simpa [hs] using hr

end Parse

namespace Scopes

theorem heads_pop (f : Frame) (rest : List Frame) (trackClosed : Bool) :
    ((Scopes.mk (f :: rest)).pop trackClosed).heads = heads ⟨rest⟩ := by
  refine heads_congr ?_
  cases rest <;> rfl

end Scopes

namespace Parse

variable {c : ParseContext} {s s' : ParseState} {h : Frame.Head} {hs : List Frame.Head}

theorem heads_finishBlock {scope : Environment} (hb : s.scopes.top?.any (·.isBlock) = true)
    (h : finishBlock c s = (.ok scope, s')) : s'.scopes.heads = s.scopes.heads := by
  obtain ⟨-, rfl⟩ | ⟨f, rest, hs, -, rfl⟩ := finishBlock_ok h
  · rfl
  · rw [hs] at hb ⊢
    have hf : f.isBoundary = false := by simpa [Scopes.top?, Frame.isBlock_eq] using hb
    refine (Scopes.heads_pop f.finishBlock.1 rest true).trans ?_
    rw [Scopes.heads, Scopes.heads, Scopes.boundaries_block hf]

theorem heads_finishFunction {scope : ScopeSummary} (he : s.scopes.heads = h :: hs)
    (hb : s.scopes.top?.any (·.isBlock) = false) (hf : finishFunction c s = (.ok scope, s')) :
    s'.scopes.heads = hs ∧ scope.strict = s.strict := by
  obtain ⟨hn, -⟩ | ⟨f, rest, hs, rfl, rfl⟩ := finishFunction_ok hf
  · rw [hn] at he
    cases he
  · rw [hs] at hb he
    have hk : f.isBoundary = true := by simpa [Scopes.top?, Frame.isBlock_eq] using hb
    rw [Scopes.heads, Scopes.boundaries_cons hk] at he
    refine ⟨(Scopes.heads_pop f.finish.1 rest true).trans (List.cons.inj he).2,
      f.strict_finish.trans ?_⟩
    rw [ParseState.strict, hs]
    rfl

end Parse

namespace Walk

variable {c : ParseContext} {l l' lp lb : List CodePart} {s s₁ s₂ s₃ s' : ParseState}
  {h : Frame.Head} {hs : List Frame.Head}

/-- Parameters and a body are sound, perhaps after the body was read again. The function had a name
then that is fit for strict code. -/
theorem sound_of_guarded (he : s.scopes.heads = h :: hs) (hk : h.Knows [])
    (hr : h.repeatedParameter = false)
    (hp : Guarded s lp s₁) (hv : s₁.strict = s.strict) (ht : Turning Redone s₁ s₂)
    (hn : s₂.strict ≠ s₁.strict → ∃ names : List String,
      lp = names.flatMap (codeParts.leaf <| .binding .parameter ·))
    (hb : Guarded s₂ lb s₃) : CodePart.Sound s₂.strict (lp ++ lb) ∧
      (s₂.strict = true → (parameters (lp ++ lb)).Nodup) ∧
      (s.strict = false → s₂.strict = true → h.name.any isRestricted = false) ∧
      ∃ h', s₃.scopes.heads = h' :: hs := by
  obtain ⟨h₁, he₁, hl₁, hr₁⟩ := hp.heads he
  obtain ⟨h₂, he₂, hl₂, hr₂, ht₂⟩ := ht.turns.heads he₁
  obtain ⟨h₃, he₃, hl₃, hr₃⟩ := hb.heads he₂
  have hk₂ : h₂.Knows (parameters lp) := by simpa using hl₂.knows (hl₁.knows hk)
  have hk₃ : h₃.Knows (parameters (lp ++ lb)) := by
    rw [CodePart.parameters_append]
    exact hl₃.knows hk₂
  have hb' : CodePart.Sound s₂.strict lb := hb.sound (by rw [he₂]; exact List.cons_ne_nil _ _)
  have hp' : CodePart.Sound s.strict lp := hp.sound (by rw [he]; exact List.cons_ne_nil _ _)
  rw [hv] at hr₂ ht₂ hn
  cases hs : s.strict with
  | true =>
    have hs₂ : s₂.strict = true := ht.strict (hv.trans hs)
    rw [hs] at hp'
    rw [hs₂] at hb' ⊢
    exact ⟨hp'.append hb', fun _ => (hk₃.distinct (hr₃ hs₂ (hr₂ hs (hr₁ hs hr)))).1, nofun, h₃, he₃⟩
  | false =>
    cases hs₂ : s₂.strict with
    | false =>
      rw [hs] at hp'
      rw [hs₂] at hb'
      exact ⟨hp'.append hb', nofun, nofun, h₃, he₃⟩
    | true =>
      obtain ⟨hv₂, hd₂⟩ := ht₂ hs hs₂
      obtain ⟨hu, hq⟩ := hk₂.unrestricted hv₂
      obtain ⟨names, rfl⟩ := hn (by simp [hs, hs₂])
      rw [hs₂] at hb'
      refine ⟨.append ⟨fun _ o ho => ?_, fun n hm => ?_⟩ hb',
        fun _ => (hk₃.distinct (hr₃ hs₂ hd₂)).1, fun _ _ => ?_, h₃, he₃⟩
      · obtain ⟨name, -, he⟩ := List.mem_flatMap.1 ho
        cases List.mem_singleton.1 he
        exact hq name (List.mem_filterMap.2 ⟨_, ho, rfl⟩)
      · obtain ⟨_, -, he⟩ := List.mem_flatMap.1 hm
        cases List.mem_singleton.1 he
      · rwa [← hl₁.name, ← hl₂.name]

theorem Guarded.commit (h : Guarded s l s₁) (hv : s₁.strict = s.strict)
    (hc : Parse.commitWrites s.checkpoint c s₁ = (.ok (), s')) :
    Guarded s (codeParts.assigned l) s' := by
  obtain ⟨ws, hp, ht⟩ := h.pending
  have hl : s₁.pendingWrites.length - s.pendingWrites.length = ws.length := by simp [hp]
  have hw : Parse.writeAll (s₁.awaiting s.checkpoint) c (s₁.commit s.checkpoint) =
      (.ok (), s') := hc
  have ha : s₁.awaiting s.checkpoint = ws.reverse := by
    rw [ParseState.awaiting, ParseState.checkpoint, hl, hp, List.take_left]
  have hd : (s₁.commit s.checkpoint).pendingWrites = s.pendingWrites := by
    rw [ParseState.commit, ParseState.checkpoint, hl, hp, List.drop_left]
  obtain ⟨hg, ho⟩ := Parse.writeAll_ok (g := fun f => (f.isBoundary, f.head)) (fun _ _ => rfl) hw
  refine ⟨⟨[], ho.pendingWrites.trans hd, by simp [codeParts]⟩,
    fun hne => (h.sound hne).assigned fun hs name hn => ?_,
    fun he => ?_⟩
  · obtain ⟨extent, hm⟩ := ht name hn
    refine Parse.unrestricted_of_writeAll hw (hv.trans hs) (name, extent) ?_
    rw [ha]
    exact List.mem_reverse.2 hm
  · obtain ⟨h', he', hl', hr'⟩ := h.heads he
    refine ⟨h', (Scopes.heads_congr hg).trans he', ?_, hr'⟩
    rwa [codeParts, CodePart.parameters_assigned]

theorem Guarded.block {scope : Environment} (h : Guarded (s.onScopes .pushBlock) l s₁)
    (ho : s₁.scopes.outline = s.scopes.pushBlock.outline)
    (hf : Parse.finishBlock c s₁ = (.ok scope, s')) :
    Guarded s (codeParts.block scope l) s' := by
  have hb : s₁.scopes.top?.any (·.isBlock) = true := Scopes.inBlock_congr ho
  refine ⟨?_, h.sound, fun he => ?_⟩
  · obtain ⟨ws, hp, ht⟩ := h.pending
    exact ⟨ws, (Parse.onlyScopes_finishBlock hf).pendingWrites.trans hp, ht⟩
  · obtain ⟨h', he', hl', hr'⟩ := h.heads he
    exact ⟨h', (Parse.heads_finishBlock hb hf).trans he', hl', hr'⟩

theorem Redone.again {directive : Extent} {offset : Nat} (ht : Redone s s₁) (h : Guarded s₁ [] s₂)
    (he : Parse.enableStrict directive c s₂ = (.ok (), s₃))
    (hr : (s₃.restart offset s.checkpoint).scopes = s₃.scopes) :
    Redone s (s₃.restart offset s.checkpoint) where
  pending := by
    obtain ⟨ws, hp, -⟩ := h.pending
    have hp₃ : s₃.pendingWrites = ws ++ s.pendingWrites := by
      obtain ⟨rfl, -⟩ | ⟨rfl, -⟩ := Parse.enableStrict_ok he <;> rw [← ht.pending] <;> exact hp
    show s₃.pendingWrites.drop (s₃.pendingWrites.length - s.pendingWrites.length) = s.pendingWrites
    simp [hp₃]
  heads h₀ := by
    obtain ⟨h₁, he₁, hl₁, -, -⟩ := ht.heads h₀
    obtain ⟨h₂, he₂, hl₂, -⟩ := h.heads he₁
    rw [hr]
    obtain ⟨f, hf, rfl⟩ := Scopes.function?_of_heads he₂
    obtain ⟨-, hn⟩ | ⟨rfl, frame, hg, -, hv, hd, -⟩ := Parse.enableStrict_ok he
    · rw [hf] at hn
      cases hn
    · rw [hf] at hg
      cases hg
      have hs : (s₂.scopes.modifyFunction ({ · with strict := true })).heads = s₂.scopes.heads :=
        Scopes.heads_congr (Scopes.map_modifyFirst fun _ => rfl)
      exact ⟨f.head, hs.trans he₂, hl₁.trans hl₂, fun _ _ => hd, fun _ _ => ⟨hv, hd⟩⟩

theorem knows_nothing (name? : Option String) :
    Frame.Head.Knows ⟨name?, !name?.any isRestricted, false, []⟩ [] :=
  ⟨fun hv => ⟨by simpa using hv, nofun⟩, fun _ => ⟨List.nodup_nil, nofun⟩⟩

theorem guarded_function {Holds : Int → Enclosure CodePart → Prop} {header : Parse.FunctionHeader}
    {f : Function} {isDeclaration : Bool} (hh : header.Fits isDeclaration s.strict)
    (hr : RunsInside Guarded Redone Holds codeParts c header (s.enter header) f s₁)
    (hd : Parse.recordFunction f c (s₁.leaveTo s) = (.ok (), s')) :
    (f.enclosure codeParts isDeclaration).IsSound ∧
    Guarded s [.function ⟨f, isDeclaration⟩] s' := by
  obtain ⟨t₁, t₂, t₃, t₄, hp, hq, ht, hb, hf, hn⟩ := hr.inside
  have he : (s.enter header).scopes.heads =
    ⟨header.bindingName?, !header.bindingName?.any isRestricted, false, []⟩ :: s.scopes.heads := rfl
  have hv₁ : t₁.strict = (s.enter header).strict := Scopes.strict_congr hp.outline
  have hv₃ : t₃.strict = t₂.strict := Scopes.strict_congr hb.outline
  have hk : t₃.scopes.top?.any (·.isBlock) = false :=
    (Scopes.inBlock_congr hb.outline).trans (ht.inBlock.trans (Scopes.inBlock_congr hp.outline))
  obtain ⟨hc, hu, hm, h', he'⟩ := sound_of_guarded he (knows_nothing _) rfl hp.leads hv₁ ht
    (fun hn => plain_of_turned ht hn hq (Scopes.isFunction_congr hp.outline) codeParts) hb.leads
  obtain ⟨he₄, hs⟩ := Parse.heads_finishFunction he' hk hf
  have hl : (f.enclosure codeParts isDeclaration).found =
      items (codeParts.enclosing.parameters f.parameters) ++
      items (codeParts.enclosing.functionBody f.body) := Finding.items_append _ _
  rw [hv₃] at hs
  refine ⟨⟨?_, ?_⟩, ?_, fun _ => ⟨fun _ o ho => ?_, fun n hn hsn hrn => ?_⟩, fun he => ?_⟩
  · rw [hl]
    exact hs ▸ hc
  · rw [hl]
    exact hs ▸ hu
  · have hw : Awaits (s.enter header) _ s₁ :=
      hp.leads.pending.trans <| .trans (.nothing ht.turns.pending) <|
      hb.leads.pending.trans <| .trans (.nothing (Parse.onlyScopes_finishFunction hf).pendingWrites)
      hn.leads.pending
    exact hw.forget.trans (.nothing (Parse.recordFunction_ok hd).2.2.1)
  · cases List.mem_singleton.1 ho
  · cases List.mem_singleton.1 hn
    have hbn : FunctionNode.boundName? ⟨f, isDeclaration⟩ = header.bindingName? := by
      rw [FunctionNode.boundName?, Parse.FunctionHeader.bindingName?, hr.mode, hr.name]
    rw [hbn] at hrn
    cases hv : s.strict with
    | false =>
      rw [hm hv (hs ▸ hsn)] at hrn
      cases hrn
    | true =>
      cases hi : isDeclaration with
      | false => exact ⟨rfl, rfl⟩
      | true =>
        unfold Parse.FunctionHeader.bindingName? at hrn
        split at hrn
        · rw [hh.allowed hi hv] at hrn
          cases hrn
        · cases hrn
  · obtain ⟨h₁, he₁, hl₁, hr₁⟩ := hn.leads.heads (he₄.trans he)
    have hv₄ : t₄.strict = s.strict :=
      Scopes.strict_congr (hn.outline.symm.trans (RunsInside.outline hr))
    refine ⟨h₁, (congrArg Scopes.heads (Parse.recordFunction_ok hd).1).trans he₁, hl₁, ?_⟩
    rwa [hv₄] at hr₁

def guarding (c : ParseContext) : Walk codeParts c fun _ => Enclosure.IsSound where
  keeps _ h := h
  leads := Guarded
  turns := Redone
  trans ho h h' := h.trans (Scopes.strict_congr ho) h'
  settle hs _ hp := .nothing hp (by rw [hs])
  touch h := .nothing rfl (Scopes.heads_congr (h.map (fun _ _ _ _ _ => rfl) fun _ _ _ _ => rfl))
  firstAccessor _ _ := .nothing rfl rfl
  reference _ _ := .occurrence rfl (Scopes.heads_congr (Scopes.map_modifyTop fun _ => rfl))
    rfl fun _ => rfl
  bind ha hn hf := by
    refine ⟨.nothing rfl, fun hne => .occurrence fun hs => ?_,
      fun he => Scopes.heads_declarationOf he hf⟩
    rw [hs] at hf
    simp [Occurrence.isForbidden, Parse.unrestricted_of_bindingFault? hne hn hf]
  bindFunction hf := by
    refine ⟨.nothing rfl, fun _ => .occurrence fun hs => ?_, fun he => ?_⟩
    · rw [hs] at hf
      exact Parse.unrestricted_of_functionNameFault? hf
    · obtain ⟨valid, hv⟩ := Scopes.heads_declare he _ _
      exact ⟨_, hv, .bind _ valid, fun _ hr => hr⟩
  write h := .occurrence rfl (Scopes.heads_congr (Scopes.map_modifyTop fun _ => rfl))
    rfl fun hs => by
    simpa [hs, Occurrence.isForbidden] using h
  await := .awaiting
  commit ho h hc := h.commit (Scopes.strict_congr ho) hc
  withObject h := .occurrence rfl rfl rfl fun hs => by simp [h] at hs
  delete _ h := .occurrence rfl rfl rfl fun hs => by simp [h] at hs
  loneFunction h := .occurrence rfl rfl rfl fun hs => by simp [h] at hs
  block ho h hf := h.block ho hf
  function hh hr hd := guarded_function hh hr hd
  unturned _ := ⟨rfl, fun he => ⟨_, he, .refl _, fun _ hr => hr, fun hs hs' => by simp [hs] at hs'⟩⟩
  turn ht h _ _ he hr := ht.turns.again h he hr
  giveUp hg hp _ := .nothing hp
    (Scopes.heads_congr (Scopes.map_grown (fun hf => by rw [hf.2]; rfl) hg))

end Walk

/-- In an accepted program strict code is kept free of what is forbidden there, but for one thing: a
function expression in strict code may be called `eval` or `arguments`. -/
theorem strict_code_sound {source : Source} {options : ParseOptions} {p : Program}
    (h : (parseProgram source options).outcome = .ok p) :
    ∀ e ∈ p.enclosures codeParts, e.IsSound := by
  refine (Walk.guarding _).forall_enclosures (fun {s₁ s₂ s₃ l scope} ht hl hf => ?_)
    (Prod.ext h rfl)
  have hk : s₂.scopes.top?.any (·.isBlock) = false :=
    (Scopes.inBlock_congr hl.outline).trans ht.inBlock
  have hn : Walk.Guarded (.entered source options) [] (.entered source options) := .nothing rfl rfl
  obtain ⟨hc, hu, -, h', he'⟩ :=
    Walk.sound_of_guarded rfl (Walk.knows_nothing none) rfl hn rfl ht (fun _ => ⟨[], rfl⟩) hl.leads
  have hs : scope.strict = s₁.strict :=
    (Parse.heads_finishFunction he' hk hf).2.trans (Scopes.strict_congr hl.outline)
  exact ⟨hs ▸ hc, hs ▸ hu⟩

/-- The program is `function f(a,b){'use strict';[a]=b}`. -/
theorem strict_code_sound_in_late_strict_function :
    let source := Source.ofString "function f(a,b)\x7b'use strict';[a]=b\x7d" ""
    ∃ p, (parseProgram source {}).outcome = .ok p ∧ ∀ e ∈ p.enclosures codeParts, e.IsSound := by
  intro source
  have h : (parseProgram source {}).outcome.isOk = true := by decide +kernel
  cases ho : (parseProgram source {}).outcome with
  | ok p => exact ⟨p, rfl, strict_code_sound ho⟩
  | error e => simp [ho, Except.isOk, Except.toBool] at h

end EcmaFront
