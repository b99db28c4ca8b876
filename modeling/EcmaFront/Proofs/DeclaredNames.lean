import EcmaFront.Proofs.Declarations
import EcmaFront.Proofs.Passage

/-!
The scopes of a program tell of just what is declared in it. While the program is read, the open
frames gain the names that are declared in the text, also where readings are given up or a body is
read again as strict code.
-/

set_option autoImplicit false

namespace EcmaFront

open Declared (direct vars lexicals)
open Finding (items)
open Scopes (Gains)

namespace Parse

variable {c : ParseContext} {strict inBlock : Bool} {l : List Declared} {s : Scopes}
  {t t' : ParseState}

theorem gains_finishBlock {scope : Environment} (h : Gains strict true l s.pushBlock t.scopes)
    (ho : t.scopes.outline = s.pushBlock.outline) (hf : finishBlock c t = (.ok scope, t')) :
    Gains strict inBlock (declaredNames.block scope l) s t'.scopes := by
  obtain ⟨ht, -⟩ | ⟨f, rest, ht, rfl, rfl⟩ := finishBlock_ok hf <;> rw [ht] at ho h
  · cases ho
  · have hb : f.isBoundary = false := by
      have hk : f.kind = .block := congrArg (·.1) (List.cons.inj ho).1
      rw [Frame.isBoundary, hk]
      rfl
    have hd : Scopes.outerVariables ⟨f :: rest⟩ = Scopes.outerVariables ⟨rest⟩ :=
      congrArg (List.map _) (Scopes.boundaries_block hb rest)
    obtain ⟨hl, hs⟩ := List.cons.inj h.lexical
    obtain ⟨ho', hl'⟩ := Scopes.views_pop f.finishBlock.1 rest true
    refine ⟨?_, ?_, fun scope ds hm => ?_⟩
    · rw [Declared.vars_block]
      exact ho'.trans (hd.symm.trans h.outer)
    · rw [Declared.direct_block]
      refine (hl'.trans hs).trans ?_
      show s.lexicalVariables = _
      cases s.lexicalVariables <;> simp [lexicals]
    · obtain hm | hm := List.mem_cons.1 hm
      · cases hm
        exact f.declarations_lexical_finishLexical.trans hl
      · obtain ⟨d, hd, he⟩ := List.mem_map.1 hm
        cases d with
        | name d => cases he
        | block => cases he; exact h.blocks _ _ hd

theorem declaresExactly_finishFunction {scope : ScopeSummary} {s₀ : Scopes}
    {vs ls : List (List (String × Traits))} (h : Gains t.strict false l s₀ t.scopes)
    (ho : s₀.outerVariables = [] :: vs) (hl : s₀.lexicalVariables = [] :: ls)
    (hb : t.scopes.top?.any (·.isBlock) = false) (hf : finishFunction c t = (.ok scope, t'))
    (node? : Option FunctionNode) :
    (Enclosure.mk node? scope l).DeclaresExactly ∧ t'.scopes.outerVariables = vs ∧
      t'.scopes.lexicalVariables = ls := by
  have hlt := h.lexical
  have hot := h.outer
  obtain ⟨ht, -⟩ | ⟨f, rest, ht, rfl, rfl⟩ := finishFunction_ok hf <;> rw [ht] at hb hlt hot
  · rw [hl] at hlt
    cases hlt
  · have hb : f.isBoundary = true := by
      simpa [Scopes.top?, Frame.isBlock_eq] using hb
    have hd : Scopes.outerVariables ⟨f :: rest⟩ =
        f.declared.declarations :: Scopes.outerVariables ⟨rest⟩ :=
      congrArg (List.map _) (Scopes.boundaries_cons hb rest)
    have hs : f.finish.2.strict = t.strict := by
      rw [f.strict_finish, ParseState.strict, ht]
      rfl
    rw [hd, ho] at hot
    obtain ⟨ho₁, ho₂⟩ := List.cons.inj hot
    rw [hl] at hlt
    obtain ⟨hl₁, hl₂⟩ := List.cons.inj hlt
    obtain ⟨ho', hl'⟩ := Scopes.views_pop f.finish.1 rest true
    refine ⟨⟨?_, ?_, ?_⟩, ho'.trans ho₂, hl'.trans hl₂⟩
    · rw [f.declarations_declared_finish, ho₁, hs, addVariables_nil]
    · rw [f.declarations_lexical_finish, hs]
      exact hl₁
    · rw [hs]
      exact h.blocks

theorem variables_enableStrict {directive : Extent}
    (h : enableStrict directive c t = (.ok (), t')) :
    t'.scopes.frames.map Frame.variables = t.scopes.frames.map Frame.variables := by
  obtain ⟨rfl, -⟩ | ⟨rfl, -⟩ := enableStrict_ok h
  · rfl
  · exact Scopes.map_modifyFirst fun _ => rfl

theorem not_duplicated_of_bindingFault? {form : BindingForm} {name : String} {conflicts : Conflicts}
    {strict : Bool} (h : bindingFault? form name conflicts strict = none) (hf : form ≠ .parameter) :
    conflicts.duplicated = false := by
  unfold bindingFault? at h
  simp only [bne_iff_ne, ne_eq, hf, not_false_eq_true, if_true] at h
  split at h
  · cases h
  · split at h
    · cases h
    · split at h
      · next hd => simpa using hd
      · cases h

theorem not_duplicated_of_functionNameFault? {name : String} {conflicts : Conflicts} {strict : Bool}
    (h : functionNameFault? name conflicts strict = none) : conflicts.duplicated = false := by
  unfold functionNameFault? at h
  split at h
  · cases h
  · split at h
    · cases h
    · next hd => simpa using hd

theorem gains_declarationOf {form : BindingForm} {name : String} {s : ParseState}
    (ha : s.Admits form)
    (hf : bindingFault? form name (declarationOf name form s.scopes).2 s.strict = none) :
    Gains strict inBlock (declaredNames.leaf (.binding form name)) s.scopes
      (declarationOf name form s.scopes).1 := by
  rcases form with kind | _ | _ | _
  · exact .declare rfl fun _ => not_duplicated_of_bindingFault? hf nofun
  · exact .declareParameter name
  · exact .declareCatch (ha rfl) name
  · exact .nothing rfl

end Parse

theorem Scopes.Gains.of_plain {strict inBlock : Bool} {xs : List String} {s s' : Scopes}
    (h : Gains strict inBlock (xs.flatMap (declaredNames.leaf <| .binding .parameter ·)) s s')
    (strict' : Bool) :
    Gains strict' inBlock (xs.flatMap (declaredNames.leaf <| .binding .parameter ·)) s s' := by
  have hv (strict : Bool) :
      vars strict inBlock (xs.flatMap (declaredNames.leaf <| .binding .parameter ·)) = xs ∧
      lexicals strict inBlock (direct (xs.flatMap (declaredNames.leaf <| .binding .parameter ·))) =
      [] := by
    clear h
    induction xs with
    | nil => exact ⟨rfl, rfl⟩
    | cons x xs ih =>
      rw [List.flatMap_cons, Declared.vars_append, Declared.direct_append,
        Declared.lexicals_append, ih.1, ih.2]
      exact ⟨rfl, rfl⟩
  refine ⟨?_, ?_, fun scope ds hm => ?_⟩
  · rw [h.outer, (hv strict).1, (hv strict').1]
  · rw [h.lexical, (hv strict).2, (hv strict').2]
  · obtain ⟨x, -, hx⟩ := List.mem_flatMap.1 hm
    exact absurd (List.mem_singleton.1 hx) nofun

namespace Walk

def Gained (s : ParseState) (l : List Declared) (s' : ParseState) : Prop :=
  Gains s.strict (s.scopes.top?.any (·.isBlock)) l s.scopes s'.scopes

def SameVariables (s s' : ParseState) : Prop :=
  s'.scopes.outerVariables = s.scopes.outerVariables ∧
    s'.scopes.lexicalVariables = s.scopes.lexicalVariables

variable {Holds : Int → Enclosure Declared → Prop} {c : ParseContext} {s₀ s s₁ s₂ s' : ParseState}

theorem gained_parameters {ps : List (Parameter Expr Pat)}
    (hf : s.scopes.function?.any (·.isFunction) = true)
    (h : Leading Gained Holds s (declaredNames.enclosing.parameters ps) s₁) (hp : s₁.Tells ps)
    (ht : Turning SameVariables s₁ s₂) :
    Gains s₂.strict (s.scopes.top?.any (·.isBlock))
      (items (declaredNames.enclosing.parameters ps)) s.scopes
      s₂.scopes := by
  have hs : Gains s₂.strict (s.scopes.top?.any (·.isBlock))
      (items (declaredNames.enclosing.parameters ps))
      s.scopes s₁.scopes := by
    by_cases he : s₂.strict = s₁.strict
    · rw [he, show s₁.strict = s.strict from Scopes.strict_congr h.outline]
      exact h.leads
    · obtain ⟨xs, hx⟩ :=
        plain_of_turned ht he hp ((Scopes.isFunction_congr h.outline).trans hf) declaredNames
      have hl := h.leads
      rw [hx] at hl ⊢
      exact hl.of_plain _
  have ha := hs.trans (.of_views ht.turns.1 ht.turns.2)
  rwa [List.append_nil] at ha

/-- From state to state the frames gain what the text in between declares. -/
def declaring (c : ParseContext) : Walk declaredNames c fun _ => Enclosure.DeclaresExactly where
  keeps _ h := h
  leads := Gained
  turns := SameVariables
  trans ho h h' := by
    rw [Gained, ParseState.strict, Scopes.strict_congr ho, Scopes.inBlock_congr ho] at h'
    exact h.trans h'
  settle h _ _ := .nothing (by rw [h])
  touch h := .nothing (h.map (fun _ _ _ _ _ => rfl) fun _ _ _ _ => rfl)
  firstAccessor _ _ := .nothing rfl
  reference _ _ := .nothing (Scopes.map_modifyTop fun _ => rfl)
  bind ha _ hf := Parse.gains_declarationOf ha hf
  bindFunction hf := .declare rfl fun _ => Parse.not_duplicated_of_functionNameFault? hf
  write _ := .nothing (Scopes.map_modifyTop fun _ => rfl)
  await _ _ _ := .nothing rfl
  commit ho h hc := by
    have hw := (Parse.commitWrites_ok (g := Frame.variables) (fun _ _ => rfl) hc).1
    have ht := h.trans (.nothing hw)
    rwa [List.append_nil] at ht
  withObject _ := .nothing rfl
  delete _ _ := .nothing rfl
  loneFunction _ := .nothing rfl
  block ho h hf := Parse.gains_finishBlock h ho hf
  function {s s₁ s' h f isDeclaration} hh hr hd := by
    obtain ⟨t₁, t₂, t₃, t₄, hp, hq, ht, hb, hf, hn⟩ := hr.inside
    have hk : t₂.scopes.top?.any (·.isBlock) = false :=
      ht.inBlock.trans (Scopes.inBlock_congr hp.outline)
    have hl := hb.leads
    rw [Gained, hk] at hl
    have hg : Gains t₃.strict false (items (declaredNames.enclosing.inside f))
        (s.enter h).scopes t₃.scopes := by
      have he : t₃.strict = t₂.strict := Scopes.strict_congr hb.outline
      rw [he, Collector.inside, Finding.items_append]
      exact (gained_parameters rfl hp hq ht).trans hl
    obtain ⟨he, ho', hl'⟩ := Parse.declaresExactly_finishFunction hg rfl rfl
      ((Scopes.inBlock_congr hb.outline).trans hk) hf (some ⟨f, isDeclaration⟩)
    obtain ⟨ho, hl⟩ := hn.leads.views
    refine ⟨he, ?_⟩
    rw [Gained, (Parse.recordFunction_ok hd).1]
    exact .of_views (ho.trans ho') (hl.trans hl')
  unturned _ := ⟨rfl, rfl⟩
  turn ht h ho hs he hr := by
    rw [SameVariables, hr]
    obtain ⟨ho', hl'⟩ := h.views
    have hg : Gains false false [] _ _ := .nothing (Parse.variables_enableStrict he)
    exact ⟨hg.views.1.trans (ho'.trans ht.turns.1), hg.views.2.trans (hl'.trans ht.turns.2)⟩
  giveUp hg _ _ := .nothing (Scopes.map_grown (fun hf => by rw [hf.2]; rfl) hg)

end Walk

/-- The scopes of an accepted program tell of just what is declared in it: its own scope, the scopes
of all its functions and those of the blocks in them. -/
theorem declares_exactly {source : Source} {options : ParseOptions} {p : Program}
    (h : (parseProgram source options).outcome = .ok p) :
    ∀ e ∈ p.enclosures declaredNames, e.DeclaresExactly := by
  refine (Walk.declaring _).forall_enclosures (fun {s₁ s₂ s₃ l scope} ht hl hf => ?_)
    (Prod.ext h rfl)
  have hk : s₁.scopes.top?.any (·.isBlock) = false := ht.inBlock
  have hb : Walk.Gained s₁ (items l) s₂ := hl.leads
  rw [Walk.Gained, hk] at hb
  have hg : Gains s₂.strict false (items l)
      (ParseState.entered source options).scopes s₂.scopes := by
    have he : s₂.strict = s₁.strict := Scopes.strict_congr hl.outline
    rw [he]
    exact (Gains.of_views ht.turns.1 ht.turns.2).trans hb
  exact (Parse.declaresExactly_finishFunction hg rfl rfl
    ((Scopes.inBlock_congr hl.outline).trans hk) hf none).1

theorem declares_exactly_in_function_and_block :
    ∃ p, (parseProgram (.ofString "function f(a){var b;{let c}}" "") {}).outcome = .ok p ∧
      ∀ e ∈ p.enclosures declaredNames, e.DeclaresExactly := by
  have h : (parseProgram (.ofString "function f(a){var b;{let c}}" "") {}).outcome.isOk = true := by
    decide +kernel
  cases ho : (parseProgram (.ofString "function f(a){var b;{let c}}" "") {}).outcome with
  | ok p => exact ⟨p, rfl, declares_exactly ho⟩
  | error e => simp [ho, Except.isOk, Except.toBool] at h

end EcmaFront
