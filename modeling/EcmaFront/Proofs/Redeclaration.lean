import EcmaFront.Proofs.ScopeEffect

/-!
Which declarations of a run are reported as made twice. A later declaration is checked against what
the frames hold; that this finds every pair that excludes each other, whichever of the two comes
first and whether or not its frame is still open, is what is proved here.
-/

set_option autoImplicit false

namespace EcmaFront

namespace ScopeMove

def isDeclaration : ScopeMove → Bool
  | .declare _ _ => true
  | _ => false

def isParameter : ScopeMove → Bool
  | .parameter _ => true
  | _ => false

def isCatchParameter : ScopeMove → Bool
  | .catchParameter _ => true
  | _ => false

/-- The declarations of a name that must not be made twice; a parameter may be. -/
def declares? : ScopeMove → Option String
  | .declare name _ | .catchParameter name => some name
  | _ => none

end ScopeMove

/-- Functions take their parameters before anything is declared in them, and only blocks are those
of `catch` clauses. -/
structure ScopeNode.ParametersFirst (n : ScopeNode) : Prop where
  parameters : ∀ m ∈ n.body.own, m.isParameter = true → n.opening.isBlock = false
  catchParameters : ∀ m ∈ n.body.own, m.isCatchParameter = true → n.opening.isBlock = true
  first : n.body.own.Pairwise fun m m' => m.isDeclaration = true → m'.isParameter = false

/-- So do `catch` clauses. -/
structure ScopeNode.Orderly (n : ScopeNode) : Prop extends n.ParametersFirst where
  catchesFirst : n.body.own.Pairwise fun m m' => m.isDeclaration = true →
    m'.isCatchParameter = false

instance (n : ScopeNode) : Decidable n.ParametersFirst :=
  decidable_of_iff (_ ∧ _ ∧ _) ⟨fun ⟨h, h', h''⟩ => ⟨h, h', h''⟩, fun ⟨h, h', h''⟩ => ⟨h, h', h''⟩⟩

instance (n : ScopeNode) : Decidable n.Orderly :=
  decidable_of_iff (_ ∧ _) ⟨fun ⟨h, h'⟩ => ⟨h, h'⟩, fun ⟨h, h'⟩ => ⟨h, h'⟩⟩

/-- How often a frame declares the name by `let` or `const`. -/
def ScopeRun.lexicalCount (r : ScopeRun) (x : String) : Nat :=
  r.own.count (.declare x .let) + r.own.count (.declare x .const)

/-- Two declarations made in a frame, or by `var` also in blocks inside, exclude each other. -/
def ScopeRun.Clash (r : ScopeRun) (x : String) : Prop :=
  2 ≤ r.lexicalCount x ∨
    (r.DeclaresLexical x ∧ (r.DeclaresVar x ∨ .parameter x ∈ r.own ∨ .catchParameter x ∈ r.own)) ∨
    2 ≤ r.own.count (.catchParameter x)

namespace ScopeRun

/-- A declaration of the name is reported as made twice. -/
def Reported (r : ScopeRun) (s : Scopes) (x : String) : Prop :=
  ∃ e ∈ r.reports s, e.1.declares? = some x ∧ e.2.duplicated = true

theorem perform_append (r r' : ScopeRun) (s : Scopes) :
    (r ++ r').perform s = r'.perform (r.perform s) := by
  show (r.append r').perform s = _
  induction r generalizing s with
  | done => rfl
  | move m rest ih => exact ih _
  | frame o body rest _ ih => exact ih _

theorem reports_append (r r' : ScopeRun) (s : Scopes) :
    (r ++ r').reports s = r.reports s ++ r'.reports (r.perform s) := by
  show (r.append r').reports s = _
  induction r generalizing s with
  | done => rfl
  | move m rest ih => simp [append, reports, perform, ih]
  | frame o body rest _ ih => simp [append, reports, perform, ih]

theorem nodes_append (r r' : ScopeRun) : (r ++ r').nodes = r.nodes ++ r'.nodes := by
  show (r.append r').nodes = _
  induction r with
  | done => rfl
  | move m rest ih => simp [append, nodes, ih]
  | frame o body rest _ ih => simp [append, nodes, ih]

theorem reported_append (r r' : ScopeRun) (s : Scopes) (x : String) :
    (r ++ r').Reported s x ↔ r.Reported s x ∨ r'.Reported (r.perform s) x := by
  simp only [Reported, reports_append, List.mem_append, or_and_right, exists_or]

theorem makes_own {r : ScopeRun} {m : ScopeMove} : r.Makes (· = []) m ↔ m ∈ r.own := by
  induction r with
  | done => simp [not_makes_done, own]
  | move m' rest ih => rw [move_eq, makes_append, ih, makes_move, own_append]; simp [own]
  | frame o body rest _ ih =>
    rw [frame_eq, makes_append, ih, own_append]; simp [own, not_makes_own_frame]

theorem declaresLexical_iff {r : ScopeRun} {x : String} :
    r.DeclaresLexical x ↔ 1 ≤ r.lexicalCount x := by
  have hc (m : ScopeMove) : m ∈ r.own ↔ 1 ≤ r.own.count m := List.one_le_count_iff.symm
  have hk : r.DeclaresLexical x ↔ .declare x .let ∈ r.own ∨ .declare x .const ∈ r.own := by
    simp only [DeclaresLexical, makes_own]
    constructor
    · rintro ⟨_ | _ | _, hk, h⟩
      · exact absurd rfl hk
      · exact .inl h
      · exact .inr h
    · rintro (h | h)
      · exact ⟨.let, by decide, h⟩
      · exact ⟨.const, by decide, h⟩
  rw [hk, hc, hc, lexicalCount]
  omega

theorem catches_iff {r : ScopeRun} {x : String} : r.Catches x ↔ .catchParameter x ∈ r.own :=
  makes_own

end ScopeRun

section Order

variable {o : Opening} {r r' : ScopeRun}

theorem ScopeNode.ParametersFirst.right (h : ScopeNode.ParametersFirst ⟨o, r ++ r'⟩) :
    ScopeNode.ParametersFirst ⟨o, r'⟩ where
  parameters m hm := h.parameters m (by rw [ScopeRun.own_append]; exact List.mem_append_right _ hm)
  catchParameters m hm :=
    h.catchParameters m (by rw [ScopeRun.own_append]; exact List.mem_append_right _ hm)
  first := by
    have hp := h.first
    rw [ScopeRun.own_append, List.pairwise_append] at hp
    exact hp.2.1

theorem ScopeNode.Orderly.right (h : ScopeNode.Orderly ⟨o, r ++ r'⟩) :
    ScopeNode.Orderly ⟨o, r'⟩ where
  toParametersFirst := h.toParametersFirst.right
  catchesFirst := by
    have hp := h.catchesFirst
    rw [ScopeRun.own_append, List.pairwise_append] at hp
    exact hp.2.1

theorem ScopeNode.ParametersFirst.not_parameter (h : ScopeNode.ParametersFirst ⟨o, r ++ r'⟩)
    {x : String} (hx : r.DeclaresLexical x) : .parameter x ∉ r'.own := by
  obtain ⟨kind, -, hk⟩ := hx
  have hfirst := h.first
  rw [ScopeRun.own_append, List.pairwise_append] at hfirst
  exact fun hm => nomatch hfirst.2.2 _ (ScopeRun.makes_own.1 hk) _ hm rfl

theorem ScopeNode.Orderly.not_catchParameter (h : ScopeNode.Orderly ⟨o, r ++ r'⟩) {x : String}
    (hx : r.DeclaresLexical x) : .catchParameter x ∉ r'.own := by
  obtain ⟨kind, -, hk⟩ := hx
  have hfirst := h.catchesFirst
  rw [ScopeRun.own_append, List.pairwise_append] at hfirst
  exact fun hm => nomatch hfirst.2.2 _ (ScopeRun.makes_own.1 hk) _ hm rfl

end Order

namespace ScopeRun

/-- A declaration of the run and one that the frames hold already exclude each other. -/
def ClashesWith (r : ScopeRun) (f : Frame) (outer : List Frame) (x : String) : Prop :=
  (r.DeclaresLexical x ∧
    (f.lexical.contains x = true ∨ f.declared.contains x = true ∨ f.hoisted.contains x = true)) ∨
  (r.DeclaresVar x ∧ ∃ g ∈ (Scopes.mk (f :: outer)).enclosing, g.lexical.contains x = true) ∨
  (r.Catches x ∧ f.declared.contains x = true)

section Step

variable {r r' : ScopeRun} {f g : Frame} {fs gs : List Frame} {x : String}

theorem Effects.enclosing {top through : Prop} (h : r.Effects True top through fs gs) :
    (∃ g ∈ (Scopes.mk gs).enclosing, g.lexical.contains x = true) ↔
      (∃ f ∈ (Scopes.mk fs).enclosing, f.lexical.contains x = true) ∨
      (fs ≠ [] ∧ top ∧ r.DeclaresLexical x) := by
  induction h with
  | nil => simp
  | @cons top through f g fs gs hf _ ih =>
    rw [Scopes.enclosing_cons, Scopes.enclosing_cons, hf.isBlock]
    cases hb : f.isBlock with
    | true =>
      simp only [if_true, List.mem_cons, exists_eq_or_imp, hf.lexical, ih, false_and,
        and_false, or_false]
      simp only [ne_eq, reduceCtorEq, not_false_eq_true, true_and]
      exact or_right_comm
    | false => simp [hf.lexical]

theorem clash_append {o : Opening} (he : r.Effects True True True (f :: fs) (g :: gs))
    (hf : f.isBlock = o.isBlock) (ho : ScopeNode.Orderly ⟨o, r ++ r'⟩)
    (hp : r.TakesParameter x → .parameter x ∈ r.own) :
    (r ++ r').Clash x ∨ (r ++ r').ClashesWith f fs x ↔
      (r.Clash x ∨ r.ClashesWith f fs x) ∨ (r'.Clash x ∨ r'.ClashesWith g gs x) := by
  have hlexical : (r ++ r').lexicalCount x = r.lexicalCount x + r'.lexicalCount x := by
    simp only [lexicalCount, own_append, List.count_append]
    omega
  have hcatch : (r ++ r').own.count (.catchParameter x) =
      r.own.count (.catchParameter x) + r'.own.count (.catchParameter x) := by
    rw [own_append, List.count_append]
  have hvar : (r ++ r').DeclaresVar x ↔ r.DeclaresVar x ∨ r'.DeclaresVar x := makes_append
  have hin (m : ScopeMove) : m ∈ (r ++ r').own ↔ m ∈ r.own ∨ m ∈ r'.own := by
    rw [own_append, List.mem_append]
  have hcount : r.Catches x ↔ 1 ≤ r.own.count (.catchParameter x) :=
    catches_iff.trans List.one_le_count_iff.symm
  have hcount' : r'.Catches x ↔ 1 ≤ r'.own.count (.catchParameter x) :=
    catches_iff.trans List.one_le_count_iff.symm
  have hcount'' : (r ++ r').Catches x ↔ 1 ≤ (r ++ r').own.count (.catchParameter x) :=
    catches_iff.trans List.one_le_count_iff.symm
  have henclosing := he.enclosing (x := x)
  simp only [ne_eq, reduceCtorEq, not_false_eq_true, true_and] at henclosing
  have htop : r.Effect True True True f g := by cases he with | cons h _ => exact h
  have h₁ := htop.lexical x
  have h₂ := htop.declared x
  have h₃ := htop.hoisted trivial x
  have hlater : r.DeclaresLexical x → .parameter x ∉ r'.own ∧
      .catchParameter x ∉ r'.own := fun hl =>
    ⟨ho.not_parameter hl, ho.not_catchParameter hl⟩
  have hparameter : .parameter x ∈ r.own → f.isBlock = false := fun hm =>
    hf.trans (ho.parameters _ ((hin _).2 (.inl hm)) rfl)
  have hcatches : .catchParameter x ∈ r'.own → f.isBlock = true := fun hm =>
    hf.trans (ho.catchParameters _ ((hin _).2 (.inr hm)) rfl)
  have hown : .parameter x ∈ r.own → r.TakesParameter x := fun hm =>
    let ⟨_, hn, h⟩ := makes_own.2 hm
    ⟨_, hn ▸ throughBlocks_nil, h⟩
  have hsum : 2 ≤ (r ++ r').lexicalCount x ↔
      2 ≤ r.lexicalCount x ∨ 2 ≤ r'.lexicalCount x ∨
      (r.DeclaresLexical x ∧ r'.DeclaresLexical x) := by
    rw [hlexical, declaresLexical_iff, declaresLexical_iff]
    omega
  have hsum' : 2 ≤ (r ++ r').own.count (.catchParameter x) ↔ 2 ≤ r.own.count (.catchParameter x) ∨
      2 ≤ r'.own.count (.catchParameter x) ∨ (r.Catches x ∧ r'.Catches x) := by
    rw [hcatch, hcount, hcount']
    omega
  have hdeclares : (r ++ r').DeclaresLexical x ↔ r.DeclaresLexical x ∨ r'.DeclaresLexical x := by
    rw [declaresLexical_iff, declaresLexical_iff, declaresLexical_iff, hlexical]
    omega
  simp only [Clash, ClashesWith, catches_iff, hsum, hsum', hdeclares, hvar, hin,
    henclosing, h₁, h₂, h₃]
  clear he ho htop h₁ h₂ h₃ henclosing hin hvar hlexical hcatch hcount hcount' hcount''
    hsum hsum' hdeclares
  grind

end Step

theorem parameter_own {r : ScopeRun} (hn : ∀ n ∈ r.nodes, n.ParametersFirst) {x : String}
    (h : r.TakesParameter x) :
    .parameter x ∈ r.own := by
  induction r with
  | done => exact absurd h not_makes_done
  | move m rest ih =>
    rw [TakesParameter, move_eq, makes_append, makes_move] at h
    rcases h with ⟨-, rfl⟩ | h
    · exact List.mem_cons_self
    · exact List.mem_cons_of_mem _ (ih hn h)
  | frame o body rest ihb ih =>
    simp only [nodes, List.cons_append, List.forall_mem_cons, List.forall_mem_append] at hn
    rw [TakesParameter, frame_eq, makes_append, makes_frame] at h
    simp only [throughBlocks_cons, makes_and] at h
    rcases h with ⟨hb, h⟩ | h
    · have hf := hn.1.parameters _ (ihb hn.2.1 h) rfl
      rw [hb] at hf
      cases hf
    · exact ih hn.2.2 h

/-- A name is reported exactly if two of its declarations exclude each other: both made inside some
frame entered in the run, or both by the run itself, or one of them before it. -/
def ReportedExactly (r : ScopeRun) (f : Frame) (fs : List Frame) (x : String) : Prop :=
  r.Reported ⟨f :: fs⟩ x ↔ (∃ n ∈ r.nodes, n.body.Clash x) ∨ (r.Clash x ∨ r.ClashesWith f fs x)

theorem not_clash_move (m : ScopeMove) (x : String) : ¬ (move m .done).Clash x := by
  simp only [Clash, lexicalCount, own, DeclaresLexical, makes_own, DeclaresVar, makes_move,
    List.count_singleton, List.mem_singleton]
  rintro (h | ⟨⟨kind, hk, rfl⟩, ⟨-, h⟩ | h | h⟩ | h)
  · split at h <;> split at h <;> simp_all
  · cases h
    exact hk rfl
  · cases h
  · cases h
  · split at h <;> omega

theorem reportedExactly_move {f : Frame} {fs : List Frame}
    (hb : (f :: fs).any (·.isBoundary) = true) (m : ScopeMove) (x : String) :
    (move m .done).ReportedExactly f fs x := by
  have hr : (move m .done).Reported ⟨f :: fs⟩ x ↔
      m.declares? = some x ∧ (m.apply ⟨f :: fs⟩).2.duplicated = true := by
    simp [Reported, reports]
  unfold ReportedExactly
  rw [hr]
  simp only [nodes, List.not_mem_nil, false_and, exists_false, false_or, not_clash_move,
    ClashesWith, DeclaresLexical, DeclaresVar, Catches, makes_move, throughBlocks_nil, true_and]
  by_cases hx : m.declares? = some x
  · cases m with
    | declare y kind =>
      obtain rfl : y = x := Option.some.inj hx
      cases kind with
      | var =>
        rw [ScopeMove.apply, Scopes.declare, Scopes.declareVar_eq hb]
        simp [ScopeMove.declares?]
      | _ =>
        simp [ScopeMove.declares?, ScopeMove.apply, Scopes.declare, Scopes.declareLexical,
          Frame.declareLexical, or_comm, or_left_comm]
    | catchParameter y =>
      obtain rfl : y = x := Option.some.inj hx
      simp [ScopeMove.declares?, ScopeMove.apply, Scopes.declareCatch, Frame.declareCatch]
    | _ => cases hx
  · have hne (kind : VariableKind) : m ≠ .declare x kind := fun h => hx (h ▸ rfl)
    have hne' : m ≠ .catchParameter x := fun h => hx (h ▸ rfl)
    simp [hx, Ne.symm (hne _), Ne.symm hne']

theorem not_clash_frame (o : Opening) (body : ScopeRun) (x : String) :
    ¬ (frame o body .done).Clash x := by
  simp [Clash, lexicalCount, own, DeclaresLexical, makes_own]

theorem reportedExactly_frame {f : Frame} {fs : List Frame} {o : Opening} {body : ScopeRun}
    {strict : Bool} (x : String) (h : body.ReportedExactly (o.frame strict) (f :: fs) x)
    (hs : strict = f.strict) :
    (frame o body .done).ReportedExactly f fs x := by
  subst hs
  have hr : (frame o body .done).Reported ⟨f :: fs⟩ x ↔
      body.Reported ⟨o.frame f.strict :: f :: fs⟩ x := by
    rw [Reported, reports, reports, List.append_nil]
    rfl
  have hvar : (frame o body .done).DeclaresVar x ↔ o.isBlock = true ∧ body.DeclaresVar x := by
    simp only [DeclaresVar, makes_frame, throughBlocks_cons, makes_and]
  have hwith : body.ClashesWith (o.frame f.strict) (f :: fs) x ↔
      (frame o body .done).ClashesWith f fs x := by
    simp only [ClashesWith, Scopes.enclosing_cons (o.frame f.strict), hvar, Opening.isBlock_frame,
      DeclaresLexical, Catches, not_makes_own_frame]
    cases o.isBlock <;> simp
  unfold ReportedExactly at h ⊢
  rw [hr, h, ← hwith]
  simp only [nodes, List.append_nil, List.mem_cons, exists_eq_or_imp, not_clash_frame, false_or]
  exact or_left_comm.trans or_assoc.symm

theorem reportedExactly_append {r r' : ScopeRun} {o : Opening} {f : Frame}
    {fs : List Frame} {x : String}
    (he : r.Effects True True True (f :: fs) (r.perform ⟨f :: fs⟩).frames)
      (hf : f.isBlock = o.isBlock)
    (ho : ScopeNode.Orderly ⟨o, r ++ r'⟩) (hn : ∀ n ∈ r.nodes, n.Orderly)
      (h : r.ReportedExactly f fs x)
    (h' : ∀ g gs, (g :: gs).any (·.isBoundary) = (f :: fs).any (·.isBoundary) →
      g.isBlock = o.isBlock →
      r'.ReportedExactly g gs x) : (r ++ r').ReportedExactly f fs x := by
  have hk := he.any_isBoundary
  rcases hp : r.perform ⟨f :: fs⟩ with ⟨_ | ⟨g, gs⟩⟩ <;> rw [hp] at he hk
  · cases he
  · have hg : g.isBlock = f.isBlock := by cases he with | cons h _ => exact h.isBlock
    have hr := h' g gs hk (hg.trans hf)
    unfold ReportedExactly at h hr ⊢
    rw [reported_append, hp, h, hr,
      clash_append he hf ho (parameter_own fun n h => (hn n h).toParametersFirst), nodes_append]
    simp only [List.mem_append, or_and_right, exists_or]
    exact or_or_or_comm

theorem reportedExactly (r : ScopeRun) {o : Opening} {f : Frame} {fs : List Frame}
    (hb : (f :: fs).any (·.isBoundary) = true) (hf : f.isBlock = o.isBlock)
    (ho : ScopeNode.Orderly ⟨o, r⟩) (hn : ∀ n ∈ r.nodes, n.Orderly) (x : String) :
    r.ReportedExactly f fs x := by
  induction r generalizing o f fs with
  | done =>
    simp [ReportedExactly, Reported, reports, nodes, Clash, ClashesWith, lexicalCount, own,
      DeclaresLexical, DeclaresVar, Catches, not_makes_done]
  | move m rest ih =>
    have he := effects (.move m .done) (s := ⟨f :: fs⟩) (List.cons_ne_nil f fs) fun _ : True => hb
    have hm := reportedExactly_move hb m x
    have hnone : ∀ n ∈ (move m .done).nodes, n.Orderly := by simp [nodes]
    rw [move_eq] at ho ⊢
    exact reportedExactly_append he hf ho hnone hm fun g gs hk hg => ih (hk.trans hb) hg ho.right hn
  | frame o' body rest ihb ih =>
    have he := effects (.frame o' body .done) (s := ⟨f :: fs⟩) (List.cons_ne_nil f fs)
      fun _ : True => hb
    simp only [nodes, List.cons_append, List.forall_mem_cons, List.forall_mem_append] at hn
    have hin : body.ReportedExactly (o'.frame f.strict) (f :: fs) x :=
      ihb (by simp [hb]) (Opening.isBlock_frame _ o') hn.1 hn.2.1
    have hm := reportedExactly_frame x hin rfl
    rw [frame_eq] at ho ⊢
    refine reportedExactly_append he hf ho ?_ hm fun g gs hk hg =>
      ih (hk.trans hb) hg ho.right hn.2.2
    simpa [nodes] using ⟨hn.1, hn.2.1⟩

/-- Redeclarations are reported exactly. In a run of one function or program, with the functions
inside, a declaration of a name is reported as made twice if and only if in some frame two `let` or
`const` declare the name, or one of them does and so does a parameter or a `var`, the latter from
the frame or from blocks inside, or two `catch` parameters do. The order of the declarations does
not matter, nor what the frames around hold. -/
theorem reported_iff_clash (s : Scopes) (o : Opening) (body : ScopeRun) (ho : o.isBlock = false)
    (hn : ∀ n ∈ ScopeNode.mk o body :: body.nodes, n.Orderly) (x : String) :
    body.Reported (s.enter o) x ↔ ∃ n ∈ ScopeNode.mk o body :: body.nodes, n.body.Clash x := by
  rw [List.forall_mem_cons] at hn
  have h : body.ReportedExactly (o.frame s.strict) s.frames x :=
    reportedExactly body (by simp [ho]) (Opening.isBlock_frame _ o) hn.1 hn.2 x
  unfold ReportedExactly at h
  have hwith : ¬ body.ClashesWith (o.frame s.strict) s.frames x := by
    simp [ClashesWith, Scopes.enclosing_cons, ho]
  simp only [List.mem_cons, exists_eq_or_imp]
  simp only [hwith, or_false] at h
  exact h.trans or_comm

/-- A `let` excludes a `var` that came before it from a block already left. -/
theorem let_after_var_of_block_reported :
    let body := frame .block (.move (.declare "x" .var) .done) (.move (.declare "x" .let) .done)
    let o := Opening.function .plainFunction .none none false false
    (o.isBlock = false ∧ ∀ n ∈ ScopeNode.mk o body :: body.nodes, n.Orderly) ∧
      body.Reported (Scopes.empty.enter o) "x" := by
  refine ⟨by decide, (reported_iff_clash .empty _ _ rfl (by decide) "x").2 ⟨_, List.mem_cons_self,
    .inr (.inl ?_)⟩⟩
  exact ⟨⟨.let, by decide, [], rfl, .after _ _ (.here _ _)⟩,
    .inl ⟨_, by simp [throughBlocks, Opening.isBlock], .inside _ (.here _ _)⟩⟩

end ScopeRun

end EcmaFront
