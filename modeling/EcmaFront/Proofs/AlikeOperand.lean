import EcmaFront.Proofs.AlikeFunction

/-!
Object literals, operands and patterns come to the same end by two sets of rules, if the phrases do
that they ask for.
-/

set_option autoImplicit false

namespace EcmaFront.Parse.Asking

variable {c : ParseContext} {r r' : Rules .tree} {K : Phrase → Ground → Prop} {m : Nat}
  {o s t t' : ParseState} {g : Ground}

/-! Object literals. -/

theorem propertyKey (h : Asking c r r' K m o) (hs : o.Ahead g s) (hK : K .assignment g) :
    Alike c s (propertyKey r) (Parse.propertyKey r') := by
  refine .state_bind ?_
  split
  · exact .next_bind (.pure trivial)
  · exact .next_bind (.pure trivial)
  · exact .next_bind ((h.assignment hs.next hK).bind fun _ _ _ => Alike.expect.bind
      fun _ _ _ => .pure trivial)
  · exact .ite (fun _ => .next_bind (.pure trivial)) fun _ => .unexpected

theorem accessorProperty (h : Asking c r r' K m o) (hs : o.Ahead g s) (hK : g.Operands K)
    {kind : PropertyKind} {scan : ObjectScan NodeAlgebra.tree.Property} :
    Alike c s (accessorProperty r kind scan) (Parse.accessorProperty r' kind scan) := by
  have hn : Alike c s (noteAccessor scan.names) (Parse.noteAccessor scan.names) :=
    .ite (fun _ => .state_bind .modify) fun _ => .pure trivial
  refine .state_bind (hn.bind fun _ s₁ he => .next_bind ?_)
  rw [noteAccessor_run] at he
  cases he
  have h₁ : o.Ahead g (s.noteAccessor scan.names).next :=
    (hs.behind (Walk.noteAccessor (w := Walk.bare c) s _)
      (ParseState.stances_noteAccessor _ _)).next
  refine (h.propertyKey h₁ hK.assignment).bind fun key s₂ hk => ?_
  have hk := propertyKey_read h.reads hk
  refine (Alike.settle fun _ h => (isFault_of_addAccessorKey h).ne_exhausted).bind
    fun names s₃ hn => ?_
  obtain ⟨-, rfl⟩ := settle_ok.1 hn
  refine (h.functionNode (h₁.behind hk.bare hk.stances).toStage hK).bind fun _ _ _ =>
    .spanFrom_bind (.pure trivial)

theorem propertyValue (h : Asking c r r' K m o) (hs : o.Ahead g s) (hK : g.Operands K)
    {start : ParseState} {key : PropertyKey Expr} {prototype : Bool} :
    Alike c s (propertyValue r start key prototype)
      (Parse.propertyValue r' start key prototype) := by
  refine .state_bind ?_
  dsimp only
  split
  · refine .next_bind ((h.assignment hs.next hK.assignment).bind fun _ _ _ => ?_)
    exact .ite (fun _ => .ite (fun _ => .failAt nofun) fun _ => .pure trivial)
      fun _ => .pure trivial
  · exact (h.functionNode hs.toStage hK).bind fun _ _ _ => .pure trivial
  · refine .ite (fun _ => .fail nofun) fun _ => .ite (fun _ => ?_) fun _ => .unexpected
    exact .modifyScopes_bind (.spanFrom_bind (.pure trivial))

theorem dataProperty (h : Asking c r r' K m o) (hs : o.Ahead g s) (hK : g.Operands K)
    {scan : ObjectScan NodeAlgebra.tree.Property} :
    Alike c s (dataProperty r scan) (Parse.dataProperty r' scan) := by
  refine .state_bind ((h.propertyKey hs hK.assignment).bind fun key s₁ hk => ?_)
  have hk := propertyKey_read h.reads hk
  refine (h.propertyValue (hs.behind hk.bare hk.stances) hK).bind fun _ _ _ => ?_
  exact (Alike.settle fun _ h => (isFault_of_addDataKey h).ne_exhausted).bind fun _ _ _ =>
    .spanFrom_bind (.pure trivial)

theorem property (h : Asking c r r' K m o) (hs : o.Ahead g s) (hK : g.Operands K)
    {scan : ObjectScan NodeAlgebra.tree.Property} :
    Alike c s (property r scan) (Parse.property r' scan) := by
  refine .state_bind (.consume_bind (fun _ => ?_) fun _ => Alike.accessor?.bind
    fun kind? s₁ ha => ?_)
  · exact (h.assignment hs.next hK.assignment).bind fun _ _ _ => .spanFrom_bind (.pure trivial)
  · have h₁ := hs.onward (.glance (accessor?_glances ha))
    cases kind? with
    | some kind => exact h.accessorProperty h₁ hK
    | none => exact h.dataProperty h₁ hK

theorem objectLiteral (h : Asking c r r' K m o) (hs : o.Ahead g s.next) (hK : g.Operands K) :
    Alike c s (objectLiteral r) (Parse.objectLiteral r') := by
  have hs := hs.allow true
  refine .state_bind (.next_bind (.bind (.allowingIn ?_) fun _ _ _ => ?_))
  · refine .repeatFrom (o.Ahead g) hs (h.rest_lt hs.toStage) fun scan s hs => .state_bind ?_
    refine .ite (fun _ => .pure trivial) fun _ => (h.property hs hK).bind fun _ s₁ hp => ?_
    obtain ⟨p, -, hp⟩ := property_read h.reads hp
    exact comma hs (.behind hp.bare hp.stances) _ _
  · exact Alike.expect.bind fun _ _ _ => .spanFrom_bind (.pure trivial)

/-! Lists of expressions. -/

theorem expression (h : Asking c r r' K m o) (hs : o.Stage g s)
    (ho : o.sight.position < s.sight.position ∨ 1 < m) (hK : K .assignment g) :
    Alike c s (expression r) (Parse.expression r') := by
  refine .state_bind ((h.assignmentAt hs ho hK).bind fun first s₁ hf => .state_bind ?_)
  refine .ite (fun _ => ?_) fun _ => .pure trivial
  have hf := h.reads.assignment hf
  have h₁ := hs.consumed hf.consumes hf.stances
  refine .bind ?_ fun _ _ _ => .spanFrom_bind (.pure trivial)
  refine .repeatFrom (o.Ahead g) h₁ (h.rest_lt h₁.toStage) fun _ s hs => ?_
  refine .consume_bind (fun hk => ?_) fun _ => .pure trivial
  refine (h.assignment hs.next hK).bind fun a s₂ ha => .pure ?_
  have ha := h.reads.assignment ha
  exact hs.lowers_from hk (.behind ha.bare ha.stances) rfl

theorem expressionBehind (h : Asking c r r' K m o) (hs : o.Ahead g s) (hK : K .assignment g) :
    Alike c s (Parse.expression r) (Parse.expression r') :=
  h.expression hs.toStage (.inl hs.ahead) hK

theorem spreadOrAssignment (h : Asking c r r' K m o) (hs : o.Ahead g s) (hK : K .assignment g) :
    Alike c s (spreadOrAssignment r) (Parse.spreadOrAssignment r') := by
  refine .state_bind (.ite (fun _ => .next_bind ?_) fun _ => h.assignment hs hK)
  exact (h.assignment hs.next hK).bind fun _ _ _ => .spanFrom_bind (.pure trivial)

theorem arguments (h : Asking c r r' K m o) (hs : o.Ahead g s) (hK : K .assignment g) :
    Alike c s (arguments r) (Parse.arguments r') := by
  have hs := hs.next.allow true
  refine .expect_bind fun _ => .bind (.allowingIn ?_) fun _ _ _ => ?_
  · refine .repeatFrom (o.Ahead g) hs (h.rest_lt hs.toStage) fun as s hs => .state_bind ?_
    refine .ite (fun _ => .pure trivial) fun _ => ?_
    refine (h.spreadOrAssignment hs hK).bind fun _ s₁ he => ?_
    have he := spreadOrAssignment_read h.reads he
    exact comma hs (.behind he.bare he.stances) _ _
  · exact Alike.expect.bind fun _ _ _ => .pure trivial

theorem elementRound (h : Asking c r r' K m o) (hs : o.Ahead g s) (hK : K .assignment g)
    {elements : List (Option Expr)} :
    Alike c s (elementRound r elements) (Parse.elementRound r' elements)
      (Alike.Lowers (o.Ahead g) s) := by
  refine .state_bind ?_
  split
  · exact .pure trivial
  · next hk => exact .next_bind (.pure (hs.lowers_from hk (.still rfl rfl) rfl))
  · refine (h.spreadOrAssignment hs hK).bind fun _ s₁ he => .state_bind
      (.ite (fun _ => .pure trivial) fun _ => ?_)
    have he := spreadOrAssignment_read h.reads he
    exact .expect_bind fun hk => .pure (hs.lowers_next (.behind he.bare he.stances) (hk ▸ rfl))

theorem arrayLiteral (h : Asking c r r' K m o) (hs : o.Ahead g s.next) (hK : K .assignment g) :
    Alike c s (arrayLiteral r) (Parse.arrayLiteral r') := by
  have hs := hs.allow true
  refine .state_bind (.next_bind (.bind (.allowingIn ?_) fun _ _ _ => ?_))
  · exact .repeatFrom (o.Ahead g) hs (h.rest_lt hs.toStage) fun _ _ hs => h.elementRound hs hK
  · exact Alike.expect.bind fun _ _ _ => .spanFrom_bind (.pure trivial)

/-! Operands. -/

theorem primary (h : Asking c r r' K m o) (hs : o.Stage g s) (hK : g.Operands K) :
    Alike c s (primary r) (Parse.primary r') := by
  have leaf (make : Span → Expr) : Alike c s (Parse.leaf (B := .tree) make) (Parse.leaf make) :=
    .state_bind (.next_bind (.spanFrom_bind (.pure trivial)))
  have reference (name : String) :
      Alike c s (Parse.reference (B := .tree) name) (Parse.reference name) :=
    .state_bind (.next_bind (.modifyScopes_bind (.spanFrom_bind (.pure trivial))))
  have regexp : Alike c s (Parse.regexpLiteral (B := .tree)) Parse.regexpLiteral := by
    refine .state_bind (.modify_bind
      (.state_bind (.ite (fun _ => .unexpected) fun _ => .next_bind ?_)))
    split
    exact .spanFrom_bind (.pure trivial)
  refine .state_bind ?_
  split
  case h_1 hk => exact h.functionExpression hs (hk ▸ rfl) hK
  case h_2 hk =>
    refine .next_bind (.bind (.allowingIn ?_) fun _ _ _ => Alike.expect.bind
      fun _ _ _ => .pure trivial)
    exact h.expressionBehind ((hs.advance_of hk rfl).allow true) hK.assignment
  case h_3 hk => exact h.arrayLiteral (hs.advance_of hk rfl) hK.assignment
  case h_4 hk => exact h.objectLiteral (hs.advance_of hk rfl) hK
  case h_5 | h_6 | h_7 | h_8 | h_9 | h_10 => exact leaf _
  case h_11 => exact reference _
  case h_12 => exact .ite (fun _ => .unexpected) fun _ => reference _
  case h_13 | h_14 => exact regexp
  case h_15 | h_16 | h_17 => exact .fail nofun
  case h_18 => exact .unexpected

theorem newRound (hs : o.Stage g s) {news : List Position} :
    Alike c s (newRound (B := .tree) news) (Parse.newRound news) (Alike.Lowers (o.Stage g) s) := by
  refine .state_bind (.ite (fun hk => .next_bind (.consume_bind (fun _ => ?_) fun _ => .pure ?_))
    fun _ => .pure trivial)
  · exact Alike.newTarget.bind fun _ _ _ => .pure trivial
  · have hk : s.kind = .kwNew := by simpa using hk
    exact ⟨(hs.advance_of hk rfl).toStage,
      ParseState.Consumes.rest_lt (.of_kind hk (.of_sight rfl) rfl) hs.now⟩

theorem memberRound (h : Asking c r r' K m o) (hs : o.Ahead g s) (hK : K .assignment g)
    {start callee : Position} {chain : MemberChain Expr} :
    Alike c s (memberRound r start callee chain) (Parse.memberRound r' start callee chain)
      (Alike.Lowers (o.Ahead g) s) := by
  refine .state_bind ?_
  dsimp only
  split
  · next hk =>
    refine .next_bind (.state_bind (.ite (fun _ => .next_bind ?_) fun _ => .unexpected))
    exact .spanFrom_bind (.pure (hs.lowers_from hk (.next _) rfl))
  · next hk =>
    refine .next_bind (.bind (.allowingIn (h.expressionBehind (hs.next.allow true) hK))
      fun key s₁ hx => ?_)
    obtain ⟨s₂, hx', rfl⟩ := allowingIn_ok.1 hx
    have hx := expression_read h.reads hx'
    have h₁ : s.next.Onward (s₂.allow s.next.allowsIn) :=
      .trans (.still (by rfl) (by rfl)) (.trans (.behind hx.bare hx.stances) (.still rfl rfl))
    exact .expect_bind fun _ => .spanFrom_bind (.pure (hs.lowers_from hk (h₁.trans (.next _)) rfl))
  · refine (h.arguments hs hK).bind fun as s₁ ha => ?_
    have ha : s.Consumes s₁ ∧ s₁.stances = s.stances := by
      have ha := arguments_read h.reads ha
      refine ⟨?_, ha.stances⟩
      cases ha with
      | arguments hk h _ => exact .of_kind hk (h.bare.moves.trans (.next _)) rfl
    split
    all_goals exact .spanFrom_bind (.pure (hs.lowers ha.1 ha.2))
  · exact .fail nofun
  · exact .pure trivial

theorem leftHandSide (h : Asking c r r' K m o) (hs : o.Stage g s) (hK : g.Operands K) :
    Alike c s (leftHandSide r) (Parse.leftHandSide r') := by
  refine .state_bind (.bind (.repeatFrom (o.Stage g) hs (h.rest_lt hs) fun _ _ hs => newRound hs)
    fun found s₁ hn => ?_)
  have hn := newRounds_read (rounds_of_repeatFrom hn)
  obtain ⟨news, target⟩ := found
  have rest (callee : Position) (operand : Expr) {t : ParseState} (ht : o.Ahead g t) : Alike c t
      (do
        let chain ← Parse.repeatFrom ⟨operand, news⟩ (Parse.memberRound r s.start callee)
        let stop := (← Parse.state).lastEnd
        Pure.pure (chain.news.foldl (fun e new => NodeAlgebra.tree.construct ⟨new, stop⟩ e none)
          chain.expression))
      (do
        let chain ← Parse.repeatFrom ⟨operand, news⟩ (Parse.memberRound r' s.start callee)
        let stop := (← Parse.state).lastEnd
        Pure.pure (chain.news.foldl (fun e new => NodeAlgebra.tree.construct ⟨new, stop⟩ e none)
          chain.expression)) :=
    .bind (.repeatFrom (o.Ahead g) ht (h.rest_lt ht.toStage) fun _ _ hs =>
      h.memberRound hs hK.assignment) fun _ _ _ =>
      .state_bind (.pure trivial)
  refine .state_bind ?_
  cases target with
  | some target =>
    obtain ⟨he, -⟩ | hc := hn.consumes
    · cases he
    · exact rest _ _ (hs.consumed hc hn.stances)
  | none =>
    have h₁ := hs.onward (.behind hn.bare hn.stances)
    refine .state_bind (.ite (fun hk => Alike.superExpression.bind fun e s₂ he => ?_) fun hk => ?_)
    · have he : Reading .tree True c .head s₁ e s₂ := .superHead (by simpa using hk) he
      exact rest _ _ (h₁.consumed he.consumes he.stances)
    · refine (h.primary h₁ hK).bind fun e s₂ he => ?_
      have he := primary_read h.reads he
      exact rest _ _ (h₁.consumed he.consumes he.stances)

end EcmaFront.Parse.Asking
