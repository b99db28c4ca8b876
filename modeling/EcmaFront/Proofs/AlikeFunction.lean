import EcmaFront.Proofs.AlikeStep
import EcmaFront.Proofs.Asking
import EcmaFront.Proofs.StrictFlags

/-!
Lists of statements, parameters and functions come to the same end by two sets of rules, if the
phrases do that they ask for.
-/

set_option autoImplicit false

namespace EcmaFront.Parse.Asking

variable {c : ParseContext} {r r' : Rules .tree} {K : Phrase → Ground → Prop} {m : Nat}
  {o s t t' : ParseState} {g : Ground} {close : TokenKind}

/-! Lists of statements. -/

theorem itemsUntil {close : TokenKind → Bool} (h : Asking c r r' K m o) (hs : o.Ahead g s)
    (hK : K .item g) :
    Alike c s (itemsUntil r close) (Parse.itemsUntil r' close) := by
  refine .repeatFrom (o.Ahead g) hs (h.rest_lt hs.toStage) fun items s hs => ?_
  refine .state_bind (.ite (fun _ => .pure trivial) fun _ =>
    .ite (fun _ => .unexpected) fun _ => ?_)
  refine (h.item hs hK).bind fun a s₁ ha => .pure ?_
  exact hs.lowers (h.reads.item ha).consumes (h.reads.item ha).stances

theorem block (h : Asking c r r' K m o) (hs : o.Stage g s) (hK : K .item g.block) :
    Alike c s (block r) (Parse.block r') := by
  refine .state_bind (.expect_bind fun hk => .modifyScopes_bind ?_)
  refine (h.itemsUntil (hs.advance_of hk rfl).pushBlock hK).bind fun _ _ _ =>
    Alike.expect.bind fun _ _ _ => ?_
  exact Alike.ask.bind fun _ _ _ => .spanFrom_bind (.pure trivial)

/-- A round of a list stands here: the list has turned strict, or may still turn. -/
structure Listed (s t : ParseState) : Prop where
  moves : s.Moves t
  stances : t.stances = s.stances
  turns : t.strict = true ∨ t.InFunction

/-- What is left to read of a list that may turn strict and be read again. -/
def bodyLeft (s t : ParseState) : Nat := t.sight.rest + if t.strict then 0 else s.sight.rest + 1

theorem listed_item {scan : BodyScan Stmt} {a : Stmt} (hs : s.sight.Settled) (ht : Listed s t)
    (hi : Reading .tree True c .item t a t') :
    Alike.LowersBy (α := List Stmt) (bodyLeft s) (Listed s) t (.again scan) t' := by
  refine ⟨⟨ht.moves.trans hi.consumes.moves, Eq.trans hi.stances ht.stances, ?_⟩, ?_⟩
  · rw [hi.strict_item]
    exact ht.turns.imp_right (Reading.inFunction hi.bare.outline)
  · have hp := hi.consumes.rest_lt (hs.moves ht.moves)
    rw [bodyLeft, bodyLeft, hi.strict_item]
    exact Nat.add_lt_add_right hp _

theorem listed_restart {scan : BodyScan Stmt} {a : Stmt} {offset : Nat} {directive : Extent}
    {t₁ t₂ : ParseState} (hs : s.sight.Settled) (ht : Listed s t)
    (hi : Reading .tree True c .item t a t₁) (hn : t₁.strict = false)
    (he : enableStrict directive c t₁ = (.ok (), t₂)) :
    Alike.LowersBy (α := List Stmt) (bodyLeft s) (Listed s) t (.again scan)
      (t₂.restart offset s.checkpoint) := by
  have hl : t.strict = false := hi.strict_item.symm.trans hn
  have hf : t.InFunction := ht.turns.resolve_left (by simp [hl])
  obtain ⟨ht₂, -, hx⟩ := strict_of_enableStrict he (Reading.inFunction hi.bare.outline hf)
  have hst : t₂.stances = s.stances :=
    (stances_enableStrict he).trans (Eq.trans hi.stances ht.stances)
  have hd : s.checkpoint.depth = t₂.stances.length :=
    (Scopes.length_stances _).symm.trans (congrArg _ hst.symm)
  have hm : s.Moves (t₂.restart offset s.checkpoint) :=
    @ParseState.Moves.backtrack s (t₂.record _)
      ((congrArg Lexer.view hx).trans (ht.moves.trans hi.consumes.moves).view)
  have ht₃ : (t₂.restart offset s.checkpoint).strict = true :=
    (congrArg Scopes.strict (Scopes.truncate_of_stances (congrArg _ hst))).trans ht₂
  refine ⟨⟨hm, (ParseState.stances_restart offset hd).trans hst, .inl ht₃⟩, ?_⟩
  have hr := hs.rest_moves hm
  rw [bodyLeft, bodyLeft, ht₃, hl]
  simp only [if_true, Bool.false_eq_true, if_false]
  omega

theorem body (h : Asking c r r' K m o) (hs : o.Stage g s)
    (ho : o.sight.position < s.sight.position ∨ 3 < m) (hf : s.InFunction) (hK : K .item g) :
    Alike c s (body r close) (Parse.body r' close) := by
  refine .state_bind (.repeatLowering (bodyLeft s) (Listed s) ⟨.of_sight rfl, rfl, .inr hf⟩ ?_
    fun scan t ht => ?_)
  · have hr := h.rest_le hs
    unfold bodyLeft
    split <;> omega
  have hst : o.Stage g t := hs.onward ⟨ht.moves, [], by rw [ht.stances, Frame.Stance.takes_nil]⟩
  have hi : Alike c t r.item r'.item :=
    h.asks hst (ho.imp_left fun hp => Nat.lt_of_lt_of_le hp (hs.position_le ht.moves)) hK
  refine .state_bind (.ite (fun _ => .pure trivial) fun _ => .ite (fun _ => .unexpected) fun _ =>
    .ite (fun _ => ?_) fun _ => ?_)
  · refine hi.bind fun a t₁ ha => .ite (fun _ => .pure (listed_item hs.now ht (h.reads.item ha)))
      fun _ => ?_
    refine .state_bind (.ite (fun hn => ?_) fun _ =>
      .pure (listed_item hs.now ht (h.reads.item ha)))
    simp only [Bool.and_eq_true, Bool.not_eq_true'] at hn
    refine Alike.enableStrict.bind fun _ t₂ he => .emit_bind (.modify_bind (.pure ?_))
    exact listed_restart hs.now ht (h.reads.item ha) hn.2 he
  · exact hi.bind fun a t₁ ha => .pure (listed_item hs.now ht (h.reads.item ha))

/-! Parameters and functions. -/

theorem bindingPattern {form : BindingForm} (h : Asking c r r' K m o) (hs : o.Ahead g s)
    (hK : K (.pattern form) g) :
    Alike c s (bindingPattern r form) (Parse.bindingPattern r' form) := by
  refine (h.pattern hs hK).bind fun found _ _ => ?_
  cases found with
  | none => exact .unexpected
  | some p => exact .pure trivial

theorem parameterTarget (h : Asking c r r' K m o) (hs : o.Ahead g s) (hK : g.Functions K) :
    Alike c s (parameterTarget r) (Parse.parameterTarget r') := by
  refine .state_bind (.ite (fun _ => .bindingName) fun _ => .ite (fun _ => .modify_bind ?_)
    fun _ => .unexpected)
  exact h.bindingPattern (hs.onward (.still rfl rfl)) (hK _ nofun)

theorem parameterRound (h : Asking c r r' K m o) (hs : o.Ahead g s) (hK : g.Functions K)
    {parameters : List (Parameter Expr Pat)} :
    Alike c s (parameterRound r parameters) (Parse.parameterRound r' parameters)
      (Alike.Lowers (o.Ahead g) s) := by
  refine .state_bind (.ite (fun _ => .pure trivial) fun _ =>
    .consume_bind (fun _ => .modify_bind ?_) fun _ => ?_)
  · refine (h.parameterTarget (hs.next.onward (.still (by rfl) (by rfl))) hK).bind fun _ _ _ => ?_
    refine .state_bind (.ite (fun _ => .fail nofun) fun _ => ?_)
    exact .spanFrom_bind (.pure trivial)
  · refine (h.parameterTarget hs hK).bind fun target s₁ ht => ?_
    have ht := parameterTarget_read h.reads ht
    have h₁ : s.Onward s₁ := .taking (ht.bare).1 ht.stances
    extract_lets rest
    have hr {t : ParseState} {default : Option Expr} (ho : s₁.Onward t) :
        Alike c t (rest default) (rest default) (Alike.Lowers (o.Ahead g) s) :=
      .spanFrom_bind (comma hs (h₁.trans ho) _ _)
    have h₂ : s₁.Onward s₁.next.noteRich := .trans (.next s₁) (.still rfl rfl)
    have ha := h.assignment (hs.onward (h₁.trans h₂)) (hK _ nofun)
    refine .consume_bind (fun _ => .modify_bind (.bind ha.map ?_)) fun _ => hr (.still rfl rfl)
    intro default s₂ hd
    obtain ⟨e, he, -⟩ := map_ok.1 hd
    have he := h.reads.assignment he
    exact hr (h₂.trans (.behind he.bare he.stances))

theorem parameters (h : Asking c r r' K m o) (hs : o.Stage g s) (hK : g.Functions K)
    {header : FunctionHeader} :
    Alike c s (parameters r header) (Parse.parameters r' header) := by
  refine .state_bind (.ite (fun _ => Alike.bindingName.bind fun _ _ _ =>
    .spanFrom_bind (.pure trivial)) fun _ => ?_)
  refine .expect_bind fun hk => .bind ?_ fun _ _ _ => Alike.expect.bind fun _ _ _ => .pure trivial
  exact .repeatFrom (o.Ahead g) (hs.advance_of hk rfl)
    (h.rest_lt (hs.advance_of hk rfl).toStage) fun _ _ hs =>
    h.parameterRound hs hK

theorem functionBody (h : Asking c r r' K m o) (hs : o.Ahead g s) (hf : s.InFunction)
    (hK : g.Functions K) {header : FunctionHeader} {outerIn : Bool} :
    Alike c s (functionBody r header outerIn) (Parse.functionBody r' header outerIn) := by
  refine .state_bind (.ite (fun _ => .next_bind ?_) fun _ => .ite (fun _ => ?_)
    fun _ => .unexpected)
  · have hn : s.next.InFunction := Reading.inFunction rfl hf
    refine (h.body hs.next.toStage (.inl hs.next.ahead) hn (hK _ nofun)).bind fun _ _ _ => ?_
    exact Alike.ask.bind fun _ _ _ => .next_bind (.pure trivial)
  · refine (Alike.allowingIn (h.assignment (hs.allow outerIn) (hK _ nofun))).bind fun _ _ _ => ?_
    exact Alike.ask.bind fun _ _ _ => .pure trivial

theorem functionInside (h : Asking c r r' K m o) (hs : o.Stage g s) (hf : s.InFunction)
    (hK : g.Functions K) {start : Position} {header : FunctionHeader} {outerIn : Bool} :
    Alike c s (functionInside r start header outerIn)
      (Parse.functionInside r' start header outerIn) := by
  refine .state_bind ((h.parameters hs hK).bind fun ps s₁ hp => Alike.checkParameters.bind
    fun _ s₂ hc => ?_)
  obtain ⟨rfl, -⟩ := checkParameters_ok hc
  have hp := parameters_read h.reads hp
  have hl := hp.bare.1
  have h₁ : o.Ahead g s₂ := hs.taking hp.consumes hp.stances
  have hb {t : ParseState} (ht : s₂.Onward t) (hb : t.scopes.outline = s₂.scopes.outline) :
      Alike c t (Parse.functionBody r header outerIn) (Parse.functionBody r' header outerIn) :=
    h.functionBody (h₁.onward ht) (Reading.inFunction (hb.trans hl.outline) hf) hK
  refine .ite (fun hf => Alike.consumeArrow.bind fun _ s₃ ha => ?_) fun _ => ?_
  · have ha : (if header.form == .arrow then consumeArrow else pure ()) c s₂ =
        (.ok (), s₃) := by rwa [if_pos hf]
    have ho := Walk.arrow (w := Walk.bare c) ha
    exact .state_bind ((hb (.behind ho (stances_arrow ha)) ho.outline).bind fun _ _ _ =>
      .state_bind (.pure trivial))
  · exact .state_bind ((hb (.still rfl rfl) rfl).bind fun _ _ _ => .state_bind (.pure trivial))

theorem functionParts (h : Asking c r r' K m o) (hs : o.Stage g s) (hK : g.function.Functions K)
    {start : Position} {header : FunctionHeader} :
    Alike c s (functionParts r start header) (Parse.functionParts r' start header) := by
  have hi : o.Stage g.function (s.enter header) :=
    hs.move rfl (by rw [ParseState.ground_enter, hs.ground]) (List.cons_ne_nil _ _)
  refine .state_bind (.modify_bind (.always ?_))
  exact h.functionInside hi (Walk.inFunction_enter s header) hK

theorem functionNode (h : Asking c r r' K m o) (hs : o.Stage g s) (hK : g.Operands K)
    {start : Position} {header : FunctionHeader} :
    Alike c s (functionNode r start header) (Parse.functionNode r' start header) :=
  (h.functionParts hs hK.function).bind fun _ _ _ => Alike.recordFunction.bind
    fun _ _ _ => .pure trivial

theorem functionExpression (h : Asking c r r' K m o) (hs : o.Stage g s) (hk : s.kind.isSolid = true)
    (hK : g.Operands K) :
    Alike c s (functionExpression r) (Parse.functionExpression r') := by
  have h₁ := hs.advance hk
  refine .state_bind (.next_bind (.state_bind (.ite (fun _ => .next_bind ?_) fun _ => ?_)))
  · exact h.functionNode h₁.next.toStage hK
  · exact h.functionNode h₁.toStage hK

theorem arrowFunction (h : Asking c r r' K m o) (hs : o.Stage g s) (hK : g.Operands K)
    {start : Position} :
    Alike c s (arrowFunction r start) (Parse.arrowFunction r' start) := h.functionNode hs hK

theorem functionDeclaration (h : Asking c r r' K m o) (hs : o.Stage g s)
    (hk : s.kind.isSolid = true) (hK : g.Operands K) :
    Alike c s (functionDeclaration r) (Parse.functionDeclaration r') := by
  have h₁ := hs.advance hk
  refine .state_bind (.next_bind (.state_bind (.ite (fun _ => .unexpected) fun _ => ?_)))
  refine Alike.ask.bind fun conflicts s₁ hd => ?_
  split
  · next hn => exact .failAt (isFault_of_functionNameFault? hn).ne_exhausted
  · next hn =>
    have h₂ : o.Ahead g s₁ :=
      h₁.behind (Walk.declaresFunction (w := Walk.bare c) hd hn) (stances_declaring hd)
    refine .next_bind ((h.functionParts h₂.next.toStage hK.function).bind fun _ _ _ => ?_)
    exact Alike.recordFunction.bind fun _ _ _ => .pure trivial

end EcmaFront.Parse.Asking
