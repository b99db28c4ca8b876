import EcmaFront.Grammar.Declaration
import EcmaFront.Proofs.AlikePattern
import EcmaFront.Proofs.ReadStatement

/-!
Operations and variable declarations come to the same end by two sets of rules, if the phrases do
that they ask for.
-/

set_option autoImplicit false

namespace EcmaFront

namespace Parse.Asking

variable {c : ParseContext} {r r' : Rules .tree} {K : Phrase → Ground → Prop} {m : Nat}
  {o s t t' : ParseState} {g : Ground} {accept : ParseState → Bool}

theorem assignmentPattern? (h : Asking c r r' K m o)
    (ha : ∀ s j, accept (s.withJournal j) = accept s) (hs : o.Stage g s)
    (ho : o.sight.position < s.sight.position ∨ 0 < m) (hK : K (.pattern .assignment) g) :
    Alike c s (assignmentPattern? r accept) (Parse.assignmentPattern? r' accept) := by
  refine .state_bind (.ite (fun _ => .pure trivial) fun hk => ?_)
  refine (Alike.followsBrackets hs.now (h.rest_lt hs)).bind fun found s₁ hf =>
    .ite (fun _ => .pure trivial) fun _ => ?_
  have hg : s.Onward s₁ := .glance (followsBrackets_glances ha hf)
  have hp : Alike c s₁ (r.pattern .assignment) (r'.pattern .assignment) :=
    h.asks (hs.onward hg) (ho.imp_left fun hp => Nat.lt_of_lt_of_le hp (hs.position_le hg.moves)) hK
  refine .state_bind (hp.attempt.bind fun _ _ _ =>
    .state_bind (.ite (fun _ => ?_) fun _ => .modify_bind (.pure trivial)))
  exact Alike.commitWrites.bind fun _ _ _ => .pure trivial

/-! Operations. -/

theorem postfixExpression (h : Asking c r r' K m o) (hs : o.Stage g s) (hK : g.Operands K) :
    Alike c s (postfixExpression r) (Parse.postfixExpression r') := by
  refine .state_bind ((h.leftHandSide hs hK).bind fun _ _ _ => .state_bind ?_)
  split
  · exact .pure trivial
  · refine .ite (fun _ => .pure trivial) fun _ =>
      .ite (fun _ => Alike.noteAssignment.bind fun _ _ _ => ?_) fun _ => .failAt nofun
    exact .next_bind (.spanFrom_bind (.pure trivial))

theorem onward_leading {acc operators : List Leading}
    (h : Rounds leadingRound c acc s operators t) : s.Onward t := by
  induction h with
  | done h =>
    simp [leadingRound] at h
    obtain ⟨-, -, rfl⟩ := h
    exact .still rfl rfl
  | again h _ ih =>
    simp [leadingRound] at h
    obtain ⟨-, -, rfl⟩ := h
    exact .trans (.next _) ih

theorem unaryExpression (h : Asking c r r' K m o) (hs : o.Stage g s) (hK : g.Operands K) :
    Alike c s (unaryExpression r) (Parse.unaryExpression r') := by
  refine .bind (.repeatFrom (o.Stage g) hs (h.rest_lt hs) fun operators s hs => ?_)
    fun operators s₁ ho => ?_
  · refine .state_bind (.ite (fun hk => .next_bind (.pure ?_)) fun _ => .pure trivial)
    have hk := TokenKind.isSolid_of_isUnary hk
    exact ⟨(hs.advance hk).toStage,
      ParseState.Consumes.rest_lt (.of_kind rfl (.of_sight rfl) hk) hs.now⟩
  · have h₁ := hs.onward (onward_leading (rounds_of_repeatFrom ho))
    exact .state_bind ((h.postfixExpression h₁ hK).bind fun _ _ _ => Alike.applyAll _)

theorem placedOperand (h : Asking c r r' K m o) (hs : o.Stage g s) (hK : g.Operands K) :
    Alike c s (placedOperand r) (Parse.placedOperand r') :=
  .state_bind ((h.unaryExpression hs hK).bind fun _ _ _ => .spanFrom_bind (.pure trivial))

theorem binaryRound (h : Asking c r r' K m o) (hs : o.Ahead g s) (hK : g.Operands K)
    {scan : BinaryScan Expr} :
    Alike c s (binaryRound r scan) (Parse.binaryRound r' scan) (Alike.Lowers (o.Ahead g) s) := by
  refine .state_bind ?_
  dsimp only
  split
  · exact .pure trivial
  · next op hop =>
    have hk : s.kind.isSolid = true := by
      split at hop
      · cases hop
      · exact TokenKind.isSolid_of_binaryOp hop
    refine .next_bind ((h.placedOperand hs.next.toStage hK).bind fun e s₁ he => .pure ?_)
    have he := placedOperand_read h.reads he
    exact hs.lowers_from rfl (.behind he.bare he.stances) hk

theorem binaryExpression (h : Asking c r r' K m o) (hs : o.Stage g s) (hK : g.Operands K) :
    Alike c s (binaryExpression r) (Parse.binaryExpression r') := by
  refine (h.placedOperand hs hK).bind fun e s₁ he => ?_
  have he := placedOperand_read h.reads he
  have h₁ := hs.consumed he.consumes he.stances
  exact .repeatFrom (o.Ahead g) h₁ (h.rest_lt h₁.toStage) fun _ _ hs => h.binaryRound hs hK

theorem conditionalExpression (h : Asking c r r' K m o) (hs : o.Stage g s) (hK : g.Operands K) :
    Alike c s (conditionalExpression r) (Parse.conditionalExpression r') := by
  refine .state_bind ((h.binaryExpression hs hK).bind fun test s₁ ht => .consume_bind (fun hk => ?_)
    fun _ => .pure trivial)
  have ht := binaryExpression_read h.reads ht
  have h₁ := (hs.consumed ht.consumes ht.stances).next
  refine .bind (.allowingIn (h.assignment (h₁.allow true) hK.assignment)) fun e s₂ he =>
    .expect_bind fun _ => ?_
  obtain ⟨s₂, he', rfl⟩ := allowingIn_ok.1 he
  have he := h.reads.assignment he'
  have h₂ := (((h₁.allow true).behind he.bare he.stances).allow s₁.next.allowsIn).next
  exact (h.assignment h₂ hK.assignment).bind fun _ _ _ => .spanFrom_bind (.pure trivial)

theorem plainAssignment (h : Asking c r r' K m o) (hs : o.Stage g s) (hK : g.Operands K) :
    Alike c s (plainAssignment r) (Parse.plainAssignment r') := by
  refine .state_bind ((h.conditionalExpression hs hK).bind fun target s₁ ht => .state_bind ?_)
  have ht := conditionalExpression_read h.reads ht
  split
  · exact .pure trivial
  · refine .ite (fun _ => Alike.noteAssignment.bind fun _ s₂ hn => .next_bind ?_)
      fun _ => .failAt nofun
    have h₂ := (hs.consumed ht.consumes ht.stances).behind
      (Walk.noteAssignment (w := Walk.bare c) hn)
      (stances_noteAssignment hn)
    exact (h.assignment h₂.next hK.assignment).bind fun _ _ _ => .spanFrom_bind (.pure trivial)

theorem ofAssignment (h : Asking c r r' K m o) (hs : o.Stage g s.deeper) (hm : 0 < m)
    (hK : g.Operands K) :
    Alike c s (assignmentExpression r) (Parse.assignmentExpression r') := by
  refine .nested (.state_bind ((Alike.atArrowFunction hs.now (h.rest_lt hs)).bind
    fun b s₁ ha => ?_))
  have h₁ := hs.onward (.glance (atArrowFunction_glances ha))
  refine .ite (fun _ => h.arrowFunction h₁ hK) fun _ => ?_
  refine (h.assignmentPattern? (fun _ _ => rfl) h₁ (.inr hm) (hK.pattern _ nofun)).bind
    fun found s₂ ht => ?_
  have ht := assignmentPattern?_read h.reads ht
  have h₂ := h₁.onward (.behind (ht.bare fun _ _ => rfl) (ht.stances fun _ _ => rfl))
  cases found with
  | none => exact h.plainAssignment h₂ hK
  | some target =>
    obtain ⟨-, t, ha, ht⟩ := ht.accepted
    have hk : s₂.kind = .equal := (congrArg Token.kind ht).trans (beq_iff_eq.1 ha)
    exact .next_bind ((h.assignment (h₂.advance_of hk rfl) hK.assignment).bind fun _ _ _ =>
      .spanFrom_bind (.pure trivial))

/-! Variable declarations. -/

theorem declarator (h : Asking c r r' K m o) (hs : o.Ahead g s) (hK : g.Operands K)
    {kind : VariableKind} {inHead : Bool} {list : DeclarationList .tree} :
    Alike c s (declarator r kind inHead list) (Parse.declarator r' kind inHead list) := by
  have ht : Alike c s (declaratorTarget r kind) (Parse.declaratorTarget r' kind) :=
    .state_bind (.ite (fun _ => h.bindingPattern hs (hK.pattern _ nofun)) fun _ => .bindingName)
  refine .state_bind (ht.bind fun target s₁ ht => Alike.ask.bind fun names s₂ hn =>
    .consume_bind (fun hk => ?_) fun _ => ?_)
  · have ht := declaratorTarget_read h.reads ht
    have h₁ := hs.behind ht.bare ht.stances
    have h₂ := h₁.behind (Walk.takeBoundNames (w := Walk.bare c) hn) (stances_takeBoundNames hn)
    refine Alike.modifyScopes.bind fun _ s₃ hw => ?_
    have h₃ := h₂.next.behind (Walk.writeNames (w := Walk.bare c) hw) (stances_writeNames hw)
    exact (h.assignment h₃ hK.assignment).bind fun _ _ _ => .spanFrom_bind (.pure trivial)
  · refine .ite nofun fun _ => .ite (fun _ => .fail nofun) fun _ => ?_
    exact .spanFrom_bind (.pure trivial)

theorem declarationList (h : Asking c r r' K m o) (hs : o.Ahead g s) (hK : g.Operands K)
    {kind : VariableKind} {inHead : Bool} :
    Alike c s (declarationList r kind inHead) (Parse.declarationList r' kind inHead) := by
  refine .repeatFrom (o.Ahead g) hs (h.rest_lt hs.toStage) fun list s hs =>
    (h.declarator hs hK).bind fun _ s₁ hd => ?_
  obtain ⟨d, missing, -, hd⟩ := declarator_read h.reads hd
  exact comma hs (.behind hd.bare hd.stances) _ _

theorem variableStatement (h : Asking c r r' K m o) (hs : o.Ahead g s.next) (hK : g.Operands K)
    {kind : VariableKind} :
    Alike c s (variableStatement r kind) (Parse.variableStatement r' kind) :=
  .state_bind (.next_bind ((h.declarationList hs hK).bind fun _ _ _ =>
    Alike.consumeSemicolon.bind fun _ _ _ =>
    .spanFrom_bind (.pure trivial)))

end Parse.Asking

end EcmaFront
