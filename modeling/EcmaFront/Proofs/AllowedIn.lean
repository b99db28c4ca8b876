import EcmaFront.Proofs.Frames
import EcmaFront.Proofs.Reading

/-!
Whether `in` is an operator. What takes it for another thing lets go of it again, so that this does
not depend on what was read before a place of the text.
-/

set_option autoImplicit false

namespace EcmaFront

namespace ParseState

variable (s : ParseState)

@[simp] theorem allowsIn_readRegexp : s.readRegexp.allowsIn = s.allowsIn := rfl

@[simp] theorem allowsIn_deeper : s.deeper.allowsIn = s.allowsIn := rfl

@[simp] theorem allowsIn_shallower : s.shallower.allowsIn = s.allowsIn := rfl

@[simp] theorem allowsIn_allow (allowed : Bool) : (s.allow allowed).allowsIn = allowed := rfl

@[simp] theorem allowsIn_onScopes (change : Scopes → Scopes) :
    (s.onScopes change).allowsIn = s.allowsIn := rfl

@[simp] theorem allowsIn_noteRich : s.noteRich.allowsIn = s.allowsIn := rfl

@[simp] theorem allowsIn_enter (h : Parse.FunctionHeader) : (s.enter h).allowsIn = true := rfl

@[simp] theorem allowsIn_leaveTo (outer : ParseState) :
    (s.leaveTo outer).allowsIn = outer.allowsIn := rfl

@[simp] theorem allowsIn_noteAccessor (names : PropertyNames) :
    (s.noteAccessor names).allowsIn = s.allowsIn := by
  unfold noteAccessor
  split <;> rfl

@[simp] theorem allowsIn_awaitWrite (name? : Option String) (extent : Extent) :
    (s.awaitWrite name? extent).allowsIn = s.allowsIn := by
  cases name? <;> rfl

@[simp] theorem allowsIn_restart (directive : Nat) (start : Checkpoint) :
    (s.restart directive start).allowsIn = start.allowsIn := rfl

@[simp] theorem allowsIn_backtrack (point : Checkpoint) :
    (s.backtrack point).allowsIn = point.allowsIn := rfl

end ParseState

namespace Parse

variable {α β : Type}

/-- The step leaves what `in` is taken for as it is. -/
structure KeepsIn (p : Parse α) : Prop where
  run : ∀ {c s a s'}, p c s = (.ok a, s') → s'.allowsIn = s.allowsIn

namespace KeepsIn

variable {p q : Parse α} {B : NodeAlgebra}

theorem pure (a : α) : KeepsIn (pure a) := ⟨fun h => by
  obtain ⟨-, rfl⟩ := pure_ok.1 h
  rfl⟩

theorem fail (cause : Cause) : KeepsIn (fail cause : Parse α) := ⟨fun h => by simp at h⟩

theorem failAt (cause : Cause) (extent : Extent) : KeepsIn (failAt cause extent : Parse α) :=
  ⟨fun h => by simp at h⟩

theorem unexpected : KeepsIn (unexpected : Parse α) := ⟨fun h => by simp at h⟩

theorem bind {f : α → Parse β} (h : KeepsIn p) (hf : ∀ a, KeepsIn (f a)) : KeepsIn (p >>= f) :=
  ⟨fun hr => by
  obtain ⟨a, s₁, hp, hr⟩ := bind_ok.1 hr
  exact ((hf a).run hr).trans (h.run hp)⟩

theorem state {f : ParseState → Parse β} (h : ∀ s, KeepsIn (f s)) : KeepsIn (state >>= f) :=
  ⟨fun hr => (h _).run hr⟩

theorem ite {P : Prop} [Decidable P] (h : KeepsIn p) (hq : KeepsIn q) :
    KeepsIn (if P then p else q) := by
  split
  · exact h
  · exact hq

theorem modify {change : ParseState → ParseState}
    (h : ∀ s, (change s).allowsIn = s.allowsIn) : KeepsIn (modify change) :=
  ⟨fun hr => by
    cases hr
    exact h _⟩

theorem ask {question : ParseState → α × ParseState}
    (h : ∀ s, (question s).2.allowsIn = s.allowsIn) : KeepsIn (ask question) :=
  ⟨fun hr => by
    cases hr
    exact h _⟩

theorem next : KeepsIn next := modify fun _ => rfl

theorem modifyScopes (change : Scopes → Scopes) : KeepsIn (modifyScopes change) :=
  modify fun _ => rfl

theorem consume (kind : TokenKind) : KeepsIn (consume kind) :=
  state fun _ => ite (bind next fun _ => pure _) (pure _)

theorem consumeSemicolon : KeepsIn consumeSemicolon :=
  bind (consume _) fun _ => ite (state fun _ => ite unexpected (pure _)) (pure _)

theorem spanFrom (start : Position) : KeepsIn (spanFrom start) := state fun _ => pure _

theorem declaring (declare : Scopes → Scopes × Conflicts) : KeepsIn (declaring declare) :=
  ask fun _ => rfl

theorem takeBoundNames (mark : Nat) : KeepsIn (takeBoundNames mark) := ask fun _ => rfl

theorem writeNames (names : List String) : KeepsIn (writeNames names) := modifyScopes _

theorem write (name : String) (extent : Extent) : KeepsIn (write name extent) :=
  state fun _ => ite (failAt _ _) (modifyScopes _)

theorem commitWrites (point : Checkpoint) : KeepsIn (commitWrites point) := by
  refine bind (ask fun _ => rfl) fun writes => ?_
  induction writes with
  | nil => exact pure _
  | cons first rest ih => exact bind (write _ _) fun _ => ih

theorem noteAssignment (target : B.Expression) (extent : Extent) :
    KeepsIn (noteAssignment B target extent) := by
  unfold Parse.noteAssignment
  split
  · exact write _ _
  · exact pure _

theorem declareBinding (form : BindingForm) (name : String) (extent : Extent) :
    KeepsIn (declareBinding form name extent) := by
  refine bind (declaring _) fun _ => state fun _ => ?_
  split
  · exact failAt _ _
  · split
    · exact modify fun _ => rfl
    · exact pure _

theorem bindName (form : BindingForm) (name : String) (start : Position) (extent : Extent) :
    KeepsIn (bindName B form name start extent) := by
  refine bind (spanFrom _) fun _ => ?_
  cases form with
  | assignment => exact bind (modifyScopes _) fun _ => bind (modify fun _ => rfl) fun _ => pure _
  | _ => exact bind (declareBinding _ _ _) fun _ => pure _

theorem bindingName (form : BindingForm) : KeepsIn (bindingName B form) :=
  state fun _ => ite (bind next fun _ => bindName _ _ _ _) unexpected

theorem jump (labelFault? : String → Option Label → Option Cause) (allowed : Scopes → Bool)
    (outside : Cause) (make : Span → Option String → B.Statement) :
    KeepsIn (jump labelFault? allowed outside make) := by
  have rest (s : ParseState) (label : Option String) : KeepsIn (do
      Parse.consumeSemicolon
      Pure.pure (make (← Parse.spanFrom s.start) label)) :=
    bind consumeSemicolon fun _ => bind (spanFrom _) fun _ => pure _
  refine state fun s => bind next fun _ => state fun t => ?_
  dsimp only
  split
  · split
    · exact bind (fail _) fun _ => rest s _
    · exact bind next fun _ => rest s _
  · exact ite (bind (failAt _ _) fun _ => rest s _) (rest s _)

theorem finishBlock : KeepsIn finishBlock := ask fun s => by
  split <;> rfl

theorem finishFunction : KeepsIn finishFunction := ask fun s => by
  split <;> rfl

theorem recordFunction {E S P : Type} (parts : FunctionParts E S P) :
    KeepsIn (recordFunction parts) :=
  ⟨fun h => by
    simp only [Parse.recordFunction, context_bind, ite_ok, emit_bind, modify_run, pure_ok,
      Prod.mk.injEq] at h
    obtain ⟨-, -, rfl⟩ | ⟨-, -, rfl⟩ := h <;> rfl⟩

theorem checkParameters {E P : Type} (h : FunctionHeader) (parameters : List (Parameter E P)) :
    KeepsIn (checkParameters h parameters) := by
  unfold Parse.checkParameters
  split
  · exact fail _
  · exact state fun _ => ite (fail _) (pure _)

theorem consumeArrow : KeepsIn consumeArrow := state fun _ => ite unexpected (ite (fail _) next)

theorem superExpression : KeepsIn (superExpression (B := B)) := by
  have rest {p : Parse Unit} (s : ParseState) (h : KeepsIn p) : KeepsIn (do
      p
      Pure.pure (B.super (← Parse.spanFrom s.start))) :=
    bind h fun _ => bind (spanFrom _) fun _ => pure _
  refine state fun s => bind next fun _ => state fun t => ?_
  dsimp only
  split
  case h_4 => exact rest s (failAt _ _)
  all_goals exact ite (rest s (modifyScopes _)) (rest s (failAt _ _))

theorem newTarget (new : ParseState) : KeepsIn (newTarget (B := B) new) :=
  state fun _ => ite unexpected
    (ite (bind next fun _ => bind (spanFrom _) fun _ => pure _) (failAt _ _))

theorem followsBrackets (accept : ParseState → Bool) : KeepsIn (followsBrackets accept) :=
  ⟨fun h => by
    simp only [Parse.followsBrackets, state_bind, bind_ok, modify_run, pure_ok, Prod.mk.injEq] at h
    obtain ⟨_, _, -, _, _, ⟨-, rfl⟩, -, rfl⟩ := h
    rfl⟩

end KeepsIn

end Parse

namespace ParseState

variable {c : ParseContext} {s s' : ParseState}

theorem Glances.allowsIn (h : s.Glances s') : s'.allowsIn = s.allowsIn := by
  cases h <;> rfl

theorem allowsIn_ends (h : Parse.Ends s s') : s'.allowsIn = s.allowsIn := by
  cases h <;> rfl

theorem allowsIn_colonFollows {found : Bool} (h : Parse.colonFollows c s = (.ok found, s')) :
    s'.allowsIn = s.allowsIn := by
  cases h
  rfl

theorem allowsIn_arrow {h : Parse.FunctionHeader}
    (ha : (if h.form == .arrow then Parse.consumeArrow else pure ()) c s = (.ok (), s')) :
    s'.allowsIn = s.allowsIn :=
  (Parse.KeepsIn.ite .consumeArrow (.pure _)).run ha

end ParseState

/-- What `in` is taken for at both ends of a reading is the same. A list that turns strict is read
again from its start. -/
def Nonterminal.AllowsIn {B : NodeAlgebra} : Nonterminal B → ParseState → ParseState → Prop
  | .body _ start, s, s' => start.allowsIn = s.allowsIn → s'.allowsIn = s.allowsIn
  | _, s, s' => s'.allowsIn = s.allowsIn

open Parse (KeepsIn) in
/-- By induction on the reading: where `in` is taken for another thing, this ends with the
phrase. -/
theorem Reading.allowsIn {B : NodeAlgebra} {P : Prop} {c : ParseContext} {g : Nonterminal B}
    {s s' : ParseState} {a : g.Result} (h : Reading B P c g s a s') : g.AllowsIn s s' := by
  induction h with
  | itemLet _ hl _ ih | itemLetName _ hl _ ih =>
    exact Eq.trans ih (Parse.atLetDeclaration_glances hl).allowsIn
  | doWhileStatement _ _ _ _ he ihb iht =>
    subst he
    split <;> exact Eq.trans iht ihb
  | continueStatement _ h | breakStatement _ h => exact (KeepsIn.jump _ _ _ _).run h
  | returnStatement _ _ _ he | debuggerStatement _ he =>
    exact (ParseState.allowsIn_ends he).trans (ParseState.allowsIn_next _)
  | returnValueStatement _ _ _ _ he ih | throwStatement _ _ _ he ih | expressionStatement _ _ he ih
  | variableStatement _ he ih => exact (ParseState.allowsIn_ends he).trans ih
  | switchStatement _ _ _ _ _ hf ihd ihc =>
    exact (KeepsIn.finishBlock.run hf).trans (Eq.trans ihc ihd)
  | letExpressionStatement _ hl _ he ih =>
    exact (ParseState.allowsIn_ends he).trans
      (Eq.trans ih (Parse.atLetDeclaration_glances hl).allowsIn)
  | labeledStatement _ hc _ _ hl _ ih =>
    have hn := ParseState.allowsIn_colonFollows hc
    exact Eq.trans ih ((Parse.labelsLoop_glances hl).allowsIn.trans hn)
  | nameStatement _ hc _ he ih =>
    exact (ParseState.allowsIn_ends he).trans (Eq.trans ih (ParseState.allowsIn_colonFollows hc))
  | functionDeclaration _ hd _ _ hr ih =>
    have hn := ((KeepsIn.declaring _).run hd).trans (ParseState.allowsIn_next _)
    exact ((KeepsIn.recordFunction _).run hr).trans (Eq.trans ih hn)
  | initializedDeclarator _ hn _ hw _ iht ihi =>
    have ht := ((KeepsIn.takeBoundNames _).run hn).trans iht
    exact Eq.trans ihi (((KeepsIn.writeNames _).run hw).trans ht)
  | bareDeclarator _ hn _ _ iht => exact ((KeepsIn.takeBoundNames _).run hn).trans iht
  | declaratorName _ h | catchName _ h | soleParameter _ _ h | parameterName _ h
  | patternName _ _ h =>
    exact (KeepsIn.bindingName _).run h
  | block _ _ _ hf ih => exact (KeepsIn.finishBlock.run hf).trans ih
  | declaringHead _ hh _ ih | assigningHead _ hh _ ih =>
    exact Eq.trans ih (Parse.headKind?_glances hh).allowsIn
  | expressionEach _ _ _ hw _ _ ih =>
    have hs := (KeepsIn.noteAssignment _ _).run hw
    exact Eq.trans ih hs
  | countedLoop _ _ _ _ _ _ hf iht ihu ihb =>
    exact (KeepsIn.finishBlock.run hf).trans (Eq.trans ihb (Eq.trans ihu iht))
  | forOf _ _ _ hf ihr ihb | forIn _ _ _ hf ihr ihb =>
    exact (KeepsIn.finishBlock.run hf).trans (Eq.trans ihb ihr)
  | catchClause _ _ _ _ _ _ hf ihp ih => exact (KeepsIn.finishBlock.run hf).trans (Eq.trans ih ihp)
  | arrowFunction ha _ ih => exact Eq.trans ih (Parse.atArrowFunction_glances ha).allowsIn
  | patternAssignment ha _ _ iht ihv =>
    exact Eq.trans ihv (Eq.trans iht (Parse.atArrowFunction_glances ha).allowsIn)
  | noPatternAssignment ha _ _ iht ih =>
    exact Eq.trans ih (Eq.trans iht (Parse.atArrowFunction_glances ha).allowsIn)
  | targetAssignment _ _ _ hw _ ih ihv =>
    exact Eq.trans ihv (((KeepsIn.noteAssignment _ _).run hw).trans ih)
  | noAttempt _ hf => exact (KeepsIn.followsBrackets _).run hf
  | givenUp _ _ hf =>
    exact Eq.trans (ParseState.allowsIn_backtrack _ _) ((KeepsIn.followsBrackets _).run hf)
  | attempt _ hf _ _ hw ih =>
    exact ((KeepsIn.commitWrites _).run hw).trans (Eq.trans ih ((KeepsIn.followsBrackets _).run hf))
  | prefixUpdate _ _ _ _ hw ih | postfixUpdate _ _ _ _ hw ih =>
    exact ((KeepsIn.noteAssignment _ _).run hw).trans ih
  | newTarget _ _ h => exact ((KeepsIn.newTarget _).run h).trans (ParseState.allowsIn_next _)
  | superHead _ h => exact KeepsIn.superExpression.run h
  | accessor _ ha _ _ _ ihx ih =>
    refine Eq.trans ih (Eq.trans ihx ?_)
    exact (ParseState.allowsIn_noteAccessor _ _).trans (Parse.accessor?_glances ha).allowsIn
  | dataProperty _ ha _ _ _ ihx ih =>
    exact Eq.trans ih (Eq.trans ihx (Parse.accessor?_glances ha).allowsIn)
  | functionNode _ hr ih => exact ((KeepsIn.recordFunction _).run hr).trans ih
  | functionInside _ hc ha _ ihp ihb =>
    have hp := ((KeepsIn.checkParameters _ _).run hc).trans ihp
    exact Eq.trans ihb ((ParseState.allowsIn_arrow ha).trans hp)
  | blockBody _ _ hf ih => exact (KeepsIn.finishFunction.run hf).trans (ih rfl)
  | expressionBody _ _ _ hf =>
    have hs := KeepsIn.finishFunction.run hf
    exact hs
  | shorthandTarget _ h => exact (KeepsIn.bindName _ _ _ _).run h
  | _ => simp_all [Nonterminal.AllowsIn]

end EcmaFront
