import EcmaFront.Proofs.Agreement

/-!
Statement lists, functions and their parameters agree in two algebras if the phrases inside do.
-/

set_option autoImplicit false

namespace EcmaFront

/-- Where a pattern of the form may stand: one that declares names, inside a frame. -/
def BindingForm.place : BindingForm → Nat → Prop
  | .assignment => Anywhere
  | _ => Inside

structure RulesAgree {A B : NodeAlgebra} (φ : NodeAlgebra.Hom A B) (I : Invariant) (r : Rules A)
    (r' : Rules B) : Prop where
  item : Agrees I Inside 0 0 φ.ofStatement r.item r'.item
  statement : Agrees I Inside 0 0 φ.ofStatement r.statement r'.statement
  assignment : Agrees I Anywhere 0 0 φ.ofExpression r.assignment r'.assignment
  pattern : ∀ form, Agrees I form.place 0 0 (Option.map φ.ofPattern) (r.pattern form)
    (r'.pattern form)

namespace Agrees

open Parse

variable {A B : NodeAlgebra} {φ : NodeAlgebra.Hom A B} {I : Invariant} {r : Rules A} {r' : Rules B}
  {D : Nat → Prop} {m n : Nat}

theorem deeper {α β : Type} {f : α → β} {p : Parse α} {q : Parse β}
    (h : Agrees I Inside 0 0 f p q) :
    Agrees I Inside m m f p q :=
  weaken h fun hd => Nat.add_pos_left hd m

theorem here {α β : Type} {f : α → β} {p : Parse α} {q : Parse β}
    (h : Agrees I Anywhere 0 0 f p q) :
    Agrees I D m m f p q :=
  weaken h fun _ => trivial

theorem noteAssignment (target : A.Expression) (extent : Extent) : Agrees I D m m id
    (noteAssignment A target extent) (noteAssignment B (φ.ofExpression target) extent) := by
  unfold Parse.noteAssignment
  rw [φ.name?]
  split
  · exact write _ _
  · exact pure rfl

theorem bindName (φ : NodeAlgebra.Hom A B) (form : BindingForm)
    (hD : ∀ {d}, D d → form.place (d + m)) (name : String) (start : Position) (extent : Extent) :
    Agrees I D m m φ.ofPattern (bindName A form name start extent)
      (bindName B form name start extent) := by
  refine bind (spanFrom start) fun span => ?_
  cases form with
  | assignment =>
    refine bind (scopes fun _ => I.use name) fun _ => ?_
    refine bind (quiet (fun _ => .await _) fun _ _ => rfl) fun _ => pure ?_
    rw [φ.ident, φ.target]
    rfl
  | _ => exact bind (weaken (declareBinding _ name extent) hD) fun _ => pure (φ.binding span name)

theorem bindingName (φ : NodeAlgebra.Hom A B) (form : BindingForm)
    (hD : ∀ {d}, D d → form.place (d + m)) :
    Agrees I D m m φ.ofPattern (bindingName A form) (bindingName B form) :=
  state fun _ _ => ite (bind next fun _ => bindName φ form hD _ _ _) unexpected

theorem bindingPattern (hr : RulesAgree φ I r r') (form : BindingForm)
    (hD : ∀ {d}, D d → form.place (d + m)) :
    Agrees I D m m φ.ofPattern (bindingPattern r form) (bindingPattern r' form) := by
  refine bind (weaken (hr.pattern form) hD) fun found => ?_
  cases found with
  | none => exact unexpected
  | some p => exact pure rfl

theorem enableStrict (hD : ∀ {d}, D d → 0 < d + m) (directive : Extent) :
    Agrees I D m m id (enableStrict directive) (enableStrict directive) := by
  refine state fun s j => ?_
  rw [show (s.withJournal j).scopes = s.scopes from rfl]
  split
  · exact pure rfl
  · refine ite (failAt _ _) (bind (scopes fun hd => I.strict (hD hd)) fun _ =>
      ite (failAt _ _) (pure rfl))

def onScan (f : A.Statement → B.Statement) (scan : BodyScan A.Statement) : BodyScan B.Statement :=
  ⟨scan.body.map f, scan.prologue⟩

theorem bodyRound (hr : RulesAgree φ I r r') (close : TokenKind) {s₀ : ParseState} {j₀ : Journal}
    {d : Nat} (hd : Inside d) (h₀ : I.holds d s₀ j₀) (scan : BodyScan A.Statement) :
    Agrees I (· = d) 0 0 (.map (onScan φ.ofStatement) (List.map φ.ofStatement))
      (bodyRound r close s₀.checkpoint scan)
        (bodyRound r' close s₀.checkpoint (onScan φ.ofStatement scan)) := by
  have hi : Agrees I (· = d) 0 0 φ.ofStatement r.item r'.item := weaken hr.item fun h => h ▸ hd
  refine state fun s j => ite (pure (by simp [Round.map, onScan])) (ite unexpected (ite ?_ ?_))
  · refine bind hi fun a => ?_
    rw [φ.isDirective]
    refine ite (pure rfl) (state fun s₁ _ => ite ?_ (pure rfl))
    refine bind (enableStrict (fun h => h ▸ hd) _) fun _ => ?_
    constructor
    intro c rec t k d' _ h ht
    exact .ok (I.restart s.token.extent.start (h ▸ h₀) ht)
  · exact bind hi fun a => pure rfl

theorem body (hr : RulesAgree φ I r r') (close : TokenKind) :
    Agrees I Inside m m (List.map φ.ofStatement) (body r close) (body r' close) := by
  refine deeper ?_
  constructor
  intro c rec s j d hrec hd hs
  exact (repeatFrom (x := ⟨[], true⟩) rfl (bodyRound hr close hd hs)).run hrec rfl hs

theorem itemsUntil (hr : RulesAgree φ I r r') (close : TokenKind → Bool) :
    Agrees I Inside m m (List.map φ.ofStatement) (itemsUntil r close) (itemsUntil r' close) := by
  refine repeatFrom (g := List.map φ.ofStatement) rfl fun items => state fun s _ =>
    ite (pure (by simp [Round.map])) ?_
  exact ite unexpected (bind (deeper hr.item) fun _ => pure rfl)

theorem pushBlock :
    Agrees I Inside m (m + 1) id (modifyScopes .pushBlock) (modifyScopes .pushBlock) :=
  scopes fun hd => I.pushBlock (Nat.add_pos_left hd m)

theorem finishBlock : Agrees I Inside (m + 1) m id finishBlock finishBlock := by
  constructor
  intro c rec s j d hrec hd hs
  have h := I.finishBlock (c := c) (Nat.add_pos_left hd m) hs
  revert h
  unfold Parse.finishBlock
  rw [ask_run, ask_run, show (s.withJournal j).scopes = s.scopes from rfl]
  cases s.scopes.top? <;> exact .ok

theorem block (hr : RulesAgree φ I r r') :
    Agrees I Inside m m φ.ofStatement (block r) (block r') := by
  refine state fun s _ => bind (expect _) fun _ => bind pushBlock fun _ => ?_
  refine bind (itemsUntil hr _) fun body => bind (expect _) fun _ =>
    bind finishBlock fun scope => ?_
  exact bind (spanFrom _) fun span => pure (φ.block ⟨span, body, scope⟩)

theorem noteRichParameters : Agrees I D m m id noteRichParameters noteRichParameters :=
  quiet (fun _ => .flags _ _ _ _) fun _ _ => rfl

theorem parameterTarget (hr : RulesAgree φ I r r') :
    Agrees I Inside m m φ.ofPattern (parameterTarget r) (parameterTarget r') := by
  have hD {d : Nat} (hd : Inside d) : BindingForm.parameter.place (d + m) := Nat.add_pos_left hd m
  refine state fun s _ => ite (bindingName φ _ hD)
    (ite (bind noteRichParameters fun _ => ?_) unexpected)
  exact bindingPattern hr _ hD

theorem parameterRound (hr : RulesAgree φ I r r') (acc : List (Parameter A.Expression A.Pattern)) :
    Agrees I Inside m m (.map (List.map (.map φ.ofExpression φ.ofPattern))
      (List.map (.map φ.ofExpression φ.ofPattern))) (parameterRound r acc)
      (parameterRound r' (acc.map (.map φ.ofExpression φ.ofPattern))) := by
  refine state fun s _ => ite (pure (by simp [Round.map])) (bind (consume _) fun _ => ite ?_ ?_)
  · refine bind noteRichParameters fun _ => bind (parameterTarget hr) fun p => state fun _ _ => ?_
    refine ite (fail _) (bind (spanFrom _) fun span => pure ?_)
    simp [Round.map, Parameter.map]
  · refine bind (parameterTarget hr) fun p => bind (consume _) fun _ => ite ?_ ?_
    · refine bind noteRichParameters fun _ => ?_
      refine bind (map (g := Option.map φ.ofExpression) (here hr.assignment) fun _ => rfl)
        fun default => ?_
      refine bind (spanFrom _) fun span => bind (consume _) fun _ => ite (pure rfl) (pure ?_)
      simp [Round.map, Parameter.map]
    · refine bind (pure (f := Option.map φ.ofExpression) rfl) fun default => ?_
      refine bind (spanFrom _) fun span => bind (consume _) fun _ => ite (pure rfl) (pure ?_)
      simp [Round.map, Parameter.map]

theorem checkParameters (h : FunctionHeader) (as : List (Parameter A.Expression A.Pattern)) :
    Agrees I D m m id (checkParameters h as)
      (checkParameters h (as.map (.map φ.ofExpression φ.ofPattern))) := by
  have ha : arityFault? h.mode (as.map (.map φ.ofExpression φ.ofPattern)) =
      arityFault? h.mode as := by
    unfold arityFault?
    rcases h.mode with _ | _ | _ | _ | _ | _ | _ <;> rcases as with _ | ⟨a, _ | ⟨b, as⟩⟩ <;> rfl
  unfold Parse.checkParameters
  rw [ha]
  split
  · exact fail _
  · exact state fun s _ => ite (fail _) (pure rfl)

theorem parameters (hr : RulesAgree φ I r r') (h : FunctionHeader) :
    Agrees I Inside m m (List.map (.map φ.ofExpression φ.ofPattern)) (parameters r h)
      (parameters r' h) := by
  refine state fun s _ => ite ?_ ?_
  · refine bind (bindingName φ _ fun hd => Nat.add_pos_left hd m) fun p => ?_
    exact bind (spanFrom _) fun span => pure rfl
  · refine bind (expect _) fun _ => bind (repeatFrom rfl (parameterRound hr)) fun as => ?_
    exact bind (expect _) fun _ => pure rfl

theorem consumeArrow : Agrees I D m m id consumeArrow consumeArrow :=
  state fun _ _ => ite unexpected (ite (fail _) next)

theorem finishFunction : Agrees I D (m + 1) m id finishFunction finishFunction := by
  constructor
  intro c rec s j d hrec hd hs
  have h := I.finishFunction (c := c) hs
  revert h
  unfold Parse.finishFunction
  rw [ask_run, ask_run, show (s.withJournal j).scopes = s.scopes from rfl]
  cases s.scopes.top? <;> exact .ok

theorem functionBody (hr : RulesAgree φ I r r') (h : FunctionHeader) (outerIn : Bool) :
    Agrees I D (m + 1) m (Prod.map (.map φ.ofExpression φ.ofStatement) id)
      (functionBody r h outerIn)
      (functionBody r' h outerIn) := by
  refine state fun s _ => ite ?_ (ite ?_ unexpected)
  · refine bind next fun _ => bind (weaken (body hr _) fun _ => Nat.succ_pos _) fun as => ?_
    exact bind finishFunction fun scope => bind next fun _ => pure rfl
  · refine bind (allowingIn (here hr.assignment)) fun e => ?_
    exact bind finishFunction fun scope => pure rfl

theorem functionInside (hr : RulesAgree φ I r r') (start : Position) (h : FunctionHeader)
    (outerIn : Bool) :
    Agrees I D (m + 1) m (.map φ.ofExpression φ.ofStatement φ.ofPattern)
      (functionInside r start h outerIn)
      (functionInside r' start h outerIn) := by
  have hp : Agrees I D (m + 1) (m + 1) (List.map (.map φ.ofExpression φ.ofPattern))
      (Parse.parameters r h)
      (Parse.parameters r' h) := weaken (parameters (m := 0) hr h) fun _ => Nat.succ_pos _
  refine state fun s _ => bind hp fun as => bind (checkParameters h as) fun _ => ite ?_ ?_
  · refine bind consumeArrow fun _ => state fun t _ =>
      bind (functionBody hr h outerIn) fun body => ?_
    exact state fun u _ => pure rfl
  · refine state fun t _ => bind (functionBody hr h outerIn) fun body => ?_
    exact state fun u _ => pure rfl

theorem recordFunction (parts : FunctionParts A.Expression A.Statement A.Pattern) :
    Agrees I D m m id (recordFunction parts)
      (recordFunction (parts.map φ.ofExpression φ.ofStatement φ.ofPattern)) := by
  constructor
  intro c r s j d hr _ hs
  have h := I.keep (.ofParts parts) hr hs
  cases hc : c.recording <;> cases r <;>
    simp only [hc, Journal.keep, Bool.false_eq_true, if_true, if_false] at h <;>
    simp only [Parse.recordFunction, context_bind, hc, Bool.false_eq_true, if_true, if_false] <;>
    exact .ok h

theorem functionParts (hr : RulesAgree φ I r r') (start : Position) (h : FunctionHeader) :
    Agrees I D m m (.map φ.ofExpression φ.ofStatement φ.ofPattern) (functionParts r start h)
      (functionParts r' start h) := by
  refine state fun outer _ => bind (f := id) (k := m + 1) ?_ fun _ =>
    always (functionInside hr start h _) (fun _ => .flags _ _ _ _) fun _ _ => rfl
  constructor
  intro c r s j d _ _ hs
  exact .ok (I.quiet (I.pushFunction h s.strict hs) (.flags _ _ _ _))

theorem functionNode (hr : RulesAgree φ I r r') (start : Position) (h : FunctionHeader) :
    Agrees I D m m φ.ofExpression (functionNode r start h) (functionNode r' start h) :=
  bind (functionParts hr start h) fun parts => bind (recordFunction parts) fun _ =>
    pure (φ.function parts)

theorem functionExpression (hr : RulesAgree φ I r r') :
    Agrees I D m m φ.ofExpression (functionExpression r) (functionExpression r') := by
  refine state fun s _ => bind next fun _ => state fun t _ => ite ?_ (functionNode hr _ _)
  exact bind next fun _ => functionNode hr _ _

theorem arrowFunction (hr : RulesAgree φ I r r') (start : Position) :
    Agrees I D m m φ.ofExpression (arrowFunction r start) (arrowFunction r' start) :=
  functionNode hr start _

theorem functionDeclaration (hr : RulesAgree φ I r r') :
    Agrees I Inside m m φ.ofStatement (functionDeclaration r) (functionDeclaration r') := by
  refine state fun s _ => bind next fun _ => state fun t k => ite unexpected ?_
  have hd := declaring (I := I) (m := m) t.token.text (.variable (functionNameKind t))
  refine bind hd fun conflicts => ?_
  rw [show (t.withJournal k).token = t.token from rfl,
    show (t.withJournal k).strict = t.strict from rfl]
  dsimp only [id]
  split
  · exact failAt _ _
  · refine bind next fun _ => bind (functionParts hr _ _) fun parts => ?_
    exact bind (recordFunction parts) fun _ => pure (φ.functionDeclaration parts)

end Agrees

end EcmaFront
