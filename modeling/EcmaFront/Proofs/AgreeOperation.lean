import EcmaFront.Grammar.Declaration
import EcmaFront.Proofs.AgreeOperand

/-!
Patterns, operations and variable declarations agree in two algebras if the phrases inside do.
-/

set_option autoImplicit false

namespace EcmaFront.Agrees

open Parse

variable {A B : NodeAlgebra} {φ : NodeAlgebra.Hom A B} {I : Invariant} {r : Rules A} {r' : Rules B}
  {D : Nat → Prop} {m : Nat} {form : BindingForm}

/-! Patterns. -/

theorem noPattern {α β : Type} (f : α → β) (form : BindingForm) :
    Agrees I D m m (Option.map f) (noPattern form) (noPattern form) :=
  ite (pure rfl) unexpected

theorem patternTarget (hr : RulesAgree φ I r r') (hD : ∀ {d}, D d → form.place (d + m)) :
    Agrees I D m m (Option.map φ.ofPattern) (patternTarget r form) (patternTarget r' form) := by
  refine ite (map (bindingName φ _ hD) fun _ => rfl)
    (state fun s _ => bind (leftHandSide hr) fun e => ?_)
  rw [φ.isTarget, φ.name?]
  refine ite ?_ (pure rfl)
  split
  · refine bind (quiet (fun _ => .await _) fun _ _ => rfl) fun _ => ?_
    exact pure (congrArg some (φ.target e))
  · exact pure (congrArg some (φ.target e))

theorem patternDefault (hr : RulesAgree φ I r r') :
    Agrees I D m m (Option.map φ.ofExpression) (patternDefault r) (patternDefault r') :=
  bind (consume _) fun _ => ite (map (allowingIn (here hr.assignment)) fun _ => rfl) (pure rfl)

def onArray (φ : NodeAlgebra.Hom A B) (parts : ArrayParts A) : ArrayParts B :=
  ⟨parts.elements.map (Option.map (.map φ.ofExpression φ.ofPattern)), parts.rest.map φ.ofPattern⟩

theorem restElement (hr : RulesAgree φ I r r') (hD : ∀ {d}, D d → form.place (d + m))
    (es : List (Option (PatternElement A.Expression A.Pattern))) :
    Agrees I D m m (Option.map (onArray φ)) (restElement r form es)
      (restElement r' form (es.map (Option.map (.map φ.ofExpression φ.ofPattern)))) := by
  refine bind next fun _ => bind (weaken (hr.pattern form) hD) fun rest => ?_
  cases rest with
  | none => exact pure rfl
  | some rest =>
    refine state fun s _ => ite (pure ?_) (ite (pure rfl) (fail _))
    simp [onArray]

theorem arrayPatternRound (hr : RulesAgree φ I r r') (hD : ∀ {d}, D d → form.place (d + m))
    (es : List (Option (PatternElement A.Expression A.Pattern))) :
    Agrees I D m m
      (.map (List.map (Option.map (.map φ.ofExpression φ.ofPattern))) (Option.map (onArray φ)))
      (arrayPatternRound r form es)
      (arrayPatternRound r' form (es.map (Option.map (.map φ.ofExpression φ.ofPattern)))) := by
  refine state fun s j => ?_
  rw [show (s.withJournal j).kind = s.kind from rfl]
  split
  · exact pure (by simp [Round.map, onArray])
  · exact bind next fun _ => pure rfl
  · exact map (restElement hr hD es) fun _ => rfl
  · refine bind (weaken (hr.pattern form) hD) fun target => ?_
    cases target with
    | none => exact pure rfl
    | some target =>
      refine bind (patternDefault hr) fun default => bind (spanFrom _) fun span =>
        state fun t _ => ?_
      refine ite (pure ?_)
        (bind (consume _) fun _ => ite (pure rfl) (map (noPattern _ form) fun _ => rfl))
      simp [Round.map, onArray, PatternElement.map]

theorem arrayPattern (hr : RulesAgree φ I r r') (hD : ∀ {d}, D d → form.place (d + m)) :
    Agrees I D m m (Option.map φ.ofPattern) (arrayPattern r form) (arrayPattern r' form) := by
  refine state fun s _ => bind next fun _ =>
    bind (repeatFrom rfl (arrayPatternRound hr hD)) fun parts => ?_
  cases parts with
  | none => exact pure rfl
  | some parts =>
    refine bind next fun _ => bind (spanFrom _) fun span => pure ?_
    rw [onArray, φ.arrayPattern]
    rfl

theorem patternKey (hr : RulesAgree φ I r r') :
    Agrees I D m m (Option.map (Prod.map (.map φ.ofExpression) id)) (patternKey r form)
      (patternKey r' form) := by
  refine state fun s j => ?_
  rw [show (s.withJournal j).kind = s.kind from rfl,
    show (s.withJournal j).token = s.token from rfl,
    show (s.withJournal j).atBindingName = s.atBindingName from rfl]
  split
  · exact bind next fun _ => pure rfl
  · exact bind next fun _ => pure rfl
  · refine bind next fun _ => bind (allowingIn (here hr.assignment)) fun key => ?_
    exact bind (expect _) fun _ => pure rfl
  · exact ite (bind next fun _ => pure rfl) (noPattern _ form)

theorem patternPropertyTarget (hr : RulesAgree φ I r r') (hD : ∀ {d}, D d → form.place (d + m))
    (start : ParseState) (j : Journal) (name? : Option String) :
    Agrees I D m m (Option.map (Prod.map φ.ofPattern id)) (patternPropertyTarget r form start name?)
      (patternPropertyTarget r' form (start.withJournal j) name?) := by
  refine bind (consume _) fun _ => ite (bind (weaken (hr.pattern form) hD) fun target => pure ?_) ?_
  · cases target <;> rfl
  · cases name? with
    | none => exact noPattern _ form
    | some name => exact map (bindName φ form hD name _ _) fun _ => rfl

theorem patternProperty (hr : RulesAgree φ I r r') (hD : ∀ {d}, D d → form.place (d + m))
    (ps : List (PatternProperty A.Expression A.Pattern)) :
    Agrees I D m m (Option.map (List.map (.map φ.ofExpression φ.ofPattern)))
      (patternProperty r form ps)
      (patternProperty r' form (ps.map (.map φ.ofExpression φ.ofPattern))) := by
  refine state fun s _ => bind (patternKey hr) fun key => ?_
  cases key with
  | none => exact pure rfl
  | some key =>
    refine bind (patternPropertyTarget hr hD s _ key.2) fun target => ?_
    cases target with
    | none => exact pure rfl
    | some target =>
      exact bind (patternDefault hr) fun default => bind (spanFrom _) fun span => pure rfl

theorem patternPropertyRound (hr : RulesAgree φ I r r') (hD : ∀ {d}, D d → form.place (d + m))
    (ps : List (PatternProperty A.Expression A.Pattern)) :
    Agrees I D m m (.map (List.map (.map φ.ofExpression φ.ofPattern))
      (Option.map (List.map (.map φ.ofExpression φ.ofPattern)))) (patternPropertyRound r form ps)
      (patternPropertyRound r' form (ps.map (.map φ.ofExpression φ.ofPattern))) := by
  refine state fun s _ => ite (pure (by simp [Round.map]))
    (bind (patternProperty hr hD ps) fun ps => ?_)
  cases ps with
  | none => exact pure rfl
  | some ps => exact bind (consume _) fun _ => ite (pure rfl) (pure (by simp [Round.map]))

theorem objectPattern (hr : RulesAgree φ I r r') (hD : ∀ {d}, D d → form.place (d + m)) :
    Agrees I D m m (Option.map φ.ofPattern) (objectPattern r form) (objectPattern r' form) := by
  refine state fun s _ => bind next fun _ =>
    bind (repeatFrom rfl (patternPropertyRound hr hD)) fun ps => ?_
  cases ps with
  | none => exact pure rfl
  | some ps =>
    refine state fun t _ => ite (bind next fun _ => bind (spanFrom _) fun span => ?_)
      (noPattern _ form)
    exact pure (congrArg some (φ.objectPattern span ps))

theorem pattern (hr : RulesAgree φ I r r') (form : BindingForm) :
    Agrees I form.place 0 0 (Option.map φ.ofPattern) (pattern r form) (pattern r' form) := by
  refine nested (state fun s j => ?_)
  rw [show (s.withJournal j).kind = s.kind from rfl]
  split
  · exact arrayPattern hr id
  · exact objectPattern hr id
  · exact patternTarget hr id

theorem attempt_bind {α β : Type} (p : Parse (Option α)) (next : Option α → Parse β)
    (c : ParseContext) (s : ParseState) : (attempt p >>= next) c s =
      match p c s with
      | (.ok a, s) => next a c s
      | (.error e, s) => if e.cause = .exhausted then (.error e, s) else next none c s := by
  simp only [Bind.bind, Parse.attempt]
  generalize p c s = x
  obtain ⟨e | a, s⟩ := x
  · by_cases he : e.cause = .exhausted <;> simp [he]
  · rfl

theorem assignmentPattern? (hr : RulesAgree φ I r r') {accept : ParseState → Bool}
    (ha : ∀ s j, accept (s.withJournal j) = accept s) :
    Agrees I D m m (Option.map φ.ofPattern) (assignmentPattern? r accept)
      (assignmentPattern? r' accept) := by
  refine state fun s _ => ite (pure rfl) (bind (followsBrackets ha) fun _ => ite (pure rfl) ?_)
  constructor
  intro c rec s j d hrec hd hs
  have hx := (hr.pattern .assignment).run hrec trivial hs
  change Agree I d (d + m) _ ((attempt (r.pattern .assignment) >>= _) c s)
    ((attempt (r'.pattern .assignment) >>= _) _ _)
  rw [attempt_bind, attempt_bind]
  have back : Agrees I (· = d) m m (Option.map φ.ofPattern)
      (modify (·.backtrack s.checkpoint) >>= fun _ => Pure.pure none)
      (modify (·.backtrack s.checkpoint) >>= fun _ => Pure.pure none) := by
    constructor
    intro c rec s' j' d' _ h h'
    exact .ok (I.backtrack (h ▸ hs) (I.breaks h'))
  generalize r.pattern .assignment c s = x at hx ⊢
  generalize r'.pattern .assignment _ _ = y at hx ⊢
  cases hx with
  | @ok a s' j' h =>
    refine (state (D := (· = d)) (m := m) (n := m) fun t k => ?_).run hrec rfl h
    rw [Option.isSome_map, ha]
    exact ite (bind (commitWrites fun hd => hd ▸ hs) fun _ => pure rfl) back
  | @error e s' j' h =>
    by_cases he : e.cause = .exhausted
    · simp only [he, if_true]
      exact .error (I.broken_le (Nat.le_add_right d m) h)
    · simp only [he, if_false]
      exact .ok (I.backtrack hs h)

/-! Operations. -/

theorem postfixExpression (hr : RulesAgree φ I r r') :
    Agrees I D m m φ.ofExpression (postfixExpression r) (postfixExpression r') := by
  refine state fun start _ => bind (leftHandSide hr) fun e => state fun s j => ?_
  rw [show (s.withJournal j).kind = s.kind from rfl, φ.isTarget]
  split
  · exact pure rfl
  · refine ite (pure rfl)
      (ite (bind (noteAssignment _ _) fun _ => bind next fun _ => ?_) (failAt _ _))
    exact bind (spanFrom _) fun span => pure (φ.update _ _ _ _)

theorem leadingRound (operators : List Leading) :
    Agrees I D m m (.map id id) (leadingRound operators) (leadingRound operators) :=
  state fun _ _ => ite (bind next fun _ => pure rfl) (pure rfl)

theorem applyLeading (φ : NodeAlgebra.Hom A B) (first : Extent) (e : A.Expression)
    (operator : Leading) :
    Agrees I D m m φ.ofExpression (applyLeading first e operator)
      (applyLeading first (φ.ofExpression e) operator) := by
  refine bind (spanFrom _) fun span => ?_
  rw [φ.isTarget, φ.name?]
  dsimp only [id]
  split
  · exact ite (bind (noteAssignment _ _) fun _ => pure (φ.update _ _ _ _)) (failAt _ _)
  · exact state fun s _ => ite (failAt _ _) (pure (φ.unary _ _ _))
  · exact failAt _ _

theorem applyAll (φ : NodeAlgebra.Hom A B) (first : Extent) (operators : List Leading)
    (e : A.Expression) : Agrees I D m m φ.ofExpression (applyAll first operators e)
      (applyAll first operators (φ.ofExpression e)) := by
  induction operators generalizing e with
  | nil => exact pure rfl
  | cons operator rest ih => exact bind (applyLeading φ first e operator) ih

theorem unaryExpression (hr : RulesAgree φ I r r') :
    Agrees I D m m φ.ofExpression (unaryExpression r) (unaryExpression r') := by
  refine bind (repeatFrom rfl leadingRound) fun operators => state fun s _ => ?_
  exact bind (postfixExpression hr) fun e => applyAll φ _ _ e

def onPlaced (f : A.Expression → B.Expression) (e : Placed A.Expression) : Placed B.Expression :=
  ⟨f e.expression, e.span⟩

def onWaiting (f : A.Expression → B.Expression) (w : Waiting A.Expression) : Waiting B.Expression :=
  ⟨onPlaced f w.left, w.op, w.precedence⟩

def onBinary (f : A.Expression → B.Expression) (scan : BinaryScan A.Expression) :
    BinaryScan B.Expression :=
  ⟨scan.waiting.map (onWaiting f), onPlaced f scan.operand⟩

theorem reduce_map (φ : NodeAlgebra.Hom A B) (precedence : Nat)
    (waiting : List (Waiting A.Expression)) (e : Placed A.Expression) :
    reduce precedence (waiting.map (onWaiting φ.ofExpression)) (onPlaced φ.ofExpression e) =
      Prod.map (List.map (onWaiting φ.ofExpression)) (onPlaced φ.ofExpression)
        (reduce precedence waiting e) := by
  induction waiting generalizing e with
  | nil => rfl
  | cons w rest ih =>
    have hj : (onWaiting φ.ofExpression w).join (onPlaced φ.ofExpression e) =
        onPlaced φ.ofExpression (w.join e) := by
      simp [Waiting.join, onWaiting, onPlaced, φ.binary]
    simp only [List.map_cons, reduce, hj, ih]
    by_cases h : precedence ≤ w.precedence <;> simp [h, onWaiting]

theorem placedOperand (hr : RulesAgree φ I r r') :
    Agrees I D m m (onPlaced φ.ofExpression) (placedOperand r) (placedOperand r') :=
  state fun _ _ => bind (unaryExpression hr) fun _ => bind (spanFrom _) fun _ => pure rfl

theorem binaryRound (hr : RulesAgree φ I r r') (scan : BinaryScan A.Expression) :
    Agrees I D m m (.map (onBinary φ.ofExpression) φ.ofExpression) (binaryRound r scan)
      (binaryRound r' (onBinary φ.ofExpression scan)) := by
  refine state fun s j => ?_
  rw [show (s.withJournal j).kind = s.kind from rfl,
    show (s.withJournal j).allowsIn = s.allowsIn from rfl,
    onBinary]
  dsimp only
  split
  · refine pure ?_
    rw [reduce_map]
    rfl
  · refine bind next fun _ => ?_
    rw [reduce_map]
    exact bind (placedOperand hr) fun e => pure rfl

theorem binaryExpression (hr : RulesAgree φ I r r') :
    Agrees I D m m φ.ofExpression (binaryExpression r) (binaryExpression r') :=
  bind (placedOperand hr) fun _ => repeatFrom rfl (binaryRound hr)

theorem conditionalExpression (hr : RulesAgree φ I r r') :
    Agrees I D m m φ.ofExpression (conditionalExpression r) (conditionalExpression r') := by
  refine state fun s _ => bind (binaryExpression hr) fun test => bind (consume _) fun _ =>
    ite ?_ (pure rfl)
  refine bind (allowingIn (here hr.assignment)) fun consequent => bind (expect _) fun _ => ?_
  refine bind (here hr.assignment) fun alternate => bind (spanFrom _) fun span => ?_
  exact pure (φ.conditional _ _ _ _)

theorem plainAssignment (hr : RulesAgree φ I r r') :
    Agrees I D m m φ.ofExpression (plainAssignment r) (plainAssignment r') := by
  refine state fun start _ => bind (conditionalExpression hr) fun target => state fun s j => ?_
  rw [show (s.withJournal j).kind = s.kind from rfl, φ.isTarget]
  split
  · exact pure rfl
  · refine ite (bind (noteAssignment _ _) fun _ => bind next fun _ => ?_) (failAt _ _)
    refine bind (here hr.assignment) fun value => bind (spanFrom _) fun span => ?_
    exact pure (φ.assign _ _ _ _)

theorem assignmentExpression (hr : RulesAgree φ I r r') :
    Agrees I D m m φ.ofExpression (assignmentExpression r) (assignmentExpression r') := by
  refine nested (state fun s _ => bind atArrowFunction fun _ => ite (arrowFunction hr _) ?_)
  refine bind (assignmentPattern? hr fun _ _ => rfl) fun target => ?_
  cases target with
  | none => exact plainAssignment hr
  | some target =>
    refine bind next fun _ => bind (here hr.assignment) fun value =>
      bind (spanFrom _) fun span => ?_
    exact pure (φ.assignPattern _ _ _)

/-! Variable declarations. -/

def onDeclaration (φ : NodeAlgebra.Hom A B) (list : DeclarationList A) : DeclarationList B :=
  ⟨list.declarators.map (.map φ.ofExpression φ.ofPattern), list.missing, list.initialized⟩

theorem declaratorTarget (hr : RulesAgree φ I r r') (kind : VariableKind) :
    Agrees I Inside m m φ.ofPattern (declaratorTarget r kind) (declaratorTarget r' kind) := by
  have hD {d : Nat} (hd : Inside d) : (BindingForm.variable kind).place (d + m) :=
    Nat.add_pos_left hd m
  exact state fun s _ => ite (bindingPattern hr _ hD) (bindingName φ _ hD)

theorem declarator (hr : RulesAgree φ I r r') (kind : VariableKind) (inHead : Bool)
    (list : DeclarationList A) :
    Agrees I Inside m m (onDeclaration φ) (declarator r kind inHead list)
      (declarator r' kind inHead (onDeclaration φ list)) := by
  refine state fun s _ => bind (declaratorTarget hr kind) fun target =>
    bind (takeBoundNames _) fun names => ?_
  refine bind (consume _) fun _ => ite (bind (writeNames names) fun _ => ?_) (ite (fail _) ?_)
  · exact bind (here hr.assignment) fun init => bind (spanFrom _) fun span => pure rfl
  · exact bind (spanFrom _) fun span => pure rfl

theorem declarationList (hr : RulesAgree φ I r r') (kind : VariableKind) (inHead : Bool) :
    Agrees I Inside m m (onDeclaration φ) (declarationList r kind inHead)
      (declarationList r' kind inHead) := by
  refine repeatFrom (g := onDeclaration φ) rfl fun list =>
    bind (declarator hr kind inHead list) fun list => ?_
  refine bind (consume _) fun _ => ite (pure rfl) (pure ?_)
  simp [Round.map, onDeclaration]

theorem variableStatement (hr : RulesAgree φ I r r') (kind : VariableKind) :
    Agrees I Inside m m φ.ofStatement (variableStatement r kind) (variableStatement r' kind) := by
  refine state fun s _ => bind next fun _ => bind (declarationList hr kind false) fun list => ?_
  exact bind consumeSemicolon fun _ => bind (spanFrom _) fun span => pure (φ.declaration ⟨_, _, _⟩)

end EcmaFront.Agrees
