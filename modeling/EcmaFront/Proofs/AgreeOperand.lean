import EcmaFront.Grammar.Operand
import EcmaFront.Proofs.AgreeFunction

/-!
Object literals, operands and patterns agree in two algebras if the phrases inside do.
-/

set_option autoImplicit false

namespace EcmaFront.Agrees

open Parse

variable {A B : NodeAlgebra} {φ : NodeAlgebra.Hom A B} {I : Invariant} {r : Rules A} {r' : Rules B}
  {D : Nat → Prop} {m : Nat}

/-! Object literals. -/

theorem propertyKey (hr : RulesAgree φ I r r') :
    Agrees I D m m (.map φ.ofExpression) (propertyKey r) (propertyKey r') := by
  refine state fun s j => ?_
  rw [show (s.withJournal j).kind = s.kind from rfl,
    show (s.withJournal j).token = s.token from rfl]
  split
  · exact bind next fun _ => pure rfl
  · exact bind next fun _ => pure rfl
  · exact bind next fun _ => bind (here hr.assignment) fun e => bind (expect _) fun _ => pure rfl
  · exact ite (bind next fun _ => pure rfl) unexpected

theorem settle {α : Type} (result : Except Cause α) (extent : Extent) :
    Agrees I D m m id (settle result extent) (settle result extent) := by
  cases result with
  | ok a => exact pure rfl
  | error cause => exact failAt _ _

def onObject (f : A.Property → B.Property) (scan : ObjectScan A.Property) : ObjectScan B.Property :=
  ⟨scan.properties.map f, scan.names, scan.prototype⟩

theorem addAccessorKey_map {E E' : Type} (f : E → E') (names : PropertyNames) (key : PropertyKey E)
    (kind : PropertyKind) :
    names.addAccessorKey (key.map f) kind = names.addAccessorKey key kind := by
  cases key <;> rfl

theorem addDataKey_map {E E' : Type} (f : E → E') (names : PropertyNames) (key : PropertyKey E) :
    names.addDataKey (key.map f) = names.addDataKey key := by
  cases key <;> rfl

theorem namesPrototype_map {E E' : Type} (f : E → E') (key : PropertyKey E) :
    namesPrototype (key.map f) = namesPrototype key := by
  cases key <;> rfl

theorem noteAccessor (names : PropertyNames) :
    Agrees I D m m id (noteAccessor names) (noteAccessor names) := by
  refine ite (state fun s _ => ?_) (pure rfl)
  constructor
  intro c rec t j d _ _ hs
  exact .ok (I.firstAccessor _ hs)

theorem accessorProperty (hr : RulesAgree φ I r r') (kind : PropertyKind)
    (scan : ObjectScan A.Property) :
    Agrees I D m m (onObject φ.ofProperty) (accessorProperty r kind scan)
      (accessorProperty r' kind (onObject φ.ofProperty scan)) := by
  refine state fun s _ => bind (noteAccessor _) fun _ => bind next fun _ =>
    bind (propertyKey hr) fun key => ?_
  rw [addAccessorKey_map, PropertyKey.name?_map]
  refine bind (settle _ _) fun names => bind (functionNode hr _ _) fun value => ?_
  refine bind (spanFrom _) fun span => pure ?_
  simp [onObject, φ.entry]

theorem propertyValue (hr : RulesAgree φ I r r') (start : ParseState) (j : Journal)
    (key : PropertyKey A.Expression) (prototype : Bool) :
    Agrees I D m m (Prod.map id (Prod.map φ.ofExpression id)) (propertyValue r start key prototype)
      (propertyValue r' (start.withJournal j) (key.map φ.ofExpression) prototype) := by
  refine state fun s k => ?_
  rw [show (s.withJournal k).kind = s.kind from rfl,
    show (start.withJournal j).kind = start.kind from rfl,
    namesPrototype_map, PropertyKey.name?_map]
  dsimp only
  split
  · refine bind next fun _ => bind (here hr.assignment) fun value => ?_
    exact ite (ite (failAt _ _) (pure rfl)) (pure rfl)
  · exact bind (functionNode hr _ _) fun value => pure rfl
  · refine ite (fail _) (ite (bind (scopes fun _ => I.use _) fun _ => ?_) unexpected)
    refine bind (spanFrom _) fun span => pure ?_
    rw [φ.ident]
    rfl

theorem dataProperty (hr : RulesAgree φ I r r') (scan : ObjectScan A.Property) :
    Agrees I D m m (onObject φ.ofProperty) (dataProperty r scan)
      (dataProperty r' (onObject φ.ofProperty scan)) := by
  refine state fun s _ => bind (propertyKey hr) fun key =>
    bind (propertyValue hr s _ key _) fun value => ?_
  obtain ⟨kind, value, prototype⟩ := value
  dsimp only [Prod.map]
  rw [addDataKey_map]
  refine bind (settle _ _) fun names => bind (spanFrom _) fun span => pure ?_
  simp [onObject, φ.entry]

theorem spreadProperty (hr : RulesAgree φ I r r') (scan : ObjectScan A.Property)
    (start : Position) :
    Agrees I D m m (onObject φ.ofProperty) (spreadProperty r scan start)
      (spreadProperty r' (onObject φ.ofProperty scan) start) := by
  refine bind (here hr.assignment) fun e => bind (spanFrom _) fun span => pure ?_
  simp [onObject, φ.spreadEntry]

theorem property (hr : RulesAgree φ I r r') (scan : ObjectScan A.Property) :
    Agrees I D m m (onObject φ.ofProperty) (property r scan)
      (property r' (onObject φ.ofProperty scan)) := by
  refine state fun s _ => bind (consume _) fun _ => ite (spreadProperty hr scan _) ?_
  refine bind accessor? fun kind => ?_
  cases kind with
  | none => exact dataProperty hr scan
  | some kind => exact accessorProperty hr kind scan

theorem propertyRound (hr : RulesAgree φ I r r') (scan : ObjectScan A.Property) :
    Agrees I D m m (.map (onObject φ.ofProperty) (List.map φ.ofProperty)) (propertyRound r scan)
      (propertyRound r' (onObject φ.ofProperty scan)) := by
  refine state fun s _ => ite (pure (by simp [Round.map, onObject]))
    (bind (property hr scan) fun scan => ?_)
  exact bind (consume _) fun _ => ite (pure rfl) (pure (by simp [Round.map, onObject]))

theorem objectLiteral (hr : RulesAgree φ I r r') :
    Agrees I D m m φ.ofExpression (objectLiteral r) (objectLiteral r') := by
  refine state fun s _ => bind next fun _ =>
    bind (allowingIn (repeatFrom rfl (propertyRound hr))) fun ps => ?_
  exact bind (expect _) fun _ => bind (spanFrom _) fun span => pure (φ.object span ps)

/-! Operands. -/

theorem expressionRound (hr : RulesAgree φ I r r') (es : List A.Expression) :
    Agrees I D m m (.map (List.map φ.ofExpression) (List.map φ.ofExpression)) (expressionRound r es)
      (expressionRound r' (es.map φ.ofExpression)) := by
  refine bind (consume _) fun _ => ite (bind (here hr.assignment) fun _ => pure rfl) (pure ?_)
  simp [Round.map]

theorem expression (hr : RulesAgree φ I r r') :
    Agrees I D m m φ.ofExpression (expression r) (expression r') := by
  refine state fun s _ => bind (here hr.assignment) fun first => state fun t _ => ite ?_ (pure rfl)
  refine bind (repeatFrom (by rfl) (expressionRound hr)) fun es => ?_
  exact bind (spanFrom _) fun span => pure (φ.sequence span es)

theorem spreadOrAssignment (hr : RulesAgree φ I r r') :
    Agrees I D m m φ.ofExpression (spreadOrAssignment r) (spreadOrAssignment r') := by
  refine state fun s _ => ite (bind next fun _ => bind (here hr.assignment) fun e => ?_)
    (here hr.assignment)
  exact bind (spanFrom _) fun span => pure (φ.spread span e)

theorem argumentRound (hr : RulesAgree φ I r r') (es : List A.Expression) :
    Agrees I D m m (.map (List.map φ.ofExpression) (List.map φ.ofExpression)) (argumentRound r es)
      (argumentRound r' (es.map φ.ofExpression)) := by
  refine state fun s _ => ite (pure (by simp [Round.map]))
    (bind (spreadOrAssignment hr) fun e => ?_)
  exact bind (consume _) fun _ => ite (pure rfl) (pure (by simp [Round.map]))

theorem arguments (hr : RulesAgree φ I r r') :
    Agrees I D m m (List.map φ.ofExpression) (arguments r) (arguments r') := by
  refine bind (expect _) fun _ => bind (allowingIn (repeatFrom rfl (argumentRound hr))) fun es => ?_
  exact bind (expect _) fun _ => pure rfl

theorem elementRound (hr : RulesAgree φ I r r') (es : List (Option A.Expression)) :
    Agrees I D m m (.map (List.map (Option.map φ.ofExpression))
      (List.map (Option.map φ.ofExpression)))
      (elementRound r es) (elementRound r' (es.map (Option.map φ.ofExpression))) := by
  refine state fun s j => ?_
  rw [show (s.withJournal j).kind = s.kind from rfl]
  split
  · exact pure (by simp [Round.map])
  · exact bind next fun _ => pure rfl
  · refine bind (spreadOrAssignment hr) fun e => state fun t _ => ite (pure ?_) ?_
    · simp [Round.map]
    · exact bind (expect _) fun _ => pure rfl

theorem arrayLiteral (hr : RulesAgree φ I r r') :
    Agrees I D m m φ.ofExpression (arrayLiteral r) (arrayLiteral r') := by
  refine state fun s _ => bind next fun _ =>
    bind (allowingIn (repeatFrom rfl (elementRound hr))) fun es => ?_
  exact bind (expect _) fun _ => bind (spanFrom _) fun span => pure (φ.array span es)

theorem regexpLiteral (φ : NodeAlgebra.Hom A B) :
    Agrees I D m m φ.ofExpression (regexpLiteral (B := A)) (regexpLiteral (B := B)) := by
  refine state fun s _ => bind (quiet (fun _ => .readRegexp) fun _ _ => rfl) fun _ =>
    state fun t j => ?_
  refine ite unexpected (bind next fun _ => ?_)
  rw [show (t.withJournal j).token = t.token from rfl]
  split
  exact bind (spanFrom _) fun span => pure (φ.regexp span _ _)

theorem leaf {make : Span → A.Expression} {make' : Span → B.Expression}
    (h : ∀ span, make' span = φ.ofExpression (make span)) :
    Agrees I D m m φ.ofExpression (leaf make) (leaf make') :=
  state fun _ _ => bind next fun _ => bind (spanFrom _) fun span => pure (h span)

theorem reference (φ : NodeAlgebra.Hom A B) (name : String) :
    Agrees I D m m φ.ofExpression (reference (B := A) name) (reference (B := B) name) :=
  state fun _ _ => bind next fun _ => bind (scopes fun _ => I.use name) fun _ =>
    bind (spanFrom _) fun span => pure (φ.ident span name)

theorem group (hr : RulesAgree φ I r r') : Agrees I D m m φ.ofExpression (group r) (group r') :=
  bind next fun _ => bind (allowingIn (expression hr)) fun _ => bind (expect _) fun _ => pure rfl

theorem primary (hr : RulesAgree φ I r r') :
    Agrees I D m m φ.ofExpression (primary r) (primary r') := by
  refine state fun s j => ?_
  rw [show (s.withJournal j).kind = s.kind from rfl,
    show (s.withJournal j).token = s.token from rfl,
    show (s.withJournal j).strict = s.strict from rfl]
  split
  · exact functionExpression hr
  · exact group hr
  · exact arrayLiteral hr
  · exact objectLiteral hr
  · exact leaf φ.self
  · exact leaf φ.null
  · exact leaf (φ.bool · true)
  · exact leaf (φ.bool · false)
  · exact leaf (φ.number · _)
  · exact leaf (φ.string · _)
  · exact reference φ _
  · exact ite unexpected (reference φ _)
  · exact regexpLiteral φ
  · exact regexpLiteral φ
  · exact fail _
  · exact fail _
  · exact fail _
  · exact unexpected

theorem superExpression (φ : NodeAlgebra.Hom A B) :
    Agrees I D m m φ.ofExpression (superExpression (B := A)) (superExpression (B := B)) := by
  refine state fun s _ => bind next fun _ => state fun t j => ?_
  rw [show (t.withJournal j).kind = t.kind from rfl]
  have rest (_ : Unit) : Agrees I D m m φ.ofExpression
      (Parse.spanFrom s.start >>= fun span => Pure.pure (A.super span))
      (Parse.spanFrom s.start >>= fun span => Pure.pure (B.super span)) :=
    bind (spanFrom _) fun span => pure (φ.super span)
  split
  · exact ite (bind (scopes fun _ => I.directSuper) rest) (bind (failAt (f := id) _ _) rest)
  · exact ite (bind (scopes fun _ => I.superBinding) rest) (bind (failAt (f := id) _ _) rest)
  · exact ite (bind (scopes fun _ => I.superBinding) rest) (bind (failAt (f := id) _ _) rest)
  · exact bind (failAt (f := id) _ _) rest

theorem newTarget (φ : NodeAlgebra.Hom A B) (new : ParseState) (j : Journal) :
    Agrees I D m m φ.ofExpression (newTarget (B := A) new)
      (newTarget (B := B) (new.withJournal j)) :=
  state fun _ _ => ite unexpected <| ite (bind next fun _ => bind (spanFrom _) fun span =>
    pure (φ.newTarget span)) (failAt _ _)

theorem newRound (φ : NodeAlgebra.Hom A B) (news : List Position) :
    Agrees I D m m (.map id (Prod.map id (Option.map φ.ofExpression))) (newRound (B := A) news)
      (newRound (B := B) news) := by
  refine state fun s _ => ite (bind next fun _ => bind (consume _) fun _ => ite ?_ (pure rfl))
    (pure rfl)
  exact bind (newTarget φ s _) fun target => pure rfl

def onChain (f : A.Expression → B.Expression) (chain : MemberChain A.Expression) :
    MemberChain B.Expression :=
  ⟨f chain.expression, chain.news⟩

theorem memberRound (hr : RulesAgree φ I r r') (start callee : Position)
    (chain : MemberChain A.Expression) :
    Agrees I D m m (.map (onChain φ.ofExpression) (onChain φ.ofExpression))
      (memberRound r start callee chain)
      (memberRound r' start callee (onChain φ.ofExpression chain)) := by
  refine state fun s j => ?_
  rw [show (s.withJournal j).kind = s.kind from rfl]
  obtain ⟨e, news⟩ := chain
  dsimp only [onChain]
  split
  · refine bind next fun _ => state fun t _ => ite (bind next fun _ => ?_) unexpected
    refine bind (spanFrom _) fun span => pure ?_
    rw [φ.member]
    rfl
  · refine bind next fun _ => bind (allowingIn (expression hr)) fun key =>
      bind (expect _) fun _ => ?_
    refine bind (spanFrom _) fun span => pure ?_
    rw [φ.index]
    rfl
  · refine bind (arguments hr) fun args => ?_
    cases news with
    | nil =>
      refine bind (spanFrom _) fun span => pure ?_
      rw [φ.call]
      rfl
    | cons new news =>
      refine bind (spanFrom _) fun span => pure ?_
      rw [show some (args.map φ.ofExpression) =
        Option.map (List.map φ.ofExpression) (some args) from rfl,
        φ.construct]
      rfl
  · exact fail _
  · exact pure rfl

theorem foldl_news (φ : NodeAlgebra.Hom A B) (stop : Position) (news : List Position)
    (e : A.Expression) :
    news.foldl (fun e new => B.construct ⟨new, stop⟩ e none) (φ.ofExpression e) =
      φ.ofExpression (news.foldl (fun e new => A.construct ⟨new, stop⟩ e none) e) := by
  induction news generalizing e with
  | nil => rfl
  | cons new news ih =>
    rw [List.foldl_cons, List.foldl_cons, ← ih, ← φ.construct]
    rfl

theorem leftHandSide (hr : RulesAgree φ I r r') :
    Agrees I D m m φ.ofExpression (leftHandSide r) (leftHandSide r') := by
  refine state fun s _ => bind (repeatFrom rfl (newRound φ)) fun found => ?_
  obtain ⟨news, target⟩ := found
  have rest (callee : Position) (operand : A.Expression) : Agrees I D m m φ.ofExpression
      (do
        let chain ← Parse.repeatFrom ⟨operand, news⟩ (Parse.memberRound r s.start callee)
        let stop := (← Parse.state).lastEnd
        Pure.pure (chain.news.foldl (fun e new => A.construct ⟨new, stop⟩ e none) chain.expression))
      (do
        let chain ← Parse.repeatFrom ⟨φ.ofExpression operand, news⟩
            (Parse.memberRound r' s.start callee)
        let stop := (← Parse.state).lastEnd
        Pure.pure (chain.news.foldl (fun e new => B.construct ⟨new, stop⟩ e none)
          chain.expression)) :=
    bind (repeatFrom rfl (memberRound hr _ _)) fun chain => state fun t _ =>
      pure (foldl_news φ t.lastEnd chain.news chain.expression)
  refine state fun t _ => ?_
  cases target with
  | some target => exact bind (pure rfl) (rest _)
  | none =>
    exact state fun u _ => ite (bind (superExpression φ) (rest _)) (bind (primary hr) (rest _))

end EcmaFront.Agrees
