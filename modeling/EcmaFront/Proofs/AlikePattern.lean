import EcmaFront.Grammar.Destructuring
import EcmaFront.Proofs.AlikeOperand
import EcmaFront.Proofs.ReadOperation

/-!
Patterns come to the same end by two sets of rules, if the phrases do that they ask for.
-/

set_option autoImplicit false

namespace EcmaFront.Parse.Asking

variable {c : ParseContext} {r r' : Rules .tree} {K : Phrase → Ground → Prop} {m : Nat}
  {o s t t' : ParseState} {g : Ground} {form : BindingForm}

theorem noPattern {α : Type} : Alike c s (noPattern (α := α) form) (Parse.noPattern form) :=
  .ite (fun _ => .pure trivial) fun _ => .unexpected

theorem patternTarget (h : Asking c r r' K m o) (hs : o.Stage g s) (hK : g.Operands K) :
    Alike c s (patternTarget r form) (Parse.patternTarget r' form) := by
  refine .ite (fun _ => Alike.bindingName.map) fun _ => .state_bind
    ((h.leftHandSide hs hK).bind fun _ _ _ => ?_)
  refine .ite (fun _ => ?_) fun _ => .pure trivial
  split
  · exact .modify_bind (.pure trivial)
  · exact .pure trivial

theorem patternDefault (h : Asking c r r' K m o) (hs : o.Ahead g s) (hK : K .assignment g) :
    Alike c s (patternDefault r) (Parse.patternDefault r') :=
  .consume_bind (fun _ => (Alike.allowingIn (h.assignment (hs.next.allow true) hK)).map)
    fun _ => .pure trivial

theorem restElement (h : Asking c r r' K m o) (hs : o.Ahead g s) (hP : K (.pattern form) g)
    {elements : List (Option (PatternElement Expr Pat))} :
    Alike c s (restElement r form elements) (Parse.restElement r' form elements) := by
  refine .next_bind ((h.pattern hs.next hP).bind fun found _ _ => ?_)
  cases found with
  | none => exact .pure trivial
  | some p =>
    exact .state_bind (.ite (fun _ => .pure trivial) fun _ => .ite (fun _ => .pure trivial)
      fun _ => .fail nofun)

theorem arrayPatternRound (h : Asking c r r' K m o) (hs : o.Ahead g s) (hf : g.Admits form)
    (hK : K .assignment g) (hP : K (.pattern form) g)
    {elements : List (Option (PatternElement Expr Pat))} :
    Alike c s (arrayPatternRound r form elements) (Parse.arrayPatternRound r' form elements)
      (Alike.Lowers (o.Ahead g) s) := by
  refine .state_bind ?_
  split
  · exact .pure trivial
  · next hk => exact .next_bind (.pure (hs.lowers_from hk (.still rfl rfl) rfl))
  · exact (h.restElement hs hP).mapWith fun _ _ => trivial
  · refine (h.pattern hs hP).bind fun found s₁ hp => ?_
    cases found with
    | none => exact .pure trivial
    | some p =>
      have hp := h.reads.pattern hp
      have h₁ : s.Onward s₁ := .taking (hp.bare (hs.toStage.admits hf)) hp.stances
      refine (h.patternDefault (hs.onward h₁) hK).bind fun default s₂ hd => .spanFrom_bind
        (.state_bind ?_)
      have hd := patternDefault_read h.reads hd
      refine .ite (fun _ => .pure trivial) fun _ => .consume_bind (fun hk => .pure ?_) fun _ => ?_
      · exact hs.lowers_next (h₁.trans (.behind hd.bare hd.stances)) (hk ▸ rfl)
      · exact noPattern.mapWith fun _ _ => trivial

theorem arrayPattern (h : Asking c r r' K m o) (hs : o.Ahead g s.next) (hf : g.Admits form)
    (hK : K .assignment g) (hP : K (.pattern form) g) :
    Alike c s (arrayPattern r form) (Parse.arrayPattern r' form) := by
  refine .state_bind (.next_bind (.bind ?_ fun found _ _ => ?_))
  · refine .repeatFrom (o.Ahead g) hs (h.rest_lt hs.toStage) fun _ _ hs => ?_
    exact h.arrayPatternRound hs hf hK hP
  · cases found with
    | none => exact .pure trivial
    | some parts => exact .next_bind (.spanFrom_bind (.pure trivial))

theorem patternKey (h : Asking c r r' K m o) (hs : o.Ahead g s) (hK : K .assignment g) :
    Alike c s (patternKey r form) (Parse.patternKey r' form) := by
  refine .state_bind ?_
  split
  · exact .next_bind (.pure trivial)
  · exact .next_bind (.pure trivial)
  · refine .next_bind (.bind (.allowingIn (h.assignment (hs.next.allow true) hK)) fun _ _ _ => ?_)
    exact Alike.expect.bind fun _ _ _ => .pure trivial
  · exact .ite (fun _ => .next_bind (.pure trivial)) fun _ => noPattern

theorem patternPropertyTarget (h : Asking c r r' K m o) (hs : o.Ahead g s)
    (hP : K (.pattern form) g) {start : ParseState} {name? : Option String} :
    Alike c s (patternPropertyTarget r form start name?)
      (Parse.patternPropertyTarget r' form start name?) := by
  refine .consume_bind (fun _ => (h.pattern hs.next hP).bind fun _ _ _ => .pure trivial) fun _ => ?_
  cases name? with
  | none => exact noPattern
  | some name => exact Alike.bindName.map

theorem patternProperty (h : Asking c r r' K m o) (hs : o.Ahead g s) (hf : g.Admits form)
    (hK : K .assignment g)
    (hP : K (.pattern form) g) {properties : List (PatternProperty Expr Pat)} :
    Alike c s (patternProperty r form properties) (Parse.patternProperty r' form properties) := by
  refine .state_bind ((h.patternKey hs hK).bind fun found s₁ hx => ?_)
  cases found with
  | none => exact .pure trivial
  | some key =>
    have hx := patternKey_read h.reads hx
    have h₁ := hs.behind hx.bare hx.stances
    refine (h.patternPropertyTarget h₁ hP).bind fun found s₂ ht => ?_
    cases found with
    | none => exact .pure trivial
    | some target =>
      have ht := patternPropertyTarget_read h.reads ht
      have h₂ := h₁.onward (.taking (ht.bare (h₁.toStage.admits hf)) ht.stances)
      exact (h.patternDefault h₂ hK).bind fun _ _ _ => .spanFrom_bind (.pure trivial)

theorem objectPattern (h : Asking c r r' K m o) (hs : o.Ahead g s.next) (hf : g.Admits form)
    (hK : K .assignment g) (hP : K (.pattern form) g) :
    Alike c s (objectPattern r form) (Parse.objectPattern r' form) := by
  refine .state_bind (.next_bind (.bind ?_ fun found _ _ => ?_))
  · refine .repeatFrom (o.Ahead g) hs (h.rest_lt hs.toStage) fun _ s hs => .state_bind ?_
    refine .ite (fun _ => .pure trivial) fun _ => ?_
    refine (h.patternProperty hs hf hK hP).bind fun found s₁ hp => ?_
    cases found with
    | none => exact .pure trivial
    | some properties =>
      obtain ⟨p, -, hp⟩ := patternProperty_read h.reads hp
      exact comma hs (.taking (hp.bare (hs.toStage.admits hf)) hp.stances) _ _
  · cases found with
    | none => exact .pure trivial
    | some properties =>
      refine .state_bind (.ite (fun _ => ?_) fun _ => noPattern)
      exact .next_bind (.spanFrom_bind (.pure trivial))

theorem ofPattern (h : Asking c r r' K m o) (hs : o.Stage g s.deeper) (hf : g.Admits form)
    (hK : g.Operands K) (hP : K (.pattern form) g) :
    Alike c s (Parse.pattern r form) (Parse.pattern r' form) := by
  refine .nested (.state_bind ?_)
  split
  · next hk => exact h.arrayPattern (hs.advance_of hk rfl) hf hK.assignment hP
  · next hk => exact h.objectPattern (hs.advance_of hk rfl) hf hK.assignment hP
  · exact h.patternTarget hs hK

end EcmaFront.Parse.Asking
