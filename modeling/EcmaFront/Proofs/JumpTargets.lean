import EcmaFront.Proofs.Termination
import EcmaFront.Proofs.WellFormed

/-!
Jumps find what they lead to. In every parse the open frames tell of labels, loops and switches what
the text around says, and so every jump of a program that is accepted is inside the statement it
refers to.
-/

set_option autoImplicit false

namespace EcmaFront

section

variable {A B : NodeAlgebra} {I : Invariant} {D : Nat → Prop} {k : Footing} {α β : Type} {f : α → β}

open Classical in
theorem Agrees.knowing {p : ParseState → Parse α} {q : ParseState → Parse β}
    (h : ∀ o j, Agrees I D 0 0 f (p o) (q (o.withJournal j))) :
    Agrees I D 0 0 f (fun c s => if s.Knows k then p s c s else Parse.fail .exhausted c s)
      (fun c s => if s.Knows k then q s c s else Parse.fail .exhausted c s) where
  run {c r s j d} hr hd hs := by
    have hj : (s.withJournal j).Knows k ↔ s.Knows k :=
      ⟨fun h => ⟨h.1, h.2, h.3⟩, fun h => ⟨h.1, h.2, h.3⟩⟩
    simp only [hj]
    split
    · exact (h s j).run hr hd hs
    · exact (Agrees.fail _).run hr hd hs

theorem RulesAgree.watched (φ : NodeAlgebra.Hom A B) (I : Invariant) (n : Nat) (k : Footing) :
    RulesAgree φ I (Rules.watched A n k) (Rules.watched B n k) := by
  induction n generalizing k with
  | zero => exact ⟨.fail _, .fail _, .fail _, fun _ => .fail _⟩
  | succ n ih =>
    have hr (phrase : Phrase) (o : ParseState) (j : Journal) : RulesAgree φ I
        (fun part c t => Rules.watched A n (k.part phrase o part t.scopes.kinds) part c t)
        (fun part c t => Rules.watched B n
          (k.part phrase (o.withJournal j) part t.scopes.kinds) part c t) :=
      ⟨⟨fun hr hd hs => (ih _).item.run hr hd hs⟩,
        ⟨fun hr hd hs => (ih _).statement.run hr hd hs⟩,
        ⟨fun hr hd hs => (ih _).assignment.run hr hd hs⟩,
        fun form => ⟨fun hr hd hs => ((ih _).pattern form).run hr hd hs⟩⟩
    constructor
    case item => exact .knowing fun o j => Agrees.item (hr .item o j)
    case statement => exact .knowing fun o j => Agrees.statement (hr .statement o j)
    case assignment => exact .knowing fun o j => Agrees.assignmentExpression (hr .assignment o j)
    case pattern =>
      exact fun form => .knowing fun o j => Agrees.pattern (hr (.pattern form) o j) form

end

theorem check_watched (source : Source) (options : ParseOptions) (recording : Bool) :
    (Parse.program (Rules.watched .check (levelsFor source.size) {}) options).run source recording =
      runProgram .check source options recording :=
  check_alike (.watched .toClass .sameJournal _ {})
    (Parse.program_alike (Parse.asking_watched source options recording {}))

/-- In every parse the open frames tell, wherever a phrase begins, of the labels, loops and switches
that the text has around it in the same function: no parse comes out otherwise if it is broken off
where they do not. So each jump in a program that is accepted finds what it leads to, and no label
stands inside one of its name. -/
theorem jumps_are_tracked (source : Source) (options : ParseOptions)
    (functionOptions : FunctionOptions) (recording : Bool) :
    ((Parse.program (Rules.watched .tree (levelsFor source.size) {}) options).run source recording =
        runProgram .tree source options recording ∧
      (Parse.program (Rules.watched .check (levelsFor source.size) {}) options).run
        source recording =
        runProgram .check source options recording ∧
      (Parse.soleFunction (Rules.watched .tree (levelsFor source.size) .function)
        functionOptions).run source recording =
        (Parse.soleFunction (Rules.ofSource .tree source) functionOptions).run source recording) ∧
    (∀ e : ParseError, e.cause = .exhausted →
      (runProgram .tree source options recording).1 ≠ .error e ∧
      (runProgram .check source options recording).1 ≠ .error e ∧
        ((Parse.soleFunction (Rules.ofSource .tree source) functionOptions).run source
          recording).1 ≠ .error e) ∧
    ∀ p, (parseProgram source options).outcome = .ok p → ∀ around n, p.Places around n →
    n.IsTargeted around := by
  have hp := Parse.program_alike (Parse.asking_watched source options recording {})
  have hf := Parse.soleFunction_alike functionOptions
    (Parse.asking_watched source _ recording .function)
  have hc := check_watched source options recording
  refine ⟨⟨hp.same, hc, hf.same⟩, fun e he => ⟨?_, ?_, ?_⟩, fun p h around n hn => ?_⟩
  · exact fun h => hp.cause_ne h he
  · exact fun h => hp.cause_ne (error_of_check h recording) he
  · exact fun h => hf.cause_ne h he
  · exact Footing.isTargeted (isSound_of_places h hn).allows

theorem jumps_are_tracked_through_labels :
    let source := Source.ofString "a:b:for(;;){switch(c){case d:break;default:continue a}}" ""
    ∃ p, (parseProgram source {}).outcome = .ok p ∧ ∀ around n, p.Places around n →
    n.IsTargeted around := by
  intro source
  have h : (parseProgram source {}).outcome.toOption.isSome = true := by decide +kernel
  clear_value source
  cases ho : (parseProgram source {}).outcome with
  | ok p => exact ⟨p, rfl, (jumps_are_tracked _ {} {} false).2.2 p ho⟩
  | error e => simp [ho, Except.toOption] at h

end EcmaFront
