import EcmaFront.Proofs.CheckedProgram
import EcmaFront.Proofs.Soundness
import EcmaFront.Tree.Conversion

/-!
An accepted program is well formed, and does not depend on how a statement would be taken for a
declaration or a block that is none.
-/

set_option autoImplicit false

namespace EcmaFront

variable {source : Source} {options : ParseOptions} {p : Program}

theorem ParseState.stances_entered (source : Source) (options : ParseOptions) :
    (entered source options).stances = [⟨.program, [], 0, 0, [], false⟩] := rfl

theorem ParseState.Stands.entered (source : Source) (options : ParseOptions) :
    (ParseState.entered source options).Stands source {} where
  settled := settled_lex _
  view := Lexer.view_next _ _
  frames := by simp [ParseState.stances_entered]
  footing := by
    rw [ParseState.stances_entered]
    exact .refl _

theorem sound_of_parseProgram (h : (parseProgram source options).outcome = .ok p) :
    Node.AreSound source {} (p.body.map .statement) := by
  obtain ⟨span, body, scope, s, hr, hf, rfl⟩ := Parse.runProgram_read (Prod.ext h rfl)
  exact hr.sound (.entered source options) rfl

theorem isSound_of_places {around : List Node} {n : Node}
    (h : (parseProgram source options).outcome = .ok p) (hn : p.Places around n) :
    n.IsSound source (.inside around) :=
  .of_places (fun _ ha => (sound_of_parseProgram h _ (List.mem_map_of_mem ha)).1) hn

theorem Node.IsSound.isWellFormed {k : Footing} {n : Node} (h : n.IsSound source k) :
    n.IsWellFormed source := by
  cases h with
  | node hw _ _ => exact hw

theorem Node.IsSound.allows {k : Footing} {n : Node} (h : n.IsSound source k) : k.Allows n := by
  cases h with
  | node _ ha _ => exact ha

/-- An accepted program is well formed. It comes out the same whatever is made of a statement that
is taken for a declaration or a block and is none. -/
theorem accepted_isWellFormed (h : (parseProgram source options).outcome = .ok p) :
    p.IsWellFormed source ∧
      ∀ x : Conversions, x.Exact → (runProgram (.treeBy x) source options false).1 = .ok p := by
  refine ⟨⟨fun a ha => ?_, fun n hn => ?_, fun around n hn hr => ?_⟩, fun x hx => ?_⟩
  · exact (sound_of_parseProgram h _ (List.mem_map_of_mem ha)).2
  · obtain ⟨around, hn⟩ := hn.places
    exact (isSound_of_places h hn).isWellFormed
  · exact Footing.inFunction_of_isReturn (isSound_of_places h hn).allows hr
  · have ha := runProgram_agree (.convert x hx) source options false false
    have hp : (runProgram .tree source options false).1 = .ok p := h
    generalize runProgram .tree source options false = t at ha hp
    generalize runProgram (.treeBy x) source options false = t' at ha ⊢
    cases ha with
    | ok => exact hp
    | error => cases hp

theorem accepted_isWellFormed_with_pattern :
    let source := Source.ofString "for(const [a]of b){let c=1,{d}=a;[b]=(c,...e)=>c++}" ""
    ∃ p, (parseProgram source {}).outcome = .ok p ∧ p.IsWellFormed source := by
  intro source
  have h : (parseProgram source {}).outcome.toOption.isSome = true := by decide +kernel
  cases ho : (parseProgram source {}).outcome with
  | ok p => exact ⟨p, rfl, (accepted_isWellFormed ho).1⟩
  | error e => simp [ho, Except.toOption] at h

end EcmaFront
