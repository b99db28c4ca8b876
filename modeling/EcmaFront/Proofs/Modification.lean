import EcmaFront.Proofs.Capture

/-!
What a function tells of changes behind its parameters. A parameter counts as modified where a write
to it escapes to the function, or where any name may be looked up; `arguments` counts as modified
where it is a variable of the function, and where the function takes parameters and a write to it
escapes.
-/

set_option autoImplicit false

namespace EcmaFront

namespace Frame

theorem modified_finishLexical (f : Frame) :
    f.finishLexical.captureDeclared.2.modifiedParameter = f.captureDeclared.2.modifiedParameter ∧
      f.finishLexical.captureDeclared.2.modifiedArguments =
      f.captureDeclared.2.modifiedArguments := by
  have ho := f.isOpen_finishLexical
  unfold captureDeclared
  rw [ho]
  split
  · exact ⟨rfl, rfl⟩
  · unfold finishLexical
    split <;> exact ⟨rfl, rfl⟩

theorem modifiedParameter_iff (f : Frame) :
    f.captureDeclared.2.modifiedParameter = true ↔
      f.isOpen = true ∨ ∃ x ∈ f.parameters, f.written.contains x = true := by
  unfold captureDeclared
  split
  · next ho => simp [ho]
  · next ho =>
    simp only [List.any_eq_true, Bool.and_eq_true, Bool.not_eq_true']
    constructor
    · rintro ⟨x, hx, -, hw⟩
      exact .inr ⟨x, hx, hw⟩
    · rintro (h | ⟨x, hx, hw⟩)
      · exact absurd h ho
      · exact ⟨x, hx, List.isEmpty_eq_false_iff.2 (List.ne_nil_of_mem hx), hw⟩

theorem modifiedArguments_iff (f : Frame) :
    f.captureDeclared.2.modifiedArguments = true ↔ f.isOpen = false ∧
      (f.shadowsArguments = true ∨
        ((∃ x, x ∈ f.parameters) ∧ f.written.contains "arguments" = true)) := by
  unfold captureDeclared
  split
  · next ho => simp [ho]
  · next ho =>
    rw [Bool.not_eq_true] at ho
    simp only [Bool.or_eq_true, Bool.and_eq_true, Bool.not_eq_true',
      List.isEmpty_eq_false_iff_exists_mem, ho, true_and]

end Frame

namespace ScopeRun

/-- A name may be looked up at run time in the frame that the run is the inside of. -/
def Opens (r : ScopeRun) : Prop := r.UsesEval ∨ r.Activates

/-- What a frame of a function or program tells of modifications, after whatever happened inside and
in the frames that were left there. The flags are told of the frame as it stands, and once more when
it is finished. -/
theorem modifications (s : Scopes) {o : Opening} (ho : o.isBlock = false) (body : ScopeRun) :
    ∃ f fs, body.perform (s.enter o) = ⟨f :: fs⟩ ∧
      (∀ x, f.written.contains x = true ↔ body.WritesFreely x) ∧
      (f.captureDeclared.2.modifiedParameter = true ↔
        body.Opens ∨ ∃ x, body.TakesParameter x ∧ body.WritesFreely x) ∧
      (f.captureDeclared.2.modifiedArguments = true ↔ ¬ body.Opens ∧
        (body.DeclaresVar "arguments" ∨ body.TakesParameter "arguments" ∨
          ((∃ x, body.TakesParameter x) ∧ body.WritesFreely "arguments"))) ∧
      f.finish.2.modifiedParameter = f.captureDeclared.2.modifiedParameter ∧
      f.finish.2.modifiedArguments = f.captureDeclared.2.modifiedArguments := by
  have he : body.Effects True True True (s.enter o).frames (body.perform (s.enter o)).frames :=
    effects body (List.cons_ne_nil _ _) fun _ => by simp [Scopes.enter, Scopes.push, ho]
  generalize hp : body.perform (s.enter o) = s' at he
  obtain ⟨_ | ⟨f, fs⟩⟩ := s'
  · cases he
  have hf : body.Effect True True True (o.frame s.strict) f := by
    cases he with | cons h _ => exact h
  have hopen : f.isOpen = true ↔ body.Opens := by
    rw [Frame.isOpen, Bool.or_eq_true, hf.usesEval, hf.fullActivation]
    simp [Opens]
  have hwritten (x : String) : f.written.contains x = true ↔ body.WritesFreely x := by
    simpa using hf.written x
  have hparameters (x : String) : x ∈ f.parameters ↔ body.TakesParameter x := by
    simpa [ho] using hf.parameters x
  have hshadows : f.shadowsArguments = true ↔
      body.DeclaresVar "arguments" ∨ body.TakesParameter "arguments" := by
    simpa [ho] using hf.shadowsArguments
  obtain ⟨hmp, hma⟩ := f.modified_finishLexical
  refine ⟨f, fs, rfl, hwritten, ?_, ?_, hmp, hma⟩
  · rw [f.modifiedParameter_iff, hopen]
    simp only [hparameters, hwritten]
  · rw [f.modifiedArguments_iff, ← Bool.not_eq_true, hopen, hshadows, hwritten, or_assoc]
    simp only [hparameters]

/-- A function without parameters does not tell of a write to `arguments`. -/
theorem modifications_without_parameters :
    Opening.isBlock (.function .plainFunction .none (some "f") false false) = false ∧
      ∃ f fs, ScopeRun.perform (.move (.write "arguments") .done)
          ((Scopes.empty.enter (.program .script false .none)).enter
            (.function .plainFunction .none (some "f") false false)) = ⟨f :: fs⟩ ∧
        f.written.contains "arguments" = true ∧ f.finish.2.modifiedArguments = false := by
  have hw : ScopeRun.WritesFreely (.move (.write "arguments") .done) "arguments" :=
    ⟨[], nofun, .here _ _⟩
  obtain ⟨f, fs, hf, hwritten, -, ha, -, hfinish⟩ :=
    modifications (Scopes.empty.enter (.program .script false .none))
      (o := .function .plainFunction .none (some "f") false false) rfl
      (.move (.write "arguments") .done)
  refine ⟨rfl, f, fs, hf, (hwritten _).2 hw, ?_⟩
  rw [hfinish, ← Bool.not_eq_true, ha]
  simp [DeclaresVar, TakesParameter, makes_move]

end ScopeRun

end EcmaFront
