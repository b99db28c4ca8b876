import EcmaFront.Proofs.Frames
import EcmaFront.Proofs.Reach

/-!
Which frames are open around a place, and which of them are strict. Only entering and leaving a
frame and a directive for strict code change that.
-/

set_option autoImplicit false

namespace EcmaFront

/-- The kind of a frame, and whether its code is strict. -/
def Frame.outline (f : Frame) : FrameKind × Bool := (f.kind, f.strict)

theorem Frame.strict_finish (f : Frame) : f.finish.2.strict = f.strict := by
  have hl : f.finishLexical.strict = f.strict := by
    unfold finishLexical
    split <;> rfl
  refine Eq.trans ?_ hl
  simp only [finish, captureDeclared]
  split <;> rfl

def turnedStrict : List (FrameKind × Bool) → List (FrameKind × Bool)
  | [] => []
  | (kind, strict) :: rest =>
    if kind = .block then (kind, strict) :: turnedStrict rest else (kind, true) :: rest

theorem turnedStrict_idem (o : List (FrameKind × Bool)) :
    turnedStrict (turnedStrict o) = turnedStrict o := by
  induction o with
  | nil => rfl
  | cons m rest ih =>
    obtain ⟨kind, strict⟩ := m
    by_cases h : kind = .block <;> simp [turnedStrict, h, ih]

theorem length_turnedStrict (o : List (FrameKind × Bool)) : (turnedStrict o).length = o.length := by
  induction o with
  | nil => rfl
  | cons m rest ih =>
    rw [turnedStrict]
    split <;> simp [ih]

namespace Scopes

def outline (s : Scopes) : List (FrameKind × Bool) := s.frames.map Frame.outline

variable {s s' : Scopes}

theorem strict_eq_outline (s : Scopes) : s.strict = s.outline.head?.any (·.2) := by
  rcases s with ⟨_ | ⟨f, rest⟩⟩ <;> rfl

theorem strict_congr (h : s'.outline = s.outline) : s'.strict = s.strict := by
  rw [strict_eq_outline, strict_eq_outline, h]

theorem inBlock_eq_outline (s : Scopes) :
    s.top?.any (·.isBlock) = s.outline.head?.any (·.1 == .block) := by
  rcases s with ⟨_ | ⟨f, rest⟩⟩ <;> rfl

theorem inBlock_congr (h : s'.outline = s.outline) :
    s'.top?.any (·.isBlock) = s.top?.any (·.isBlock) := by
  rw [inBlock_eq_outline, inBlock_eq_outline, h]

theorem inBlock_of_turnedStrict (h : s'.outline = turnedStrict s.outline) :
    s'.top?.any (·.isBlock) = s.top?.any (·.isBlock) := by
  rw [inBlock_eq_outline, inBlock_eq_outline, h]
  cases s.outline with
  | nil => rfl
  | cons m rest =>
    rw [turnedStrict]
    split <;> rfl

theorem strict_of_turnedStrict (h : s'.outline = turnedStrict s.outline) (hs : s.strict = true) :
    s'.strict = true := by
  rw [strict_eq_outline] at hs ⊢
  rw [h]
  cases ho : s.outline with
  | nil => rwa [ho] at hs
  | cons m rest =>
    rw [turnedStrict]
    split
    · rwa [ho] at hs
    · rfl

theorem isFunction_eq_outline (s : Scopes) : s.function?.any (·.isFunction) =
    (s.outline.find? (·.1 != .block)).any (·.1 == .function) := by
  simp only [outline, List.find?_map, Option.any_map]
  rfl

theorem isFunction_congr (h : s'.outline = s.outline) :
    s'.function?.any (·.isFunction) = s.function?.any (·.isFunction) := by
  rw [isFunction_eq_outline, isFunction_eq_outline, h]

theorem isFunction_of_turnedStrict (h : s'.outline = turnedStrict s.outline) :
    s'.function?.any (·.isFunction) = s.function?.any (·.isFunction) := by
  rw [isFunction_eq_outline, isFunction_eq_outline, h]
  generalize s.outline = o
  induction o with
  | nil => rfl
  | cons m rest ih =>
    obtain ⟨kind, strict⟩ := m
    by_cases hk : kind = .block <;> simp [turnedStrict, hk, ih]

theorem truncate_of_outline (h : s'.outline.length = s.outline.length) :
    s'.truncate s.depth = s' := by
  have hd : s.depth = s'.depth := by simpa [outline, depth] using h.symm
  rw [hd, truncate_depth]

@[simp] theorem outline_push (s : Scopes) (f : Frame) :
    (s.push f).outline = f.outline :: s.outline := rfl

@[simp] theorem outline_pop (s : Scopes) (trackClosed : Bool) :
    (s.pop trackClosed).outline = s.outline.tail := by
  rcases s with ⟨_ | ⟨_, _ | ⟨_, _⟩⟩⟩ <;> rfl

theorem outline_modifyTop {change : Frame → Frame} (h : ∀ f, (change f).outline = f.outline) :
    (s.modifyTop change).outline = s.outline := map_modifyTop h

theorem outline_modifyFirst {p : Frame → Bool} {change : Frame → Frame}
    (h : ∀ f, (change f).outline = f.outline) :
    (s.modifyFirst p change).outline = s.outline := map_modifyFirst h

theorem outline_declareVar (name : String) : (s.declareVar name).1.outline = s.outline := by
  cases hs : s.frames.any (·.isBoundary) with
  | true =>
    rw [declareVar_eq hs]
    refine map_reach (fun f => ?_) (fun f => ?_) s.frames <;> rfl
  | false => rw [declareVar_unbounded hs]

theorem outline_declareLexical (name : String) (constant : Bool) :
    (s.declareLexical name constant).1.outline = s.outline := by
  rcases s with ⟨_ | ⟨f, rest⟩⟩ <;> rfl

theorem outline_declare (name : String) (kind : VariableKind) :
    (s.declare name kind).1.outline = s.outline := by
  rcases kind with _ | _ | _
  · exact outline_declareVar name
  · exact outline_declareLexical name false
  · exact outline_declareLexical name true

theorem strict_of_declare {name : String} {kind : VariableKind}
    (h : (s.declare name kind).2.strict = false) :
    isRestricted name = false := by
  rcases kind with _ | _ | _
  · simp only [declare, declareVar] at h
    split at h <;> exact h
  all_goals
    rcases s with ⟨_ | ⟨f, rest⟩⟩ <;>
      simp only [declare, declareLexical, Frame.declareLexical, Bool.or_eq_false_iff] at h <;>
      exact h.1

theorem outline_declareParameter (name : String) :
    (s.declareParameter name).1.outline = s.outline := by
  unfold declareParameter
  split
  · rfl
  · exact outline_modifyFirst fun _ => rfl

theorem outline_declareCatch (name : String) : (s.declareCatch name).1.outline = s.outline := by
  rcases s with ⟨_ | ⟨f, rest⟩⟩ <;> rfl

theorem outline_declarationOf (name : String) (form : BindingForm) :
    (Parse.declarationOf name form s).1.outline = s.outline := by
  rcases form with kind | _ | _ | _
  · exact outline_declare name kind
  · exact outline_declareParameter name
  · exact outline_declareCatch name
  · rfl

theorem outline_strict :
    (s.modifyFunction ({ · with strict := true })).outline = turnedStrict s.outline := by
  rcases s with ⟨frames⟩
  simp only [modifyFunction, modifyFirst, outline]
  induction frames with
  | nil => rfl
  | cons f rest ih =>
    rw [modifyFirstIn, List.map_cons, turnedStrict]
    cases hk : f.kind <;> simp [Frame.isBoundary, hk, Frame.outline]
    exact ih

theorem map_grown {β : Type} {g : Frame → β} (hg : ∀ {f f' : Frame}, f.Grown f' → g f' = g f)
    {fs fs' : List Frame} (h : List.Forall₂ Frame.Grown fs fs') : fs'.map g = fs.map g := by
  induction h with
  | nil => rfl
  | cons hf _ ih => rw [List.map_cons, List.map_cons, hg hf, ih]

theorem outline_grown {fs fs' : List Frame} (h : List.Forall₂ Frame.Grown fs fs') :
    (Scopes.mk fs').outline = (Scopes.mk fs).outline :=
  map_grown (fun hf => by rw [Frame.outline, Frame.outline, hf.kind, hf.strict]) h

end Scopes

namespace Parse

variable {c : ParseContext} {s s' : ParseState}

theorem finishBlock_ok {scope : Environment} (h : finishBlock c s = (.ok scope, s')) :
    s.scopes = .empty ∧ s' = s ∨ ∃ f rest, s.scopes = ⟨f :: rest⟩ ∧ scope = f.finishBlock.2 ∧
      s' = { s with scopes := Scopes.pop ⟨f.finishBlock.1 :: rest⟩ true } := by
  unfold finishBlock at h
  rw [ask_run] at h
  rcases hs : s.scopes with ⟨_ | ⟨f, rest⟩⟩ <;>
    simp only [hs, Scopes.top?, List.head?, Prod.mk.injEq, Except.ok.injEq] at h
  · exact .inl ⟨rfl, h.2.symm⟩
  · exact .inr ⟨f, rest, rfl, h.1.symm, h.2.symm⟩

theorem finishFunction_ok {scope : ScopeSummary} (h : finishFunction c s = (.ok scope, s')) :
    s.scopes = .empty ∧ s' = s ∨ ∃ f rest, s.scopes = ⟨f :: rest⟩ ∧ scope = f.finish.2 ∧
      s' = { s with scopes := Scopes.pop ⟨f.finish.1 :: rest⟩ true } := by
  unfold finishFunction at h
  rw [ask_run] at h
  rcases hs : s.scopes with ⟨_ | ⟨f, rest⟩⟩ <;>
    simp only [hs, Scopes.top?, List.head?, Prod.mk.injEq, Except.ok.injEq] at h
  · exact .inl ⟨rfl, h.2.symm⟩
  · exact .inr ⟨f, rest, rfl, h.1.symm, h.2.symm⟩

theorem outline_finishBlock {scope : Environment} (h : finishBlock c s = (.ok scope, s')) :
    s'.scopes.outline = s.scopes.outline.tail := by
  obtain ⟨hs, rfl⟩ | ⟨f, rest, hs, -, rfl⟩ := finishBlock_ok h <;> rw [hs]
  · rfl
  · exact Scopes.outline_pop _ true

theorem outline_finishFunction {scope : ScopeSummary} (h : finishFunction c s = (.ok scope, s')) :
    s'.scopes.outline = s.scopes.outline.tail := by
  obtain ⟨hs, rfl⟩ | ⟨f, rest, hs, -, rfl⟩ := finishFunction_ok h <;> rw [hs]
  · rfl
  · exact Scopes.outline_pop _ true

end Parse

end EcmaFront
