import EcmaFront.Proofs.AgreeStatement
import EcmaFront.Proofs.Scanning
import Mathlib.Data.List.Forall2
import Mathlib.Data.List.TakeDrop

/-!
What happens to the frames around a phrase while it is read, also if it is broken off. Questions
about the tokens ahead change nothing. A phrase that is an expression may use, write and capture
names in the frames around it but declares nothing there; so when it is given up, and the frames
that it opened are forgotten, every other frame is what it was, with more names used.
-/

set_option autoImplicit false

namespace EcmaFront

theorem Scopes.truncate_depth (s : Scopes) : s.truncate s.depth = s := by
  simp [Scopes.truncate, Scopes.depth]

namespace Event

def isWentBack : Event → Bool
  | .wentBack _ _ => true
  | _ => false

def isStrictDirective : Event → Bool
  | .strictDirective _ => true
  | _ => false

/-- How many readings were given up. A list that turns strict is gone back to as well, but on
purpose. -/
def givenUp (events : List Event) : Int :=
  events.countP isWentBack - events.countP isStrictDirective

end Event

namespace ParseState

theorem Shifts.view {s s' : ParseState} (h : s.Shifts s') : s'.lexer.view = s.lexer.view := by
  cases h with
  | next => exact Lexer.view_next _ _
  | readRegexp => exact (Lexer.regexp_advances _ _ _).1
  | _ => rfl

/-- Frames, journal and text are what they were, and no write that waits is forgotten. -/
structure Unmoved (s s' : ParseState) : Prop where
  scopes : s'.scopes = s.scopes
  journal : s'.journal = s.journal
  pendingWrites : s.pendingWrites <:+ s'.pendingWrites
  view : s'.lexer.view = s.lexer.view

theorem Unmoved.refl (s : ParseState) : s.Unmoved s := ⟨rfl, rfl, List.suffix_rfl, rfl⟩

theorem Unmoved.shift {s₀ s s' : ParseState} (h : s₀.Unmoved s) (hs : s.Shifts s') :
    s₀.Unmoved s' :=
  ⟨hs.scopes.trans h.scopes, hs.journal.trans h.journal, h.pendingWrites.trans hs.pendingWrites,
    hs.view.trans h.view⟩

theorem suffix_commit {p : List (String × Extent)} {s₀ s : ParseState} (h₀ : p <:+ s₀.pendingWrites)
    (h : p <:+ s.pendingWrites) : p <:+ (s.commit s₀.checkpoint).pendingWrites := by
  refine List.suffix_of_suffix_length_le h (List.drop_suffix _ _) ?_
  have hp := h₀.length_le
  have hq := h.length_le
  simp only [commit, checkpoint, List.length_drop]
  omega

theorem commit_of_suffix {s₀ s : ParseState} (h : s₀.pendingWrites <:+ s.pendingWrites) :
    (s.commit s₀.checkpoint).pendingWrites = s₀.pendingWrites := by
  obtain ⟨fresh, hf⟩ := h
  simp [commit, checkpoint, ← hf]

end ParseState

def StillInvariant.unmoved (s₀ : ParseState) : StillInvariant where
  recordings r r' := r = r'
  holds _ s _ := s₀.Unmoved s
  broken _ s _ := s₀.Unmoved s
  breaks h := h
  shallower h := h
  quiet h hs := h.shift hs
  brokenQuiet h hs := h.shift hs
  rewind {d s s₁ j j₁} h₁ h := by
    refine ⟨?_, h.journal, ParseState.suffix_commit h₁.pendingWrites h.pendingWrites,
      (Lexer.view_next _ _).trans h.view⟩
    show s.scopes.truncate s₁.scopes.depth = s₀.scopes
    rw [h.scopes, h₁.scopes, Scopes.truncate_depth]

namespace ParseState

/-- Only the tokens that were looked at set the states apart, and what is told by no checkpoint. -/
structure Resembles (s s' : ParseState) : Prop where
  scopes : s'.scopes = s.scopes
  journal : s'.journal = s.journal
  pendingWrites : s'.pendingWrites = s.pendingWrites
  richParameters : s'.richParameters = s.richParameters

theorem Resembles.refl (s : ParseState) : s.Resembles s := ⟨rfl, rfl, rfl, rfl⟩

theorem Unmoved.rewind {s t : ParseState} (h : s.Unmoved t) :
    s.Resembles (t.rewind s.checkpoint) where
  scopes := by
    show t.scopes.truncate s.scopes.depth = s.scopes
    rw [h.scopes, Scopes.truncate_depth]
  journal := h.journal
  pendingWrites := commit_of_suffix h.pendingWrites
  richParameters := rfl

/-- Only tokens ahead were looked at, and the parse went back. -/
inductive Glances (s : ParseState) : ParseState → Prop where
  | none : Glances s s
  | back {t : ParseState} (h : s.Unmoved t) : Glances s (t.rewind s.checkpoint)

theorem Glances.resembles {s s' : ParseState} (h : s.Glances s') : s.Resembles s' := by
  cases h with
  | none => exact .refl s
  | back h => exact h.rewind

theorem peekKind_glances (s : ParseState) : s.Glances s.peekKind.2 := .back (.shift (.refl s) .next)

end ParseState

namespace Parse

variable {c : ParseContext} {s s' : ParseState}

theorem unmoved_of_agrees {α : Type} {p : Parse α} {x : Except ParseError α}
    (hp : Agrees (.unmoved s) Anywhere 0 0 id p p) (h : p c s = (x, s')) : s.Unmoved s' := by
  have ha := hp.run (c := c) (r := c.recording) (s := s) (j := s.journal) (d := 0) rfl
    trivial (.refl s)
  rw [h] at ha
  generalize p _ _ = y at ha
  cases ha with
  | ok h => exact h
  | error h => exact h

theorem rewind_glances {α : Type} {p : Parse α} {a : α}
    (hp : Agrees (.unmoved s) Anywhere 0 0 id p p)
    (h : (do let found ← p; modify (·.rewind s.checkpoint); pure found : Parse α) c
      s = (.ok a, s')) :
    s.Glances s' := by
  simp only [bind_ok, modify_run, Prod.mk.injEq, pure_ok] at h
  obtain ⟨_, t, hr, _, _, ⟨-, rfl⟩, -, rfl⟩ := h
  exact .back (unmoved_of_agrees hp hr)

theorem atLetDeclaration_glances {found : Bool} (h : atLetDeclaration c s = (.ok found, s')) :
    s.Glances s' := by
  simp only [atLetDeclaration, state_bind, ite_ok, pure_ok, peekKind, ask_bind] at h
  obtain ⟨-, -, rfl⟩ | ⟨-, h⟩ := h
  · exact .none
  · replace h : Yields _ c _ _ := h
    split at h
    all_goals
      obtain ⟨-, rfl⟩ := pure_ok.1 h
      exact s.peekKind_glances

theorem followsBrackets_glances {accept : ParseState → Bool} {found : Bool}
    (ha : ∀ s j, accept (s.withJournal j) = accept s)
    (h : followsBrackets accept c s = (.ok found, s')) :
    s.Glances s' :=
  rewind_glances (.repeatFrom rfl (.skipBracketed ha)) h

theorem atArrowFunction_glances {found : Bool} (h : atArrowFunction c s = (.ok found, s')) :
    s.Glances s' := by
  rw [atArrowFunction, state_bind] at h
  replace h : Yields _ c s _ := h
  split at h
  · simp only [Yields, ask_run, Prod.mk.injEq] at h
    obtain ⟨-, rfl⟩ := h
    exact s.peekKind_glances
  · exact followsBrackets_glances (fun _ _ => rfl) h
  · obtain ⟨-, rfl⟩ := pure_ok.1 h
    exact .none

theorem labelsLoop_glances {found : Bool} (h : labelsLoop c s = (.ok found, s')) : s.Glances s' :=
  rewind_glances (.repeatFrom rfl .labelRound) h

theorem accessor?_glances {found : Option PropertyKind} (h : accessor? c s = (.ok found, s')) :
    s.Glances s' := by
  rw [accessor?, state_bind] at h
  replace h : Yields _ c s _ := h
  split at h
  · obtain ⟨-, rfl⟩ := pure_ok.1 h
    exact .none
  · simp only [Yields, peekKind, ask_bind] at h
    replace h : Yields _ c _ _ := h
    split at h
    all_goals
      obtain ⟨-, rfl⟩ := pure_ok.1 h
      exact s.peekKind_glances

theorem headKind?_glances {found : Option VariableKind} (h : headKind? c s = (.ok found, s')) :
    s.Glances s' := by
  rw [headKind?, state_bind] at h
  replace h : Yields _ c s _ := h
  split at h
  case h_3 =>
    simp only [Yields, bind_ok] at h
    obtain ⟨_, _, hl, h⟩ := h
    obtain ⟨-, rfl⟩ := pure_ok.1 h
    exact atLetDeclaration_glances hl
  all_goals
    obtain ⟨-, rfl⟩ := pure_ok.1 h
    exact .none

theorem colonFollows_resembles {found : Bool} (h : colonFollows c s = (.ok found, s')) :
    s.Resembles s' := by
  simp only [colonFollows, ask_run, Prod.mk.injEq] at h
  obtain ⟨-, rfl⟩ := h
  exact ⟨rfl, rfl, rfl, rfl⟩

end Parse

/-- The frame `g` is the frame `f` after names were used, written or captured in it. -/
def Frame.Grown (f g : Frame) : Prop :=
  (∀ name, f.used.contains name = true → g.used.contains name = true) ∧
    g = { f with
      used := g.used
      written := g.written
      closed := g.closed
      usesEval := g.usesEval
      directSuper := g.directSuper
      superBinding := g.superBinding }

namespace Frame.Grown

variable {f g h : Frame}

theorem refl (f : Frame) : f.Grown f := ⟨fun _ h => h, rfl⟩

theorem trans (hfg : f.Grown g) (hgh : g.Grown h) : f.Grown h := by
  refine ⟨fun name hn => hgh.1 name (hfg.1 name hn), ?_⟩
  rw [hgh.2, hfg.2]

theorem kind (h : f.Grown g) : g.kind = f.kind := by rw [h.2]

theorem strict (h : f.Grown g) : g.strict = f.strict := by rw [h.2]

instance : Std.Refl Frame.Grown := ⟨refl⟩

theorem use (f : Frame) (name : String) : f.Grown (f.use name) :=
  ⟨fun x hx => by simp [Frame.use, hx], rfl⟩

theorem write (f : Frame) (name : String) : f.Grown (f.write name) := ⟨fun _ h => h, rfl⟩

theorem collect (f inner : Frame) (trackClosed : Bool) : f.Grown (f.collect inner trackClosed) :=
  ⟨fun x hx => by simp [Frame.collect, hx], rfl⟩

end Frame.Grown

/-- A change of frames up to the nearest function or program. -/
inductive Reshaped : List Frame → List Frame → Prop where
  | boundary {f g : Frame} {rest : List Frame} (hf : f.isBoundary = true) (hk : g.kind = f.kind) :
    Reshaped (f :: rest) (g :: rest)
  | block {f g : Frame} {rest rest' : List Frame} (hf : f.isBoundary = false) (hk : g.kind = f.kind)
    (h : Reshaped rest rest') :
    Reshaped (f :: rest) (g :: rest')

/-- Above grown frames so many more are open, the first of them a function or program. -/
inductive Above (base : List Frame) : Nat → List Frame → Prop where
  | none {frames : List Frame} (h : List.Forall₂ Frame.Grown base frames) : Above base 0 frames
  | first {f : Frame} {frames : List Frame} (hf : f.isBoundary = true) (h : Above base 0 frames) :
    Above base 1 (f :: frames)
  | more {d : Nat} {f : Frame} {frames : List Frame} (h : Above base (d + 1) frames) :
    Above base (d + 2) (f :: frames)

namespace Above

variable {base : List Frame} {d : Nat} {frames frames' : List Frame}

theorem forall₂_trans {l l' l'' : List Frame} (h : List.Forall₂ Frame.Grown l l')
    (h' : List.Forall₂ Frame.Grown l' l'') : List.Forall₂ Frame.Grown l l'' := by
  induction h generalizing l'' with
  | nil => cases h'; exact .nil
  | cons hf _ ih =>
    cases h' with
    | cons hg h' => exact .cons (hf.trans hg) (ih h')

theorem isBoundary_of_kind {f g : Frame} (h : g.kind = f.kind) : g.isBoundary = f.isBoundary := by
  simp only [Frame.isBoundary, h]

theorem grow (ha : Above base d frames) (h : List.Forall₂ Frame.Grown frames frames') :
    Above base d frames' := by
  induction ha generalizing frames' with
  | none hb => exact .none (forall₂_trans hb h)
  | first hf _ ih =>
    cases h with
    | cons hg h => exact .first ((isBoundary_of_kind hg.kind).trans hf) (ih h)
  | more _ ih =>
    cases h with
    | cons _ h => exact .more (ih h)

theorem reshape (hd : 0 < d) (ha : Above base d frames) (h : Reshaped frames frames') :
    Above base d frames' := by
  induction h generalizing d with
  | boundary hf hk =>
    cases ha with
    | none => cases hd
    | first _ h => exact .first ((isBoundary_of_kind hk).trans hf) h
    | more h => exact .more h
  | block hf hk _ ih =>
    cases ha with
    | none => cases hd
    | first ht h => rw [hf] at ht; cases ht
    | more h => exact .more (ih (Nat.succ_pos _) h)

theorem pop {f : Frame} (ha : Above base (d + 1) (f :: frames)) : Above base d frames := by
  cases ha with
  | first _ h => exact h
  | more h => exact h

theorem push (ha : Above base d frames) (f : Frame) (hf : 0 < d ∨ f.isBoundary = true) :
    Above base (d + 1) (f :: frames) := by
  cases d with
  | zero => exact .first (hf.resolve_left (Nat.lt_irrefl 0)) ha
  | succ d => exact .more ha

theorem length_eq (ha : Above base d frames) : frames.length = base.length + d := by
  induction ha with
  | none h => exact h.length_eq.symm
  | first _ _ ih => simp [ih]
  | more _ ih => simp [ih]; omega

theorem drop (k : Nat) (ha : Above base (d + k) frames) : Above base d (frames.drop k) := by
  induction k generalizing frames with
  | zero => exact ha
  | succ k ih =>
    cases frames with
    | nil => exact absurd ha.length_eq (by simp)
    | cons f frames => exact ih ha.pop

theorem exists_boundary (hd : 0 < d) (ha : Above base d frames) :
    frames.any (·.isBoundary) = true := by
  induction ha with
  | none => cases hd
  | first hf _ _ => simp [hf]
  | more _ ih => simp [ih (Nat.succ_pos _)]

end Above

namespace Reshaped

variable {frames : List Frame}

theorem refl (h : frames.any (·.isBoundary) = true) : Reshaped frames frames := by
  induction frames with
  | nil => cases h
  | cons f frames ih =>
    cases hf : f.isBoundary with
    | true => exact .boundary hf rfl
    | false => exact .block hf rfl (ih (by simpa [hf] using h))

theorem modifyTop (h : frames.any (·.isBoundary) = true) {g : Frame → Frame}
    (hc : ∀ f, (g f).kind = f.kind) : Reshaped frames ((Scopes.mk frames).modifyTop g).frames := by
  cases frames with
  | nil => cases h
  | cons f frames =>
    cases hf : f.isBoundary with
    | true => exact .boundary hf (hc f)
    | false => exact .block hf (hc f) (refl (by simpa [hf] using h))

theorem modifyFunction (h : frames.any (·.isBoundary) = true) {change : Frame → Frame}
    (hc : ∀ f, (change f).kind = f.kind) :
    Reshaped frames ((Scopes.mk frames).modifyFunction change).frames := by
  simp only [Scopes.modifyFunction, Scopes.modifyFirst]
  induction frames with
  | nil => cases h
  | cons f frames ih =>
    cases hf : f.isBoundary with
    | true => simpa only [Scopes.modifyFirstIn, hf, if_true] using .boundary hf (hc f)
    | false =>
      simp only [Scopes.modifyFirstIn, hf, Bool.false_eq_true, if_false]
      exact .block hf rfl (ih (by simpa [hf] using h))

theorem span (h : frames.any (·.isBoundary) = true) {p q : Frame → Frame}
    (hp : ∀ f, (p f).kind = f.kind) (hh : ∀ f, (q f).kind = f.kind) :
    ∃ blocks target outer, frames.span (·.isBlock) = (blocks, target :: outer) ∧
      Reshaped frames (blocks.map p ++ q target :: outer) := by
  simp only [List.span_eq_takeWhile_dropWhile]
  induction frames with
  | nil => cases h
  | cons f frames ih =>
    cases hf : f.isBoundary with
    | true => exact ⟨[], f, frames, by simp [Frame.isBlock_eq, hf], .boundary hf (hh f)⟩
    | false =>
      obtain ⟨blocks, target, outer, he, hr⟩ := ih (by simpa [hf] using h)
      refine ⟨f :: blocks, target, outer, ?_, .block hf (hp f) hr⟩
      simp only [Prod.mk.injEq] at he
      simpa [Frame.isBlock_eq, hf] using he

theorem declareVar (h : frames.any (·.isBoundary) = true) (name : String) :
    Reshaped frames ((Scopes.mk frames).declareVar name).1.frames := by
  obtain ⟨blocks, target, outer, he, hr⟩ := span h (q := (·.declareVar name))
    (p := fun f => { f with hoisted := f.hoisted.insert name }) (fun _ => rfl) fun _ => rfl
  simpa only [Scopes.declareVar, he] using hr

theorem declareLexical (h : frames.any (·.isBoundary) = true) (name : String) (constant : Bool) :
    Reshaped frames ((Scopes.mk frames).declareLexical name constant).1.frames := by
  have hr := modifyTop h (g := fun f => (f.declareLexical name constant).1) fun _ => rfl
  cases frames with
  | nil => cases h
  | cons f frames => exact hr

theorem declareCatch (h : frames.any (·.isBoundary) = true) (name : String) :
    Reshaped frames ((Scopes.mk frames).declareCatch name).1.frames := by
  have hr := modifyTop h (g := fun f => (f.declareCatch name).1) fun _ => rfl
  cases frames with
  | nil => cases h
  | cons f frames => exact hr

theorem declareParameter (h : frames.any (·.isBoundary) = true) (name : String) :
    Reshaped frames ((Scopes.mk frames).declareParameter name).1.frames := by
  simp only [Scopes.declareParameter]
  split
  · exact refl h
  · exact modifyFunction h fun _ => rfl

theorem declarationOf (h : frames.any (·.isBoundary) = true) (name : String) (form : BindingForm) :
    Reshaped frames (Parse.declarationOf name form ⟨frames⟩).1.frames := by
  rcases form with ⟨_ | _ | _⟩ | _ | _ | _
  · exact declareVar h name
  · exact declareLexical h name false
  · exact declareLexical h name true
  · exact declareParameter h name
  · exact declareCatch h name
  · exact refl h

theorem kind_of_marks {change : Frame → Frame} (h : Frame.Marks change) (f : Frame) :
    (change f).kind = f.kind := by
  obtain ⟨_, _, _, hf⟩ := h f
  rw [hf]

theorem activate (h : frames.any (·.isBoundary) = true) :
    Reshaped frames (Scopes.mk frames).activate.frames := by
  obtain ⟨blocks, target, outer, he, hr⟩ := span h (p := ({ · with fullActivation := true }))
    (q := ({ · with fullActivation := true })) (fun _ => rfl) fun _ => rfl
  simpa only [Scopes.activate, he] using hr

end Reshaped

namespace Above

variable {base : List Frame} {d : Nat} {frames : List Frame}

theorem modifyTop (ha : Above base d frames) {change : Frame → Frame}
    (hc : ∀ f : Frame, f.Grown (change f)) :
    Above base d ((Scopes.mk frames).modifyTop change).frames := by
  refine ha.grow ?_
  cases frames with
  | nil => exact .nil
  | cons f frames => exact .cons (hc f) (List.forall₂_refl _)

theorem modifyReceiver (ha : Above base d frames) {change : Frame → Frame}
    (hc : ∀ f : Frame, f.Grown (change f)) :
    Above base d ((Scopes.mk frames).modifyReceiver change).frames := by
  refine ha.grow ?_
  simp only [Scopes.modifyReceiver, Scopes.modifyFirst]
  clear ha
  induction frames with
  | nil => exact .nil
  | cons f frames ih =>
    simp only [Scopes.modifyFirstIn]
    split
    · exact .cons (hc f) (List.forall₂_refl _)
    · exact .cons (.refl f) ih

theorem leave {f g : Frame} (ha : Above base (d + 1) (f :: frames)) :
    Above base d ((Scopes.mk (g :: frames)).pop true).frames := by
  have h := ha.pop
  cases frames with
  | nil => exact h
  | cons outer rest => exact h.grow (.cons (.collect outer g true) (List.forall₂_refl rest))

end Above

namespace ParseState

theorem givenUp_congr {s s' : ParseState} (h : s'.journal = s.journal) :
    Event.givenUp s'.events = Event.givenUp s.events :=
  congrArg (Event.givenUp ·.events) h

theorem givenUp_backtrack (s : ParseState) (point : Checkpoint) :
    Event.givenUp s.events < Event.givenUp (s.backtrack point).events := by
  show _ < Event.givenUp (.wentBack _ _ :: s.events)
  simp only [Event.givenUp, List.countP_cons, Event.isWentBack, Event.isStrictDirective, if_true,
    Bool.false_eq_true, if_false]
  omega

theorem givenUp_restart (s : ParseState) (directive : Nat) (point : Checkpoint) :
    Event.givenUp (s.restart directive point).events = Event.givenUp s.events := by
  show Event.givenUp (.wentBack _ _ :: .strictDirective _ :: s.events) = _
  simp only [Event.givenUp, List.countP_cons, Event.isWentBack, Event.isStrictDirective, if_true,
    Bool.false_eq_true, if_false]
  omega

end ParseState

/-- Above the frames of a state others may be open, and the state has grown only. -/
structure Above.Of (base : ParseState) (d : Nat) (s : ParseState) : Prop where
  frames : Above base.scopes.frames d s.scopes.frames
  pendingWrites : base.pendingWrites <:+ s.pendingWrites
  givenUp : Event.givenUp base.events ≤ Event.givenUp s.events

theorem Above.Of.refl (s : ParseState) : Above.Of s 0 s :=
  ⟨.none (List.forall₂_refl _), List.suffix_rfl, Int.le_refl _⟩

theorem Above.Of.shift {base s s' : ParseState} {d : Nat} (h : Above.Of base d s)
    (hs : s.Shifts s') :
    Above.Of base d s' :=
  ⟨hs.scopes ▸ h.frames, h.pendingWrites.trans hs.pendingWrites,
    Int.le_trans h.givenUp (Int.le_of_eq (ParseState.givenUp_congr hs.journal).symm)⟩

theorem Above.Of.congr {base s s' : ParseState} {d d' : Nat} (h : Above.Of base d s)
    (hf : Above base.scopes.frames d' s'.scopes.frames) (hp : s'.pendingWrites = s.pendingWrites)
    (he : s'.events = s.events) : Above.Of base d' s' :=
  ⟨hf, hp ▸ h.pendingWrites, he ▸ h.givenUp⟩

theorem Above.Of.broken_shallower {base s : ParseState} {d : Nat}
    (h : ∃ k, Above.Of base (d + 1 + k) s) :
    ∃ k, Above.Of base (d + k) s := by
  obtain ⟨k, h⟩ := h
  rw [Nat.add_right_comm] at h
  exact ⟨k + 1, h⟩

def Invariant.above (base : ParseState) : Invariant where
  recordings r r' := r = r'
  holds d s _ := Above.Of base d s
  broken d s _ := ∃ k, Above.Of base (d + k) s
  breaks h := ⟨0, h⟩
  shallower := Above.Of.broken_shallower
  quiet h hs := h.shift hs
  brokenQuiet h hs := h.imp fun _ h => h.shift hs
  rewind {d s s₀ j j₀} h₀ h := by
    refine ⟨?_, ParseState.suffix_commit h₀.pendingWrites h.pendingWrites, h.givenUp⟩
    show Above base.scopes.frames d (s.scopes.truncate s₀.scopes.depth).frames
    have hd : s₀.scopes.depth = s.scopes.depth := h₀.frames.length_eq.trans h.frames.length_eq.symm
    rw [hd, Scopes.truncate_depth]
    exact h.frames
  commit h₀ h := ⟨h.frames, ParseState.suffix_commit h₀.pendingWrites h.pendingWrites, h.givenUp⟩
  use name h := h.congr (h.frames.modifyTop fun f => .use f name) rfl rfl
  write name h := h.congr (h.frames.modifyTop fun f => .write f name) rfl rfl
  directSuper h := h.congr (h.frames.modifyReceiver fun _ => ⟨fun _ h => h, rfl⟩) rfl rfl
  superBinding h := h.congr (h.frames.modifyReceiver fun _ => ⟨fun _ h => h, rfl⟩) rfl rfl
  declare name form hd h :=
    h.congr (h.frames.reshape hd (.declarationOf (h.frames.exists_boundary hd) name form)) rfl rfl
  strict hd h :=
    h.congr (h.frames.reshape hd (.modifyFunction (h.frames.exists_boundary hd) fun _ => rfl)) rfl
      rfl
  activate hd h := h.congr (h.frames.reshape hd (.activate (h.frames.exists_boundary hd))) rfl rfl
  mark hc hd h :=
    h.congr (h.frames.reshape hd
      (.modifyTop (h.frames.exists_boundary hd) (Reshaped.kind_of_marks hc))) rfl rfl
  brokenMark {d s j change} hc hd := fun ⟨k, h⟩ =>
    have hd' := Nat.add_pos_left hd k
    have hm := Reshaped.modifyTop (h.frames.exists_boundary hd') (Reshaped.kind_of_marks hc)
    ⟨k, h.congr (h.frames.reshape hd' hm) rfl rfl⟩
  pushBlock hd h := h.congr (h.frames.push _ (.inl hd)) rfl rfl
  pushFunction _ _ h := h.congr (h.frames.push _ (.inr rfl)) rfl rfl
  finishBlock {d c s j} _ h := by
    have hf := h.frames
    unfold Parse.finishBlock
    rw [Parse.ask_run]
    rcases hs : s.scopes with ⟨_ | ⟨f, rest⟩⟩ <;> rw [hs] at hf
    · exact absurd hf.length_eq (by simp)
    · exact h.congr hf.leave rfl rfl
  finishFunction {d c s j} h := by
    have hf := h.frames
    unfold Parse.finishFunction
    rw [Parse.ask_run]
    rcases hs : s.scopes with ⟨_ | ⟨f, rest⟩⟩ <;> rw [hs] at hf
    · exact absurd hf.length_eq (by simp)
    · exact h.congr hf.leave rfl rfl
  backtrack {d s s₀ j j₀} h₀ := fun ⟨k, h⟩ => by
    refine ⟨?_, ParseState.suffix_commit h₀.pendingWrites h.pendingWrites, ?_⟩
    · show Above base.scopes.frames d (s.scopes.truncate s₀.scopes.depth).frames
      have hk : s.scopes.frames.length - s₀.scopes.depth = k := by
        rw [Scopes.depth, h₀.frames.length_eq, h.frames.length_eq, Nat.add_sub_add_left,
          Nat.add_sub_cancel_left]
      rw [Scopes.truncate, hk]
      exact h.frames.drop k
    · exact Int.le_trans h.givenUp (Int.le_of_lt (ParseState.givenUp_backtrack s _))
  restart {d s s₀ j j₀} directive h₀ h := by
    refine ⟨?_, ParseState.suffix_commit h₀.pendingWrites h.pendingWrites, ?_⟩
    · show Above base.scopes.frames d (s.scopes.truncate s₀.scopes.depth).frames
      have hd : s₀.scopes.depth = s.scopes.depth :=
        h₀.frames.length_eq.trans h.frames.length_eq.symm
      rw [hd, Scopes.truncate_depth]
      exact h.frames
    · exact Int.le_trans h.givenUp (Int.le_of_eq (ParseState.givenUp_restart s directive _).symm)
  firstAccessor offset h := ⟨h.frames, h.pendingWrites, h.givenUp⟩
  keep {d s j r r'} digest _ h := by
    refine ⟨h.frames, h.pendingWrites, Int.le_trans h.givenUp (Int.le_of_eq ?_)⟩
    cases r <;> simp [ParseState.withJournal, Journal.keep, ParseState.journal, Event.givenUp,
      Event.isWentBack, Event.isStrictDirective]

def Invariant.sameView (view : View) : Invariant where
  recordings r r' := r = r'
  holds _ s _ := s.lexer.view = view
  broken _ s _ := s.lexer.view = view
  breaks h := h
  shallower h := h
  quiet h hs := hs.view.trans h
  brokenQuiet h hs := hs.view.trans h
  rewind _ h := (Lexer.view_next _ _).trans h
  commit _ h := h
  use _ h := h
  write _ h := h
  directSuper h := h
  superBinding h := h
  declare _ _ _ h := h
  strict _ h := h
  activate _ h := h
  mark _ _ h := h
  brokenMark _ _ h := h
  pushBlock _ h := h
  pushFunction _ _ h := h
  finishBlock {d c s j} _ h := by
    unfold Parse.finishBlock
    rw [Parse.ask_run]
    cases s.scopes.top? <;> exact h
  finishFunction {d c s j} h := by
    unfold Parse.finishFunction
    rw [Parse.ask_run]
    cases s.scopes.top? <;> exact h
  backtrack _ h := (Lexer.view_next _ _).trans h
  restart _ _ h := (Lexer.view_next _ _).trans h
  firstAccessor _ h := h
  keep _ _ h := h

namespace Parse

variable {c : ParseContext} {s t : ParseState}

theorem broken_of_attempt {n : Nat} {found : Option Pat} {j : Journal} (I : Invariant)
    (hr : I.recordings c.recording c.recording) (hs : I.holds 0 s j)
    (h : attempt (Rules.pattern (Rules.bounded .tree n) .assignment) c s = (.ok found, t)) :
    ∃ j', I.broken 0 t j' := by
  have hx := ((RulesAgree.bounded .toClass I n).pattern .assignment).run (c := c)
    (r := c.recording) (s := s)
    (j := j) (d := 0) hr trivial hs
  unfold attempt at h
  generalize Rules.pattern (Rules.bounded .tree n) .assignment c s = x at h hx
  generalize Rules.pattern (Rules.bounded .check n) .assignment _ _ = y at hx
  cases hx with
  | ok hx =>
    simp only [Prod.mk.injEq] at h
    exact ⟨_, I.breaks (h.2 ▸ hx)⟩
  | @error e _ _ hx =>
    by_cases he : e.cause = .exhausted <;> simp [he] at h
    exact ⟨_, h.2 ▸ hx⟩

/-- What is left of a trial that was given up: the frames around it have grown, no write waits that
did not wait before, and one more reading was given up. -/
theorem grown_of_giveUp {n : Nat} {found : Option Pat}
    (h : attempt (Rules.pattern (Rules.bounded .tree n) .assignment) c s = (.ok found, t)) :
    List.Forall₂ Frame.Grown s.scopes.frames (t.backtrack s.checkpoint).scopes.frames ∧
      (t.backtrack s.checkpoint).pendingWrites = s.pendingWrites ∧
      Event.givenUp s.events < Event.givenUp (t.backtrack s.checkpoint).events := by
  have hs : (Invariant.above s).holds 0 s s.journal := Above.Of.refl s
  obtain ⟨_, k, ht⟩ := broken_of_attempt (Invariant.above s) rfl hs h
  have hk : (Invariant.above s).broken 0 t s.journal := ⟨k, ht⟩
  have hb : Above.Of s 0 (t.backtrack s.checkpoint) := (Invariant.above s).backtrack hs hk
  refine ⟨?_, ParseState.commit_of_suffix ht.pendingWrites,
    Int.lt_of_le_of_lt ht.givenUp (ParseState.givenUp_backtrack t _)⟩
  cases hb.frames with
  | none h => exact h

theorem view_of_attempt {n : Nat} {found : Option Pat}
    (h : attempt (Rules.pattern (Rules.bounded .tree n) .assignment) c s = (.ok found, t)) :
    t.lexer.view = s.lexer.view := by
  obtain ⟨_, hv⟩ := broken_of_attempt (j := s.journal) (.sameView s.lexer.view) rfl rfl h
  exact hv

end Parse

end EcmaFront
