import EcmaFront.Proofs.BlameOperand
import EcmaFront.Proofs.Stance

/-!
What a parse keeps in balance: the open frames with their labels and counts, how deep it is nested,
what `in` is taken for, whether parameters are plain, and what waits to be written. A step says how
it leaves the balance. One that fails leaves the frames that were open below it, and what waited
before it, so that going back restores the rest.
-/

set_option autoImplicit false

namespace EcmaFront

/-- What a frame says of jumps, its parameters apart. -/
def Frame.Stance.bare (f : Stance) : Stance :=
  { f with parameters := [], repeatedParameter := false }

open EcmaFront.Frame (Stance)

namespace Scopes

def jumps (s : Scopes) : List Stance := s.stances.map Stance.bare

variable {s s' : Scopes}

theorem length_jumps (s : Scopes) : s.jumps.length = s.depth := by
  rw [jumps, List.length_map, length_stances]

theorem jumps_of_stances (h : s'.stances = s.stances) : s'.jumps = s.jumps :=
  congrArg (List.map Stance.bare) h

theorem jumps_change {change : Frame → Frame} {g : Stance → Stance}
    (h : ∀ f, (change f).stance.bare = g f.stance.bare) :
    (s.modifyTop change).jumps = s.jumps.modifyHead g := by
  rcases s with ⟨_ | ⟨f, rest⟩⟩
  · rfl
  · exact congrArg (· :: (rest.map Frame.stance).map Stance.bare) (h f)

theorem jumps_push (s : Scopes) (f : Frame) : (s.push f).jumps = f.stance.bare :: s.jumps := rfl

theorem jumps_pushBlock (s : Scopes) :
    s.pushBlock.jumps = ⟨.block, [], 0, 0, [], false⟩ :: s.jumps := rfl

theorem jumps_pop (s : Scopes) (trackClosed : Bool) : (s.pop trackClosed).jumps = s.jumps.tail := by
  rw [jumps, stances_pop, jumps, List.map_tail]

theorem jumps_truncate (s : Scopes) (depth : Nat) :
    (s.truncate depth).jumps = s.jumps.drop (s.jumps.length - depth) := by
  rw [length_jumps]
  simp only [jumps, stances, truncate, List.map_drop, Scopes.depth]

theorem bare_takes {names : List String} {fs : List Stance} :
    (Stance.takes names fs).map Stance.bare = fs.map Stance.bare := by
  have bare_foldl (f : Stance) : (names.foldl Stance.take f).bare = f.bare := by
    induction names generalizing f with
    | nil => rfl
    | cons name names ih => exact ih _
  induction fs with
  | nil => rfl
  | cons f rest ih =>
    by_cases hk : f.kind = .block
    · rw [Stance.takes_block hk, List.map_cons, List.map_cons, ih]
    · rw [Stance.takes_cons hk, List.map_cons, List.map_cons, bare_foldl]

theorem jumps_declarationOf (s : Scopes) (name : String) (form : BindingForm) :
    (Parse.declarationOf name form s).1.jumps = s.jumps := by
  rw [jumps, stances_declarationOf, bare_takes, jumps]

theorem jumps_receiver {change : Frame → Frame} (h : ∀ f, (change f).stance = f.stance) :
    (s.modifyReceiver change).jumps = s.jumps := jumps_of_stances (map_modifyFirst h)

theorem jumps_writeNames (s : Scopes) (names : List String) :
    (names.foldl (fun scopes name => scopes.write name) s).jumps = s.jumps := by
  induction names generalizing s with
  | nil => rfl
  | cons name names ih => exact (ih _).trans (jumps_of_stances (stances_write s name))

end Scopes

/-- The balance of a parse. -/
structure Gauge where
  frames : List Stance
  nesting : Nat
  allowsIn : Bool
  richParameters : Bool
  waiting : List (String × Extent)

def ParseState.gauge (s : ParseState) : Gauge :=
  ⟨s.scopes.jumps, s.nesting, s.allowsIn, s.richParameters, s.pendingWrites⟩

/-- What a step may change for the one who asked for it. -/
structure Effect where
  /-- Parameters that are not plain are noted. -/
  notes : Bool := false
  /-- Writes come to wait. -/
  awaits : Bool := false

namespace Gauge

variable {d : Nat} {e : Effect} {g g₁ g' : Gauge}

def deeper (g : Gauge) : Gauge := { g with nesting := g.nesting + 1 }

def allow (g : Gauge) (allowed : Bool) : Gauge := { g with allowsIn := allowed }

def push (g : Gauge) (f : Stance) : Gauge := { g with frames := f :: g.frames }

/-- The innermost frame is left. -/
def leave (g : Gauge) : Gauge := { g with frames := g.frames.tail }

def mark (g : Gauge) (change : Stance → Stance) : Gauge :=
  { g with frames := g.frames.modifyHead change }

theorem mark_mark {m m' : Stance → Stance} (h : ∀ f, m' (m f) = f) : (g.mark m).mark m' = g := by
  obtain ⟨frames, _⟩ := g
  cases frames <;> simp [mark, h]

/-- The one leads to the other by such a step. -/
structure Leads (e : Effect) (g g' : Gauge) : Prop where
  frames : g'.frames = g.frames
  nesting : g'.nesting = g.nesting
  allowsIn : g'.allowsIn = g.allowsIn
  rich : g'.richParameters = g.richParameters ∨ e.notes = true ∧ g'.richParameters = true
  waiting : ∃ more, g'.waiting = more ++ g.waiting ∧ (e.awaits = false → more = [])

namespace Leads

theorem refl (e : Effect) (g : Gauge) : g.Leads e g :=
  ⟨rfl, rfl, rfl, .inl rfl, [], rfl, fun _ => rfl⟩

theorem of_eq (h : g' = g) : g.Leads e g' := h ▸ .refl e g

theorem trans (h : g.Leads e g₁) (h' : g₁.Leads e g') : g.Leads e g' := by
  constructor
  case frames => exact h'.frames.trans h.frames
  case nesting => exact h'.nesting.trans h.nesting
  case allowsIn => exact h'.allowsIn.trans h.allowsIn
  case rich =>
    obtain hr | hr := h'.rich
    · exact h.rich.imp hr.trans fun hn => ⟨hn.1, hr.trans hn.2⟩
    · exact .inr hr
  case waiting =>
    obtain ⟨more, hm, he⟩ := h.waiting
    obtain ⟨more', hm', he'⟩ := h'.waiting
    refine ⟨more' ++ more, by rw [hm', hm, List.append_assoc], fun ha => ?_⟩
    rw [he ha, he' ha]
    rfl

theorem eq (h : g.Leads {} g') : g' = g := by
  obtain ⟨hf, hn, ha, hr, more, hw, he⟩ := h
  obtain hr | ⟨⟨⟩, -⟩ := hr
  rw [he rfl] at hw
  cases g
  cases g'
  cases hf
  cases hn
  cases ha
  cases hr
  cases hw
  rfl

theorem suffix (h : g.Leads e g') : g.waiting <:+ g'.waiting :=
  let ⟨more, hm, _⟩ := h.waiting
  ⟨more, hm.symm⟩

end Leads

/-- What is left of the balance where a step at `d` open frames of its own is broken off: those
below stay, and what waited still waits. -/
structure Broken (d : Nat) (g g' : Gauge) : Prop where
  frames : g.frames.drop d <:+ g'.frames
  length : g.frames.length ≤ g'.frames.length
  waiting : g.waiting <:+ g'.waiting

namespace Broken

theorem refl (d : Nat) (g : Gauge) : g.Broken d g :=
  ⟨List.drop_suffix .., Nat.le_refl _, List.suffix_rfl⟩

theorem mono {d' : Nat} (hd : d ≤ d') (h : g.Broken d g') : g.Broken d' g' := by
  refine ⟨List.IsSuffix.trans ?_ h.frames, h.length, h.waiting⟩
  rw [← Nat.add_sub_cancel' hd, ← List.drop_drop]
  exact List.drop_suffix ..

theorem of_leads (hg : g.Leads e g₁) (h : g₁.Broken d g') : g.Broken d g' :=
  ⟨hg.frames ▸ h.frames, hg.frames ▸ h.length, hg.suffix.trans h.waiting⟩

theorem of_push {f : Stance} (h : (g.push f).Broken (d + 1) g') : g.Broken d g' :=
  ⟨h.frames, Nat.le_of_succ_le h.length, h.waiting⟩

theorem mark {change : Stance → Stance} (h : g.Broken (d + 1) g') :
    g.Broken (d + 1) (g'.mark change) := by
  obtain ⟨⟨front, hf⟩, hl, hq⟩ := h
  refine ⟨?_, by rw [Gauge.mark, List.length_modifyHead]; exact hl, hq⟩
  rw [Gauge.mark, ← hf]
  cases front with
  | cons f front => exact ⟨change f :: front, rfl⟩
  | nil =>
    -- Nothing was opened and nothing is left, so there are no frames at all.
    have hn : g.frames = [] := by
      have hl' := congrArg List.length hf
      rw [List.nil_append, List.length_drop] at hl'
      exact List.length_eq_zero_iff.1 (by omega)
    rw [hn]
    exact List.nil_suffix

theorem of_mark {change : Stance → Stance} (h : (g.mark change).Broken (d + 1) g') :
    g.Broken (d + 1) g' := by
  obtain ⟨h, hl, hq⟩ := h
  rw [Gauge.mark, List.length_modifyHead] at hl
  refine ⟨?_, hl, hq⟩
  rw [Gauge.mark] at h
  cases hg : g.frames with
  | nil => exact List.nil_suffix
  | cons f rest =>
    rw [hg] at h
    exact h

end Broken

end Gauge

namespace ParseState

variable {s s' : ParseState}

theorem gauge_frames (s : ParseState) (change : Scopes → Scopes) :
    (s.onScopes change).gauge = { s.gauge with frames := (change s.scopes).jumps } := rfl

theorem gauge_onScopes {change : Scopes → Scopes} (h : (change s.scopes).jumps = s.scopes.jumps) :
    (s.onScopes change).gauge = s.gauge := by
  rw [gauge_frames, h]
  rfl

theorem gauge_push {change : Scopes → Scopes} {f : Stance}
    (h : ∀ s, (change s).jumps = f :: s.jumps) :
    (s.onScopes change).gauge = s.gauge.push f := by
  rw [gauge_frames, h]
  rfl

theorem gauge_mark {change : Frame → Frame} {m : Stance → Stance}
    (h : ∀ f, (change f).stance.bare = m f.stance.bare) :
    (s.onScopes (·.modifyTop change)).gauge = s.gauge.mark m := by
  rw [gauge_frames, Scopes.jumps_change h]
  rfl

theorem depth_checkpoint (s : ParseState) : s.checkpoint.depth = s.gauge.frames.length :=
  (Scopes.length_jumps _).symm

theorem gauge_rewind (h : s.gauge.Broken 0 s'.gauge) :
    (s'.rewind s.checkpoint).gauge = s.gauge := by
  obtain ⟨⟨front, hf⟩, -, ⟨more, hw⟩⟩ := h
  have hjumps : (s'.scopes.truncate s.checkpoint.depth).jumps = s.scopes.jumps := by
    rw [Scopes.jumps_truncate, depth_checkpoint,
      show s'.scopes.jumps = front ++ s.gauge.frames from hf.symm,
      List.length_append, Nat.add_sub_cancel, List.drop_left]
    rfl
  have hwaiting : s'.pendingWrites.drop (s'.pendingWrites.length - s.pendingWrites.length) =
      s.pendingWrites := by
    rw [show s'.pendingWrites = more ++ s.pendingWrites from hw.symm, List.length_append,
      Nat.add_sub_cancel, List.drop_left]
  show Gauge.mk (s'.scopes.truncate s.checkpoint.depth).jumps s.nesting s.allowsIn s.richParameters
    (s'.pendingWrites.drop (s'.pendingWrites.length - s.pendingWrites.length)) = s.gauge
  rw [hjumps, hwaiting]
  rfl

theorem gauge_backtrack (h : s.gauge.Broken 0 s'.gauge) :
    (s'.backtrack s.checkpoint).gauge = s.gauge :=
  @gauge_rewind s { s' with events := _ } h

end ParseState

/-- The cause is one of the parser itself: it lost its frames, or what it built was no function. -/
def Cause.isInternal : Cause → Bool
  | .noScope | .notAFunction => true
  | _ => false

theorem Cause.not_isInternal {cause : Cause} (h : cause.isRule = true) :
    cause.isInternal = false := by
  revert h
  cases cause <;> simp [isRule, isInternal]

namespace Parse

variable {α β σ : Type}

def LandsIn (d : Nat) (g : Gauge) (Q : Gauge → Prop) : Except ParseError α × ParseState → Prop
  | (.ok _, s) => Q s.gauge
  | (.error e, s) => g.Broken d s.gauge ∧ e.cause.isInternal = false

theorem LandsIn.mono {d d' : Nat} {g g' : Gauge} {Q R : Gauge → Prop}
    {x : Except ParseError α × ParseState} (h : LandsIn d g Q x)
    (hb : ∀ g₁, g.Broken d g₁ → g'.Broken d' g₁) (hq : ∀ g₁, Q g₁ → R g₁) :
    LandsIn d' g' R x := by
  obtain ⟨_ | _, s⟩ := x
  · exact ⟨hb _ h.1, h.2⟩
  · exact hq _ h

theorem LandsIn.always {d d' : Nat} {g g' : Gauge} {Q R : Gauge → Prop}
    {after : ParseState → ParseState} {p : Parse α} {c : ParseContext} {s : ParseState}
    (h : LandsIn d g Q (p c s)) (hb : ∀ s, g.Broken d s.gauge → g'.Broken d' (after s).gauge)
    (hq : ∀ s, Q s.gauge → R (after s).gauge) :
    LandsIn d' g' R (Parse.always p after c s) := by
  simp only [Parse.always]
  generalize p c s = x at h ⊢
  obtain ⟨_ | _, s'⟩ := x
  · exact ⟨hb s' h.1, h.2⟩
  · exact hq s' h

/-- From a balance the step leads to one as told, and it may touch `d` of the frames if it is broken
off. -/
def Lands (d : Nat) (g : Gauge) (p : Parse α) (Q : Gauge → Prop) : Prop :=
  ∀ c s, s.gauge = g → LandsIn d g Q (p c s)

abbrev Steps (e : Effect) (d : Nat) (g : Gauge) (p : Parse α) : Prop := Lands d g p (g.Leads e)

abbrev Rests (d : Nat) (g : Gauge) (p : Parse α) : Prop := Steps {} d g p

/-- The step comes to an end with a result, and keeps the balance. -/
def Still (p : Parse α) : Prop := ∀ c s, ∃ a s', p c s = (.ok a, s') ∧ s'.gauge = s.gauge

namespace Still

theorem pure {a : α} : Still (pure a) := fun _ s => ⟨a, s, rfl, rfl⟩

theorem next_bind {f : Unit → Parse β} (h : Still (f ())) : Still (next >>= f) :=
  fun c s => h c s.next

theorem state_bind {f : ParseState → Parse β} (h : ∀ s, Still (f s)) : Still (state >>= f) :=
  fun c s => h s c s

theorem spanFrom_bind {start : Position} {f : Span → Parse β} (h : ∀ span, Still (f span)) :
    Still (spanFrom start >>= f) := fun c s => h _ c s

end Still

namespace Lands

variable {d : Nat} {e : Effect} {g : Gauge} {p q : Parse α} {Q R : Gauge → Prop}

theorem pure {a : α} (h : Q g) : Lands d g (pure a) Q := fun _ _ hs => (congrArg Q hs).mpr h

theorem done {a : α} : Steps e d g (Pure.pure a) := pure (.refl e g)

theorem failAt {cause : Cause} {extent : Extent} (hc : cause.isRule = true) :
    Lands d g (failAt cause extent : Parse α) Q :=
  fun _ _ hs => ⟨hs ▸ .refl d _, Cause.not_isInternal hc⟩

theorem fail {cause : Cause} (hc : cause.isRule = true) : Lands d g (fail cause : Parse α) Q :=
  fun _ _ hs => ⟨hs ▸ .refl d _, Cause.not_isInternal hc⟩

theorem unexpected : Lands d g (unexpected : Parse α) Q := fun _ s hs => by
  refine ⟨hs ▸ .refl d _, ?_⟩
  show s.unexpected.isInternal = false
  unfold ParseState.unexpected
  split <;> rfl

theorem ite {b : Prop} [Decidable b] (h₁ : b → Lands d g p Q) (h₂ : ¬b → Lands d g q Q) :
    Lands d g (if b then p else q) Q := by
  split
  · next h => exact h₁ h
  · next h => exact h₂ h

theorem mono (h : Lands d g p Q) (hQ : ∀ g', Q g' → R g') : Lands d g p R := fun c s hs =>
  (h c s hs).mono (fun _ => id) hQ

theorem widen (h : Rests d g p) : Steps e d g p := h.mono fun _ h => .of_eq h.eq

/-! One step after another. -/

theorem andThen {f : α → Parse β} (h : Steps e d g p)
    (hf : ∀ a g₁, g.Leads e g₁ → Lands d g₁ (f a) R) :
    Lands d g (p >>= f) R := fun c s hs => by
  have hr := h c s hs
  rcases hp : p c s with ⟨_ | a, s₁⟩ <;> rw [hp] at hr
  · simp only [Bind.bind, hp]
    exact hr
  · have hn := hf a s₁.gauge hr c s₁ rfl
    simp only [Bind.bind, hp]
    exact hn.mono (fun _ hb => hb.of_leads hr) fun _ => id

theorem bind {f : α → Parse β} (h : Rests d g p) (hf : ∀ a, Lands d g (f a) R) :
    Lands d g (p >>= f) R :=
  h.andThen fun a _ hg => hg.eq ▸ hf a

theorem assoc {γ : Type} {f : α → Parse β} {k : β → Parse γ} (h : Lands d g ((p >>= f) >>= k) R) :
    Lands d g (p >>= fun a => f a >>= k) R := fun c s hs => bind_assoc_run p f k ▸ h c s hs

theorem seq {f : α → Parse β} (h : Steps e d g p) (hf : ∀ a g₁, Steps e d g₁ (f a)) :
    Steps e d g (p >>= f) :=
  h.andThen fun a g₁ hg => (hf a g₁).mono fun _ => hg.trans

theorem map {f : α → β} (h : Steps e d g p) : Steps e d g (f <$> p) := h.seq fun _ _ => done

theorem state_bind {f : ParseState → Parse β} (h : ∀ s, s.gauge = g → Lands d g (f s) R) :
    Lands d g (state >>= f) R := fun c s hs => h s hs c s hs

theorem context_bind {f : ParseContext → Parse β} (h : ∀ c, Lands d g (f c) R) :
    Lands d g (context >>= f) R :=
  fun c s hs => h c c s hs

theorem spanFrom_bind {start : Position} {f : Span → Parse β} (h : ∀ span, Lands d g (f span) R) :
    Lands d g (spanFrom start >>= f) R := fun c s hs => h _ c s hs

theorem ask {question : ParseState → α × ParseState} (h : ∀ s, (question s).2.gauge = s.gauge) :
    Rests d g (ask question) := fun _ s hs => .of_eq ((h s).trans hs)

theorem modify {change : ParseState → ParseState} (h : ∀ s, s.gauge = g → (change s).gauge = g) :
    Rests d g (modify change) := fun _ s hs => .of_eq (h s hs)

theorem modifyScopes {change : Scopes → Scopes} (h : ∀ s, (change s).jumps = s.jumps) :
    Rests d g (modifyScopes change) := modify fun _ hs => (ParseState.gauge_onScopes (h _)).trans hs

theorem next : Rests d g next := modify fun _ hs => hs

theorem emit {event : Event} : Rests d g (emit event) := modify fun _ hs => hs

theorem consume {kind : TokenKind} : Rests d g (consume kind) :=
  state_bind fun _ _ => ite (fun _ => next.bind fun _ => done) fun _ => done

theorem expect {kind : TokenKind} : Rests d g (expect kind) :=
  consume.bind fun _ => ite (fun _ => state_bind fun _ _ => ite (fun _ => unexpected) fun _ =>
    fail rfl) fun _ => done

theorem consumeSemicolon : Rests d g consumeSemicolon :=
  consume.bind fun _ => ite (fun _ => state_bind fun _ _ => ite (fun _ => unexpected) fun _ =>
    done) fun _ => done

/-! What surrounds a step. -/

theorem nested (h : Steps e d g.deeper p) : Steps e d g (nested p) := by
  intro c s hs
  have hd : s.deeper.gauge = g.deeper := hs ▸ rfl
  simp only [Parse.nested, modify_bind, Parse.state_bind]
  split
  · exact ⟨hs ▸ ⟨List.suffix_rfl.trans (List.drop_suffix ..), Nat.le_refl _, List.suffix_rfl⟩, rfl⟩
  · refine LandsIn.always (h c s.deeper hd)
      (fun _ hb => ⟨hb.frames, hb.length, hb.waiting⟩) fun s' hl => ?_
    exact ⟨hl.frames, congrArg (· - 1) hl.nesting, hl.allowsIn, hl.rich, hl.waiting⟩

theorem allowingIn {allowed : Bool} (h : Rests d (g.allow allowed) p) :
    Rests d g (allowingIn allowed p) := by
  intro c s hs
  subst hs
  simp only [Parse.allowingIn, Parse.state_bind, modify_bind]
  refine LandsIn.always (h c (s.allow allowed) rfl)
    (fun _ hb => ⟨hb.frames, hb.length, hb.waiting⟩) fun s' hl => ?_
  exact ⟨hl.frames, hl.nesting, rfl, hl.rich, hl.waiting⟩

theorem marking {change : Frame → Frame} (m : Stance → Stance)
    (hc : ∀ f, (change f).stance.bare = m f.stance.bare) (h : Lands (d + 1) (g.mark m) p R) :
    Lands (d + 1) g (do Parse.modifyScopes (·.modifyTop change); p) R :=
  fun c s hs => (h c (s.onScopes (·.modifyTop change)) (hs ▸ ParseState.gauge_mark hc)).mono
    (fun _ hb => hb.of_mark)
    fun _ => id

theorem marked {change undo : Frame → Frame} (m m' : Stance → Stance)
    (hc : ∀ f, (change f).stance.bare = m f.stance.bare)
    (hu : ∀ f, (undo f).stance.bare = m' f.stance.bare) (hm : ∀ f, m' (m f) = f)
    (h : ∀ g, Rests (d + 1) g p) :
    Rests (d + 1) g (do
      Parse.modifyScopes (·.modifyTop change)
      always p (·.onScopes (·.modifyTop undo))) := by
  refine marking m hc fun c s hs => LandsIn.always (h (g.mark m) c s hs) (fun s' hb => ?_)
    fun s' hl => .of_eq ?_
  · rw [ParseState.gauge_mark hu]
    exact hb.mark
  · rw [ParseState.gauge_mark hu, hl.eq, Gauge.mark_mark hm]

theorem entering {change : Scopes → Scopes} {f : Stance} (hc : ∀ s, (change s).jumps = f :: s.jumps)
    (h : Lands (d + 1) (g.push f) p R) : Lands d g (do Parse.modifyScopes change; p) R :=
  fun c s hs => (h c (s.onScopes change) (hs ▸ ParseState.gauge_push hc)).mono
    (fun _ hb => hb.of_push) fun _ => id

theorem pushing {change : Scopes → Scopes} {f : Stance} (hc : ∀ s, (change s).jumps = f :: s.jumps)
    (h : Lands (d + 1) (g.push f) p (· = g)) : Rests d g (do Parse.modifyScopes change; p) :=
  (entering hc h).mono fun _ => .of_eq

theorem bindStill {f : α → Parse β} (h : Lands d g p Q) (hf : ∀ a, Still (f a)) :
    Lands d g (p >>= f) Q :=
  fun c s hs => by
    have hr := h c s hs
    rcases hp : p c s with ⟨_ | a, s₁⟩ <;> rw [hp] at hr
    · simp only [Bind.bind, hp]
      exact hr
    · obtain ⟨b, s', hq, hg⟩ := hf a c s₁
      simp only [Bind.bind, hp, hq]
      exact (congrArg Q hg).mpr hr

theorem attempt_bind {p : Parse (Option α)} {f : Option α → Parse β} (h : Steps e 0 g p)
    (hn : ∀ c s, g.Broken 0 s.gauge → LandsIn d g R (f none c s))
    (hf : ∀ a c s, g.Leads e s.gauge → LandsIn d g R (f (some a) c s)) :
    Lands d g (attempt p >>= f) R := by
  intro c s hs
  have hp := h c s hs
  simp only [attempt, Bind.bind]
  generalize p c s = x at hp ⊢
  obtain ⟨e | _ | a, s'⟩ := x
  · by_cases he : e.cause = .exhausted
    · simp only [he, if_true]
      exact ⟨hp.1.mono (Nat.zero_le d), hp.2⟩
    · simp only [he, if_false]
      exact hn c s' hp.1
  · exact hn c s' (.of_leads hp (.refl _ _))
  · exact hf a c s' hp

/-! Repetition. -/

theorem repeatFrom {round : σ → Parse (Round σ α)} {x : σ} (h : ∀ x g, Steps e d g (round x)) :
    Steps e d g (repeatFrom x round) := by
  have bounded (n : Nat) (x : σ) (g : Gauge) : Steps e d g (repeatBounded n round x) := by
    induction n generalizing x g with
    | zero => exact fail rfl
    | succ n ih =>
      refine (h x g).seq fun step g₁ => ?_
      cases step with
      | again y => exact ih y g₁
      | done a => exact done
  exact fun c s hs => bounded c.rounds x g c s hs

theorem repeatResting {round : σ → Parse (Round σ α)} {x : σ} (h : ∀ x, Rests d g (round x)) :
    Rests d g (Parse.repeatFrom x round) := by
  have bounded (n : Nat) (x : σ) : Rests d g (repeatBounded n round x) := by
    induction n generalizing x with
    | zero => exact fail rfl
    | succ n ih =>
      refine (h x).bind fun step => ?_
      cases step with
      | again y => exact ih y
      | done a => exact done
  exact fun c s hs => bounded c.rounds x c s hs

end Lands

end Parse

end EcmaFront
