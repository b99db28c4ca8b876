import EcmaFront.Proofs.Nonterminal
import EcmaFront.Tree.Hom

/-!
Two parses of one text in two algebras. They go through the same states, apart from the journals
that they keep, and fail at the same places for the same causes. Along with them goes an invariant
of the states that also says what is left of it where they fail. It is told apart how many frames
the phrase has opened, since a phrase that opened none must not declare anything.
-/

set_option autoImplicit false

namespace EcmaFront

/-- What a parse has kept so far without looking at it again. -/
structure Journal where
  digests : List FunctionDigest
  events : List Event

namespace Journal

def record (j : Journal) (event : Event) : Journal := { j with events := event :: j.events }

def keep (j : Journal) (recording : Bool) (digest : FunctionDigest) : Journal :=
  if recording then
    ⟨digest.record j.digests,
      .recordedFunction digest.name digest.span.start.offset digest.span.stop.offset :: j.events⟩
  else j

end Journal

namespace ParseState

def journal (s : ParseState) : Journal := ⟨s.digests, s.events⟩

def withJournal (s : ParseState) (j : Journal) : ParseState :=
  { s with digests := j.digests, events := j.events }

/-- A change that leaves frames and journal alone and forgets no write that waits. -/
inductive Shifts (s : ParseState) : ParseState → Prop where
  | next : Shifts s s.next
  | readRegexp : Shifts s s.readRegexp
  /-- The lexer looked ahead on its own. -/
  | lookedAhead : Shifts s { s with lexer := s.lexer.goTo s.lexer.standing }
  | flags (allowsIn : Bool) (nesting : Nat) (boundNames : List String) (richParameters : Bool) :
    Shifts s { s with allowsIn, nesting, boundNames, richParameters }
  | await (write : String × Extent) : Shifts s { s with pendingWrites := write :: s.pendingWrites }

namespace Shifts

variable {s s' : ParseState}

theorem scopes (h : s.Shifts s') : s'.scopes = s.scopes := by cases h <;> rfl

theorem journal (h : s.Shifts s') : s'.journal = s.journal := by cases h <;> rfl

theorem pendingWrites (h : s.Shifts s') : s.pendingWrites <:+ s'.pendingWrites := by
  cases h with
  | await write => exact List.suffix_cons _ _
  | _ => exact List.suffix_rfl

end Shifts

end ParseState

/-- The change of a frame is one of its labels and of its counts of loops and `switch`
statements. -/
def Frame.Marks (change : Frame → Frame) : Prop :=
  ∀ f, ∃ labels loops switches, change f = { f with labels, loops, switches }

/-- What holds of a state, and of the journal of the other parse, at some frames above where a
phrase began, and what is left of it when the phrase is broken off. It lasts as long as frames and
journals are left alone, and no write that waits is forgotten. -/
structure StillInvariant where
  /-- Whether the one parse and the other record functions. -/
  recordings : Bool → Bool → Prop
  holds : Nat → ParseState → Journal → Prop
  broken : Nat → ParseState → Journal → Prop
  breaks : ∀ {d s j}, holds d s j → broken d s j
  shallower : ∀ {d s j}, broken (d + 1) s j → broken d s j
  quiet : ∀ {d s s' j}, holds d s j → s.Shifts s' → holds d s' j
  brokenQuiet : ∀ {d s s' j}, broken d s j → s.Shifts s' → broken d s' j
  rewind : ∀ {d s s₀ j j₀}, holds d s₀ j₀ → holds d s j → holds d (s.rewind s₀.checkpoint) j

/-- What lasts through every step of the grammar. -/
structure Invariant extends StillInvariant where
  commit : ∀ {d s s₀ j j₀}, holds d s₀ j₀ → holds d s j → holds d (s.commit s₀.checkpoint) j
  use : ∀ {d s j} name, holds d s j → holds d (s.onScopes (·.use name)) j
  write : ∀ {d s j} name, holds d s j → holds d (s.onScopes (·.write name)) j
  directSuper : ∀ {d s j}, holds d s j →
    holds d (s.onScopes (·.modifyReceiver ({ · with directSuper := true }))) j
  superBinding : ∀ {d s j}, holds d s j →
    holds d (s.onScopes (·.modifyReceiver ({ · with superBinding := true }))) j
  declare : ∀ {d s j} name form, 0 < d → holds d s j →
    holds d (s.onScopes fun scopes => (Parse.declarationOf name form scopes).1) j
  strict : ∀ {d s j}, 0 < d → holds d s j →
    holds d (s.onScopes (·.modifyFunction ({ · with strict := true }))) j
  activate : ∀ {d s j}, 0 < d → holds d s j → holds d (s.onScopes .activate) j
  mark : ∀ {d s j change}, Frame.Marks change → 0 < d → holds d s j →
    holds d (s.onScopes (·.modifyTop change)) j
  brokenMark : ∀ {d s j change}, Frame.Marks change → 0 < d → broken d s j →
    broken d (s.onScopes (·.modifyTop change)) j
  pushBlock : ∀ {d s j}, 0 < d → holds d s j → holds (d + 1) (s.onScopes .pushBlock) j
  pushFunction : ∀ {d s j} (h : Parse.FunctionHeader) strict, holds d s j →
    holds (d + 1) (s.onScopes (·.push (h.frame strict))) j
  finishBlock : ∀ {d c s j}, 0 < d → holds (d + 1) s j → holds d (Parse.finishBlock c s).2 j
  finishFunction : ∀ {d c s j}, holds (d + 1) s j → holds d (Parse.finishFunction c s).2 j
  backtrack : ∀ {d s s₀ j j₀}, holds d s₀ j₀ → broken d s j →
    holds d (s.backtrack s₀.checkpoint)
      (j.record (.wentBack s₀.tokenStart.offset s.token.extent.start))
  restart : ∀ {d s s₀ j j₀} directive, holds d s₀ j₀ → holds d s j →
    holds d (s.restart directive s₀.checkpoint)
      ((j.record (.strictDirective directive)).record
        (.wentBack s₀.tokenStart.offset s.token.extent.start))
  firstAccessor : ∀ {d s j} offset, holds d s j →
    holds d (s.record (.firstAccessor offset)) (j.record (.firstAccessor offset))
  keep : ∀ {d s j r r'} digest, recordings r r' → holds d s j →
    holds d (s.withJournal (s.journal.keep r digest)) (j.keep r' digest)

instance : Coe Invariant StillInvariant := ⟨Invariant.toStillInvariant⟩

namespace StillInvariant

variable {I : StillInvariant} {d d' : Nat} {s : ParseState} {j : Journal}

theorem broken_le (hd : d ≤ d') (h : I.broken d' s j) : I.broken d s j := by
  induction hd with
  | refl => exact h
  | step _ ih => exact ih (I.shallower h)

end StillInvariant

/-- Two outcomes agree: the results correspond, or the faults are the same. A result stands at `d'`
frames, a fault at `d` or more. -/
inductive Agree (I : StillInvariant) (d d' : Nat) {α β : Type} (f : α → β) :
    Except ParseError α × ParseState → Except ParseError β × ParseState → Prop where
  | ok {a s j} (h : I.holds d' s j) : Agree I d d' f (.ok a, s) (.ok (f a), s.withJournal j)
  | error {e s j} (h : I.broken d s j) : Agree I d d' f (.error e, s) (.error e, s.withJournal j)

def Round.map {α β σ σ' : Type} (g : σ → σ') (f : α → β) : Round σ α → Round σ' β
  | .again x => .again (g x)
  | .done a => .done (f a)

namespace Agree

open Parse

variable {I : StillInvariant} {d d' k : Nat} {α α' β β' σ σ' : Type} {c c' : ParseContext}
  {s s' : ParseState} {j : Journal}

theorem bind {f : α → α'} {g : β → β'} {p : Parse α} {q : Parse α'} {next : α → Parse β}
    {next' : α' → Parse β'} (h : Agree I d k f (p c s) (q c' s'))
    (hn : ∀ {a s j}, I.holds k s j →
      Agree I d d' g (next a c s) (next' (f a) c' (s.withJournal j))) :
    Agree I d d' g ((p >>= next) c s) ((q >>= next') c' s') := by
  simp only [Bind.bind]
  generalize p c s = x at h ⊢
  generalize q c' s' = y at h ⊢
  cases h with
  | ok h => exact hn h
  | error h => exact .error h

theorem repeatBounded {r : Bool} {g : σ → σ'} {f : α → β} {p : σ → Parse (Round σ α)}
    {q : σ' → Parse (Round σ' β)} (hd : d ≤ d')
    (h : ∀ {x s j}, I.holds d' s j →
      Agree I d d' (.map g f) (p x c s) (q (g x) { c with recording := r } (s.withJournal j)))
    (n : Nat) (x : σ) (hs : I.holds d' s j) :
    Agree I d d' f (repeatBounded n p x c s)
      (repeatBounded n q (g x) { c with recording := r } (s.withJournal j)) := by
  induction n generalizing x s j with
  | zero => exact .error (I.broken_le hd (I.breaks hs))
  | succ n ih =>
    refine bind (h hs) fun {step s j} hs => ?_
    cases step with
    | again y => exact ih y hs
    | done a => exact .ok hs

end Agree

/-- No frame need be open that the phrase may declare names in. -/
def Anywhere (_ : Nat) : Prop := True

def Inside (d : Nat) : Prop := 0 < d

/-- Two steps agree in a phrase at any number of frames in `D`. They begin at `m` and end at `n`
frames more. -/
structure Agrees (I : StillInvariant) (D : Nat → Prop) (m n : Nat) {α β : Type} (f : α → β)
    (p : Parse α) (q : Parse β) : Prop where
  run : ∀ {c : ParseContext} {r s j d}, I.recordings c.recording r → D d → I.holds (d + m) s j →
    Agree I d (d + n) f (p c s) (q { c with recording := r } (s.withJournal j))

namespace Agrees

open Parse

variable {I : StillInvariant} {D D' : Nat → Prop} {k m n : Nat} {α α' β β' σ σ' : Type}

theorem weaken {f : α → β} {p : Parse α} {q : Parse β} (h : Agrees I D 0 0 f p q)
    (hD : ∀ {d}, D' d → D (d + m)) : Agrees I D' m m f p q := by
  constructor
  intro c r s j d hr hd hs
  have hx := h.run hr (hD hd) hs
  generalize p c s = x at hx ⊢
  generalize q _ _ = y at hx ⊢
  cases hx with
  | ok h => exact .ok h
  | error h => exact .error (I.broken_le (by omega) h)

theorem pure {f : α → β} {a : α} {b : β} (h : b = f a) : Agrees I D m m f (pure a) (pure b) := by
  constructor
  intro c r s j d _ _ hs
  rw [h]
  exact .ok hs

theorem bind {f : α → α'} {g : β → β'} {p : Parse α} {q : Parse α'} {next : α → Parse β}
    {next' : α' → Parse β'} (h : Agrees I D m k f p q)
    (hn : ∀ a, Agrees I D k n g (next a) (next' (f a))) :
    Agrees I D m n g (p >>= next) (q >>= next') := by
  constructor
  intro c r s j d hr hd hs
  exact .bind (h.run hr hd hs) fun hs => (hn _).run hr hd hs

theorem bindWith {f : α → α'} {g : β → β'} {p : Parse α} {q : Parse α'} {next : α → Parse β}
    {next' : α' → Parse β'} {Q : α → Prop} (h : Agrees I D m k f p q)
    (hq : ∀ {c s a s'}, p c s = (.ok a, s') → Q a)
    (hn : ∀ a, Q a → Agrees I D k n g (next a) (next' (f a))) :
    Agrees I D m n g (p >>= next) (q >>= next') := by
  constructor
  intro c r s j d hr hd hs
  have ha := h.run (c := c) (r := r) hr hd hs
  simp only [Bind.bind]
  generalize hp : p c s = x at ha ⊢
  generalize q _ _ = y at ha ⊢
  cases ha with
  | ok ha => exact (hn _ (hq hp)).run hr hd ha
  | error ha => exact .error ha

theorem map {f : α → α'} {g : β → β'} {p : Parse α} {q : Parse α'} {t : α → β} {t' : α' → β'}
    (h : Agrees I D m n f p q) (ht : ∀ a, t' (f a) = g (t a)) :
    Agrees I D m n g (t <$> p) (t' <$> q) :=
  bind h fun a => pure (ht a)

theorem fail {f : α → β} (cause : Cause) : Agrees I D m n f (fail cause) (fail cause) := by
  constructor
  intro c r s j d _ _ hs
  exact .error (I.broken_le (by omega) (I.breaks hs))

theorem failAt {f : α → β} (cause : Cause) (extent : Extent) :
    Agrees I D m n f (failAt cause extent) (failAt cause extent) := by
  constructor
  intro c r s j d _ _ hs
  exact .error (I.broken_le (by omega) (I.breaks hs))

theorem unexpected {f : α → β} : Agrees I D m n f unexpected unexpected := by
  constructor
  intro c r s j d _ _ hs
  exact .error (I.broken_le (by omega) (I.breaks hs))

theorem ite {f : α → β} {P : Prop} [Decidable P] {p₁ p₂ : Parse α} {q₁ q₂ : Parse β}
    (h₁ : Agrees I D m n f p₁ q₁) (h₂ : Agrees I D m n f p₂ q₂) :
    Agrees I D m n f (if P then p₁ else p₂) (if P then q₁ else q₂) := by
  by_cases h : P
  · simpa only [h, if_true] using h₁
  · simpa only [h, if_false] using h₂

theorem state {f : α → β} {p : ParseState → Parse α} {q : ParseState → Parse β}
    (h : ∀ s j, Agrees I D m n f (p s) (q (s.withJournal j))) :
    Agrees I D m n f (state >>= p) (state >>= q) := by
  constructor
  intro c r s j d hr hd hs
  exact (h s j).run hr hd hs

theorem quiet {change : ParseState → ParseState} (h : ∀ s : ParseState, s.Shifts (change s))
    (hc : ∀ s j, change (s.withJournal j) = (change s).withJournal j) :
    Agrees I D m m id (modify change) (modify change) := by
  constructor
  intro c r s j d _ _ hs
  rw [modify_run, modify_run, hc]
  exact .ok (I.quiet hs (h s))

theorem ask {question : ParseState → α × ParseState}
    (h : ∀ {d s j}, D d → I.holds (d + m) s j → I.holds (d + n) (question s).2 j)
    (hc : ∀ s j, question (s.withJournal j) = ((question s).1, (question s).2.withJournal j)) :
    Agrees I D m n id (ask question) (ask question) := by
  constructor
  intro c r s j d _ hd hs
  rw [ask_run, ask_run, hc]
  exact .ok (h hd hs)

theorem next : Agrees I D m m id next next :=
  show Agrees I D m m id (modify .next) (modify .next) from
    quiet (fun _ => .next) fun _ _ => rfl

theorem scopes {change : Scopes → Scopes} (h : ∀ {d s j}, D d → I.holds (d + m) s j →
      I.holds (d + n) (s.onScopes change) j) :
    Agrees I D m n id (modifyScopes change) (modifyScopes change) := by
  constructor
  intro c r s j d _ hd hs
  exact .ok (h hd hs)

theorem consume (kind : TokenKind) : Agrees I D m m id (consume kind) (consume kind) :=
  state fun _ _ => ite (bind next fun _ => pure rfl) (pure rfl)

theorem expect (kind : TokenKind) : Agrees I D m m id (expect kind) (expect kind) :=
  bind (consume kind) fun _ =>
    ite (state fun s _ => ite unexpected (fail (.expected kind s.tokenText))) (pure rfl)

theorem consumeSemicolon : Agrees I D m m id consumeSemicolon consumeSemicolon :=
  bind (consume .semicolon) fun _ => ite (state fun _ _ => ite unexpected (pure rfl)) (pure rfl)

theorem spanFrom (start : Position) : Agrees I D m m id (spanFrom start) (spanFrom start) :=
  state fun _ _ => pure rfl

theorem always {f : α → β} {p : Parse α} {q : Parse β} {after : ParseState → ParseState}
    (hp : Agrees I D m n f p q) (h : ∀ s : ParseState, s.Shifts (after s))
    (hc : ∀ s j, after (s.withJournal j) = (after s).withJournal j) :
    Agrees I D m n f (always p after) (always q after) := by
  constructor
  intro c r s j d hr hd hs
  have hx := hp.run hr hd hs
  simp only [Parse.always]
  generalize p c s = x at hx ⊢
  generalize q _ _ = y at hx ⊢
  cases hx with
  | ok hx =>
    rw [hc]
    exact .ok (I.quiet hx (h _))
  | error hx =>
    rw [hc]
    exact .error (I.brokenQuiet hx (h _))

theorem nested {f : α → β} {p : Parse α} {q : Parse β} (h : Agrees I D m m f p q) :
    Agrees I D m m f (nested p) (nested q) :=
  bind (quiet (fun _ => .flags _ _ _ _) fun _ _ => rfl) fun _ =>
    state fun _ _ => ite (fail .tooDeep) (always h (fun _ => .flags _ _ _ _) fun _ _ => rfl)

theorem allowingIn {f : α → β} {allowed : Bool} {p : Parse α} {q : Parse β}
    (h : Agrees I D m m f p q) :
    Agrees I D m m f (allowingIn allowed p) (allowingIn allowed q) :=
  state fun _ _ => bind (quiet (fun _ => .flags _ _ _ _) fun _ _ => rfl) fun _ =>
    always h (fun _ => .flags _ _ _ _) fun _ _ => rfl

theorem repeatFrom {g : σ → σ'} {f : α → β} {x : σ} {x' : σ'} {p : σ → Parse (Round σ α)}
    {q : σ' → Parse (Round σ' β)} (hx : x' = g x)
      (h : ∀ x, Agrees I D m m (.map g f) (p x) (q (g x))) :
    Agrees I D m m f (repeatFrom x p) (repeatFrom x' q) := by
  subst hx
  constructor
  intro c r s j d hr hd hs
  exact .repeatBounded (Nat.le_add_right d m) (fun hs => (h _).run hr hd hs) c.rounds x hs

/-! Questions about the tokens ahead. -/

theorem lookAhead {α : Type} {p : Parse α} (hp : Agrees I D m m id p p) :
    Agrees I D m m id
      (do
        let point := (← Parse.state).checkpoint
        let a ← p
        modify (·.rewind point)
        Pure.pure a)
      (do
        let point := (← Parse.state).checkpoint
        let a ← p
        modify (·.rewind point)
        Pure.pure a) := by
  constructor
  intro c r s j d hr hd hs
  have hx := hp.run hr hd hs
  simp only [Bind.bind, Parse.state]
  generalize p c s = x at hx ⊢
  generalize p _ _ = y at hx ⊢
  cases hx with
  | ok h => exact .ok (I.rewind hs h)
  | error h => exact .error h

theorem peekKind : Agrees I D m m id peekKind peekKind := by
  constructor
  intro c r s j d _ _ hs
  exact .ok (I.rewind hs (show I.holds (d + m) s.next j from I.quiet hs .next))

theorem atLetDeclaration : Agrees I D m m id atLetDeclaration atLetDeclaration := by
  refine state fun s j => ite (pure rfl) (bind peekKind fun kind => ?_)
  dsimp only [id]
  split
  all_goals exact pure rfl

theorem skipBracketed {accept : ParseState → Bool} (ha : ∀ s j, accept (s.withJournal j) = accept s)
    (scan : BracketScan) :
    Agrees I D m m (.map id id) (skipBracketed accept scan) (skipBracketed accept scan) := by
  refine state fun s j => ?_
  rw [show (s.withJournal j).kind = s.kind from rfl]
  have skip (depth : Nat) :
      Agrees I D m m (.map id id)
        (do
          let s ← Parse.state
          Parse.next
          Pure.pure (Round.again (⟨depth, s.kind⟩ : BracketScan)))
        (do
          let s ← Parse.state
          Parse.next
          Pure.pure (Round.again (α := Bool) (⟨depth, s.kind⟩ : BracketScan))) :=
    state fun _ _ => bind next fun _ => pure rfl
  split
  case h_1 | h_2 | h_3 | h_13 => exact skip _
  case h_4 | h_5 | h_6 =>
    exact ite (bind next fun _ => state fun t k => pure (by rw [ha]; rfl)) (skip _)
  case h_7 | h_8 =>
    exact ite (skip _) (bind (quiet (fun _ => .readRegexp) fun _ _ => rfl) fun _ =>
      state fun _ _ => ite (pure rfl) (skip _))
  all_goals exact pure rfl

theorem followsBrackets {accept : ParseState → Bool}
    (ha : ∀ s j, accept (s.withJournal j) = accept s) :
    Agrees I D m m id (followsBrackets accept) (followsBrackets accept) :=
  lookAhead (repeatFrom rfl (skipBracketed ha))

theorem atArrowFunction : Agrees I D m m id atArrowFunction atArrowFunction := by
  refine state fun s j => ?_
  rw [show (s.withJournal j).kind = s.kind from rfl]
  split
  · constructor
    intro c r s j d _ _ hs
    exact .ok (I.rewind hs (show I.holds (d + m) s.next j from I.quiet hs .next))
  · exact followsBrackets fun _ _ => rfl
  · exact pure rfl

theorem labelRound (u : Unit) : Agrees I D m m (.map id id) (labelRound u) (labelRound u) :=
  state fun _ _ => ite (pure rfl) <|
    bind peekKind fun _ => ite (pure rfl) (bind next fun _ => bind next fun _ => pure rfl)

theorem labelsLoop : Agrees I D m m id labelsLoop labelsLoop :=
  lookAhead (repeatFrom rfl labelRound)

theorem accessor? : Agrees I D m m id accessor? accessor? := by
  refine state fun s j => ?_
  rw [show (s.withJournal j).atWord = s.atWord from rfl]
  dsimp only
  split
  · exact pure rfl
  · refine bind peekKind fun kind => ?_
    dsimp only [id]
    split
    all_goals exact pure rfl

theorem takeBoundNames (mark : Nat) :
    Agrees I D m m id (takeBoundNames mark) (takeBoundNames mark) :=
  ask (fun _ hs => I.quiet hs (.flags _ _ _ _)) fun _ _ => rfl

/-! Frames and names. -/

section

variable {I : Invariant} {D : Nat → Prop} {m : Nat}

theorem alwaysMark {α β : Type} {f : α → β} {p : Parse α} {q : Parse β} {change : Frame → Frame}
    (hp : Agrees I Inside m m f p q) (h : Frame.Marks change) :
    Agrees I Inside m m f (Parse.always p (·.onScopes (·.modifyTop change)))
      (Parse.always q (·.onScopes (·.modifyTop change))) := by
  constructor
  intro c r s j d hr hd hs
  have hx := hp.run hr hd hs
  simp only [Parse.always]
  generalize p c s = x at hx ⊢
  generalize q _ _ = y at hx ⊢
  cases hx with
  | ok hx => exact .ok (I.mark h (Nat.add_pos_left hd m) hx)
  | error hx => exact .error (I.brokenMark h hd hx)

theorem declaring (name : String) (form : BindingForm) :
    Agrees I Inside m m id (declaring (declarationOf name form))
      (declaring (declarationOf name form)) :=
  ask (fun hd hs => I.declare name form (Nat.add_pos_left hd m) hs) fun _ _ => rfl

theorem declareBinding (form : BindingForm) (name : String) (extent : Extent) :
    Agrees I Inside m m id (declareBinding form name extent) (declareBinding form name extent) := by
  refine bind (declaring name form) fun conflicts => state fun s j => ?_
  rw [show (s.withJournal j).strict = s.strict from rfl]
  dsimp only [id]
  split
  · exact failAt _ _
  · split
    · exact quiet (fun _ => .flags _ _ _ _) fun _ _ => rfl
    · exact pure rfl

theorem write (name : String) (extent : Extent) :
    Agrees I D m m id (write name extent) (write name extent) :=
  state fun _ _ => ite (failAt _ _) (scopes fun _ => I.write name)

theorem writeAll (writes : List (String × Extent)) :
    Agrees I D m m id (writeAll writes) (writeAll writes) := by
  induction writes with
  | nil => exact pure rfl
  | cons w rest ih => exact bind (write w.1 w.2) fun _ => ih

theorem commitWrites {s₀ : ParseState} {j₀ : Journal} (h₀ : ∀ {d}, D d → I.holds (d + m) s₀ j₀) :
    Agrees I D m m id (commitWrites s₀.checkpoint) (commitWrites s₀.checkpoint) :=
  bind (ask (fun hd hs => I.commit (h₀ hd) hs) fun _ _ => rfl) writeAll

theorem writeNames (names : List String) : Agrees I D m m id
    (modifyScopes fun scopes => names.foldl Scopes.write scopes)
    (modifyScopes fun scopes => names.foldl Scopes.write scopes) := by
  refine scopes fun {d s j} _ hs => ?_
  induction names generalizing s with
  | nil => exact hs
  | cons name rest ih => exact ih (I.write name hs)

end

end Agrees

end EcmaFront
