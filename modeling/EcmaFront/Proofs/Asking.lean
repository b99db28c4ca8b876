import EcmaFront.Proofs.Alike
import EcmaFront.Proofs.Footing
import EcmaFront.Proofs.Placement
import EcmaFront.Proofs.ReadStatement

/-!
What one phrase may ask others for: a phrase behind its own first token, or one of a lower rank.
Where it asks, the frames tell in which part of it that is.
-/

set_option autoImplicit false

namespace EcmaFront

def Phrase.rank : Phrase → Nat
  | .item => 3
  | .statement => 2
  | .assignment => 1
  | .pattern _ => 0

theorem Phrase.rank_le (phrase : Phrase) : phrase.rank ≤ 3 := by
  cases phrase <;> simp [rank]

/-- Where a part of a phrase is read: what may be jumped to, and the kinds of the open frames. -/
structure Ground where
  footing : Footing
  kinds : List FrameKind
  deriving DecidableEq, Repr

namespace Ground

def function (g : Ground) : Ground := ⟨.function, .function :: g.kinds⟩

def block (g : Ground) : Ground := { g with kinds := .block :: g.kinds }

def loop (g : Ground) : Ground := { g with footing := g.footing.loop }

def label (g : Ground) (label : Label) : Ground := { g with footing := g.footing.label label }

def switch (g : Ground) : Ground := ⟨g.footing.switch, .block :: g.kinds⟩

def Admits (g : Ground) (form : BindingForm) : Prop :=
  form = .catchParameter → g.kinds.head? = some .block

end Ground

/-- The kinds of the open frames, the innermost first. -/
def Scopes.kinds (s : Scopes) : List FrameKind := s.frames.map (·.kind)

def Scopes.ground (s : Scopes) : Ground := ⟨s.footing, s.kinds⟩

open Frame.Stance (takes)

namespace Frame.Stance

theorem map_kind_takes (names : List String) (fs : List Stance) :
    (takes names fs).map (·.kind) = fs.map (·.kind) := by
  induction fs with
  | nil => rfl
  | cons f rest ih =>
    unfold takes
    split
    · simp [ih]
    · simp [kind_foldl]

end Frame.Stance

namespace ParseState

def ground (s : ParseState) : Ground := s.scopes.ground

variable {s s' : ParseState}

theorem ground_eq (s : ParseState) :
    s.ground = ⟨Frame.Stance.footing s.stances, s.stances.map (·.kind)⟩ := by
  rw [ground, Scopes.ground, Scopes.kinds, Scopes.footing_eq, stances, Scopes.stances, List.map_map]
  rfl

@[simp] theorem kinds_ground (s : ParseState) : s.ground.kinds = s.scopes.kinds := rfl

theorem Onward.ground (h : s.Onward s') : s'.ground = s.ground := by
  obtain ⟨names, hs⟩ := h.stances
  rw [ground_eq, ground_eq, hs, Frame.Stance.footing_takes, Frame.Stance.map_kind_takes]

theorem ground_pushBlock (s : ParseState) : (s.onScopes .pushBlock).ground = s.ground.block := by
  rw [ground_eq, ground_eq, stances_onScopes, Scopes.stances_pushBlock, Frame.Stance.footing_block]
  rfl

theorem ground_enter (s : ParseState) (h : Parse.FunctionHeader) :
    (s.enter h).ground = s.ground.function := by
  rw [ground_eq, ground_eq, stances_enter]
  rfl

theorem ground_modifyTop {change : Frame → Frame} {f : Frame.Stance → Frame.Stance}
    {k : Footing → Footing} (hd : s.ground.kinds ≠ []) (hc : ∀ x, (change x).stance = f x.stance)
    (hf : ∀ x, (f x).kind = x.kind)
    (hk : ∀ fs, fs ≠ [] → Frame.Stance.footing (fs.modifyHead f) = k (Frame.Stance.footing fs)) :
    (s.onScopes (·.modifyTop change)).ground = { s.ground with footing := k s.ground.footing } := by
  have hs : (s.onScopes (·.modifyTop change)).stances = s.stances.modifyHead f :=
    Scopes.stances_change hc
  rw [ground_eq] at hd ⊢
  rw [ground_eq, hs, hk _ fun hn => hd (by rw [hn]; rfl)]
  cases s.stances with
  | nil => rfl
  | cons x rest => simp [hf]

theorem ground_beginLoop (hd : s.ground.kinds ≠ []) :
    (s.onScopes .beginLoop).ground = s.ground.loop :=
  ground_modifyTop (f := fun x => { x with loops := x.loops + 1 }) hd (fun _ => rfl) (fun _ => rfl)
    fun _ => Frame.Stance.footing_loop

theorem ground_beginSwitch (s : ParseState) :
    (s.onScopes (·.pushBlock.beginSwitch)).ground = s.ground.switch := by
  have hb := s.ground_pushBlock
  have hs : ((s.onScopes .pushBlock).onScopes .beginSwitch).ground = _ :=
    ground_modifyTop (f := fun x => { x with switches := x.switches + 1 })
      (by simp [hb, Ground.block]) (fun _ => rfl)
      (fun _ => rfl) fun _ => Frame.Stance.footing_switch
  rw [hb] at hs
  exact hs

theorem ground_pushLabel (hd : s.ground.kinds ≠ []) (name : String) (isLoop : Bool) :
    (s.onScopes (·.pushLabel name isLoop)).ground = s.ground.label ⟨name, isLoop⟩ :=
  ground_modifyTop (f := fun x => { x with labels := ⟨name, isLoop⟩ :: x.labels })
    (k := (·.label ⟨name, isLoop⟩)) hd
    (fun _ => rfl) (fun _ => rfl) fun _ => Frame.Stance.footing_label ⟨name, isLoop⟩

/-- From where a phrase begins the reading has come to a place inside it. -/
structure Stage (o : ParseState) (g : Ground) (s : ParseState) : Prop where
  settled : o.sight.Settled
  moves : o.Moves s
  ground : s.ground = g
  deep : g.kinds ≠ []

/-- The first token of the phrase is left behind. -/
structure Ahead (o : ParseState) (g : Ground) (s : ParseState) : Prop extends Stage o g s where
  ahead : o.sight.position < s.sight.position

variable {o : ParseState} {g g' : Ground}

namespace Stage

theorem now (h : s.Stage g s') : s'.sight.Settled := h.settled.moves h.moves

theorem here (h : o.Stage g s) : s.Stage s.ground s :=
  ⟨h.now, .of_sight rfl, rfl, h.ground ▸ h.deep⟩

theorem position_le (h : o.Stage g s) (hm : s.Moves s') : s.sight.position ≤ s'.sight.position :=
  h.now.position_moves hm

theorem rest_lt (h : o.Stage g s) (hp : o.sight.position < s.sight.position) :
    s.sight.rest < o.sight.rest := by
  have hv : s.sight.lexer.view = o.sight.lexer.view := h.moves.view
  have hl := s.sight.position_le
  rw [Sight.rest, Sight.rest, hv] at *
  omega

theorem admits {form : BindingForm} (h : o.Stage g s) (hf : g.Admits form) :
    s.Admits form := fun he => by
  have hk : s.ground.kinds.head? = some .block := h.ground ▸ hf he
  rcases hs : s.scopes.frames with _ | ⟨f, rest⟩
  · simp [ParseState.ground, Scopes.ground, Scopes.kinds, hs] at hk
  · simpa [ParseState.ground, Scopes.ground, Scopes.kinds, Scopes.top?, Frame.isBlock, hs] using hk

theorem onward (h : o.Stage g s) (ho : s.Onward s') : o.Stage g s' :=
  ⟨h.settled, h.moves.trans ho.moves, ho.ground.trans h.ground, h.deep⟩

theorem taking {names : List String} (h : o.Stage g s) (hc : s.Consumes s')
    (hs : s'.stances = takes names s.stances) : o.Ahead g s' where
  toStage := h.onward ⟨hc.moves, names, hs⟩
  ahead := Nat.lt_of_le_of_lt (h.settled.position_moves h.moves) (hc.forward h.now).2

theorem consumed (h : o.Stage g s) (hc : s.Consumes s') (hs : s'.stances = s.stances) :
    o.Ahead g s' :=
  h.taking hc (hs.trans (Frame.Stance.takes_nil _).symm)

theorem advance (h : o.Stage g s) (hk : s.kind.isSolid = true) : o.Ahead g s.next :=
  h.consumed (.of_kind rfl (.of_sight rfl) hk) rfl

theorem advance_of {kind : TokenKind} (h : o.Stage g s) (hk : s.kind = kind)
    (hs : kind.isSolid = true) :
    o.Ahead g s.next := h.advance (hk ▸ hs)

theorem move (h : o.Stage g s) (hs : s'.sight = s.sight) (hg : s'.ground = g')
    (hd : g'.kinds ≠ []) : o.Stage g' s' :=
  ⟨h.settled, h.moves.trans (.of_sight hs), hg, hd⟩

end Stage

namespace Ahead

theorem onward (h : o.Ahead g s) (ho : s.Onward s') : o.Ahead g s' where
  toStage := h.toStage.onward ho
  ahead := Nat.lt_of_lt_of_le h.ahead (h.position_le ho.moves)

theorem next (h : o.Ahead g s) : o.Ahead g s.next := h.onward (.next s)

theorem allow (h : o.Ahead g s) (allowed : Bool) : o.Ahead g (s.allow allowed) :=
  h.onward (.still rfl rfl)

theorem behind {c : ParseContext} {l : List (Finding Empty)} (h : o.Ahead g s)
    (hl : (Walk.bare c).Leads s l s') (hs : s'.stances = s.stances) : o.Ahead g s' :=
  h.onward (.behind hl hs)

theorem lowers {σ α : Type} {x : σ} (h : o.Ahead g s) (hc : s.Consumes s')
    (hs : s'.stances = s.stances) :
    Parse.Alike.Lowers (α := α) (o.Ahead g) s (.again x) s' :=
  ⟨h.toStage.consumed hc hs, hc.rest_lt h.now⟩

theorem lowers_through {σ α : Type} {x : σ} {s₁ : ParseState} (h : o.Ahead g s) (ho : s.Onward s₁)
    (hk : s₁.kind.isSolid = true) (ho' : s₁.next.Onward s') :
    Parse.Alike.Lowers (α := α) (o.Ahead g) s (.again x) s' := by
  have h₁ := h.onward ho
  have hc : s₁.Consumes s' := .of_kind rfl ho'.moves hk
  exact ⟨h₁.next.onward ho', Nat.lt_of_lt_of_le (hc.rest_lt h₁.now) (h.now.rest_moves ho.moves)⟩

theorem lowers_from {σ α : Type} {x : σ} {kind : TokenKind} (h : o.Ahead g s) (hk : s.kind = kind)
    (ho : s.next.Onward s') (hs : kind.isSolid = true) :
    Parse.Alike.Lowers (α := α) (o.Ahead g) s (.again x) s' :=
  h.lowers_through (.still rfl rfl) (hk ▸ hs) ho

theorem lowers_next {σ α : Type} {x : σ} (h : o.Ahead g s) (ho : s.Onward s')
    (hk : s'.kind.isSolid = true) :
    Parse.Alike.Lowers (α := α) (o.Ahead g) s (.again x) s'.next :=
  h.lowers_through ho hk (.still rfl rfl)

theorem move (h : o.Ahead g s) (hs : s'.sight = s.sight) (hg : s'.ground = g')
    (hd : g'.kinds ≠ []) : o.Ahead g' s' where
  toStage := h.toStage.move hs hg hd
  ahead := hs ▸ h.ahead

theorem pushBlock (h : o.Ahead g s) : o.Ahead g.block (s.onScopes .pushBlock) :=
  h.move rfl (by rw [ground_pushBlock, h.ground]) (List.cons_ne_nil _ _)

theorem beginLoop (h : o.Ahead g s) : o.Ahead g.loop (s.onScopes .beginLoop) :=
  h.move (sight_touched (.mark fun _ => ⟨_, _, _, rfl⟩))
    (by rw [ground_beginLoop (h.ground ▸ h.deep), h.ground]) h.deep

theorem beginSwitch (h : o.Ahead g s) : o.Ahead g.switch (s.onScopes (·.pushBlock.beginSwitch)) :=
  h.move (sight_touched (s := s.onScopes .pushBlock) (.mark fun _ => ⟨_, _, _, rfl⟩))
    (by rw [ground_beginSwitch, h.ground]) (List.cons_ne_nil _ _)

theorem pushLabel (h : o.Ahead g s) (name : String) (isLoop : Bool) :
    o.Ahead (g.label ⟨name, isLoop⟩) (s.onScopes (·.pushLabel name isLoop)) :=
  h.move (sight_touched (.mark fun _ => ⟨_, _, _, rfl⟩))
    (by rw [ground_pushLabel (h.ground ▸ h.deep), h.ground]) h.deep

end Ahead

end ParseState

/-- A function is read in this place, and any phrase inside it, but for the parameter of a
handler. -/
def Ground.Functions (K : Phrase → Ground → Prop) (g : Ground) : Prop :=
  ∀ phrase, phrase ≠ .pattern .catchParameter → K phrase g

/-- An expression is read in this place, and functions may be read inside it. -/
structure Ground.Operands (K : Phrase → Ground → Prop) (g : Ground) : Prop where
  assignment : K .assignment g
  pattern : ∀ form, form ≠ .catchParameter → K (.pattern form) g
  function : g.function.Functions K

namespace Parse

/-- In a phrase of rank `m` that begins at `o`, two sets of rules come to the same end wherever they
may be asked. -/
structure Asking (c : ParseContext) (r r' : Rules .tree) (K : Phrase → Ground → Prop) (m : Nat)
    (o : ParseState) :
    Prop where
  reads : Reads c r
  room : 2 * o.sight.rest + 8 ≤ c.rounds
  asks : ∀ {phrase s g}, o.Stage g s → o.sight.position < s.sight.position ∨ phrase.rank < m →
    K phrase g → Alike c s (r phrase) (r' phrase)

namespace Asking

variable {c : ParseContext} {r r' : Rules .tree} {K : Phrase → Ground → Prop} {m : Nat}
  {o s : ParseState} {g : Ground}

theorem assignment (h : Asking c r r' K m o) (hs : o.Ahead g s) (hK : K .assignment g) :
    Alike c s r.assignment r'.assignment := h.asks hs.toStage (.inl hs.ahead) hK

theorem item (h : Asking c r r' K m o) (hs : o.Ahead g s) (hK : K .item g) :
    Alike c s r.item r'.item :=
  h.asks hs.toStage (.inl hs.ahead) hK

theorem statement (h : Asking c r r' K m o) (hs : o.Ahead g s) (hK : K .statement g) :
    Alike c s r.statement r'.statement := h.asks hs.toStage (.inl hs.ahead) hK

theorem pattern {form : BindingForm} (h : Asking c r r' K m o) (hs : o.Ahead g s)
    (hK : K (.pattern form) g) :
    Alike c s (r.pattern form) (r'.pattern form) := h.asks hs.toStage (.inl hs.ahead) hK

theorem assignmentAt (h : Asking c r r' K m o) (hs : o.Stage g s)
    (ho : o.sight.position < s.sight.position ∨ 1 < m) (hK : K .assignment g) :
    Alike c s r.assignment r'.assignment := h.asks hs ho hK

theorem comma {σ α : Type} {s₁ : ParseState} (hs : o.Ahead g s) (ho : s.Onward s₁) (x : σ) (y : α) :
    Alike c s₁ (do if ← consume .comma then pure (.again x) else pure (.done y))
      (do if ← consume .comma then pure (.again x) else pure (.done y))
        (Alike.Lowers (o.Ahead g) s) :=
  .consume_bind (fun hk => .pure (hs.lowers_next ho (hk ▸ rfl))) fun _ => .pure trivial

theorem rest_le (h : Asking c r r' K m o) (hs : o.Stage g s) : 2 * s.sight.rest + 8 ≤ c.rounds := by
  have hr := h.room
  have hm := hs.settled.rest_moves hs.moves
  omega

theorem rest_lt (h : Asking c r r' K m o) (hs : o.Stage g s) : s.sight.rest < c.rounds := by
  have hr := h.rest_le hs
  omega

end Asking

end Parse

end EcmaFront
