import EcmaFront.Proofs.Footing
import EcmaFront.Proofs.Inherit
import EcmaFront.Proofs.LoopAhead
import EcmaFront.Proofs.PhraseStep
import EcmaFront.Tree.WellFormed

/-!
A node is sound where it stands if it is well formed and the place allows it, and all inside it are
sound. What the grammar reads is sound in the place that the open frames tell of.
-/

set_option autoImplicit false

namespace EcmaFront

open Frame.Stance (takes takes_append footing)

/-! States. -/

/-- From one state the reading goes on to another. The same frames are open, in which parameters may
have been read. -/
structure ParseState.Onward (s s' : ParseState) : Prop where
  moves : s.Moves s'
  stances : ∃ names, s'.stances = takes names s.stances

/-- A state of a parse of the source, where so much may be jumped to. -/
structure ParseState.Stands (source : Source) (k : Footing) (s : ParseState) : Prop where
  settled : s.sight.Settled
  view : s.lexer.view = (Lexer.ofSource source).view
  frames : s.stances ≠ []
  footing : (footing s.stances).Within k

namespace ParseState

variable {c : ParseContext} {s s₁ s' : ParseState} {source : Source} {k : Footing}
  {l : List (Finding Empty)}

namespace Onward

theorem still (h : s'.sight = s.sight) (hs : s'.stances = s.stances) : s.Onward s' :=
  ⟨.of_sight h, [], by rw [hs, Frame.Stance.takes_nil]⟩

theorem trans (h : s.Onward s₁) (h' : s₁.Onward s') : s.Onward s' := by
  obtain ⟨names, hs⟩ := h.stances
  obtain ⟨names', hs'⟩ := h'.stances
  exact ⟨h.moves.trans h'.moves, names ++ names', by rw [hs', hs, takes_append]⟩

theorem next (s : ParseState) : s.Onward s.next := ⟨.next s, [], (Frame.Stance.takes_nil _).symm⟩

theorem behind (h : (Walk.bare c).Leads s l s') (hs : s'.stances = s.stances) : s.Onward s' :=
  ⟨h.moves, [], by rw [hs, Frame.Stance.takes_nil]⟩

theorem taking {names : List String} (h : (Walk.bare c).Leads s l s')
    (hs : s'.stances = takes names s.stances) :
    s.Onward s' := ⟨h.moves, names, hs⟩

theorem glance (h : s.Glances s') : s.Onward s' :=
  ⟨h.moves, [], by rw [h.stances, Frame.Stance.takes_nil]⟩

end Onward

namespace Stands

theorem onward (h : s.Stands source k) (ho : s.Onward s') : s'.Stands source k where
  settled := h.settled.moves ho.moves
  view := ho.moves.view.trans h.view
  frames := by
    obtain ⟨names, hs⟩ := ho.stances
    exact hs ▸ Frame.Stance.takes_ne_nil h.frames
  footing := by
    obtain ⟨names, hs⟩ := ho.stances
    rw [hs, Frame.Stance.footing_takes]
    exact h.footing

theorem next (h : s.Stands source k) : s.next.Stands source k := h.onward (.next s)

theorem inside {k' : Footing} (h : s.Stands source k) (hs : s'.sight = s.sight)
    (hn : s'.stances ≠ [])
    (hf : (Frame.Stance.footing s.stances).Within k → (Frame.Stance.footing s'.stances).Within k') :
    s'.Stands source k' :=
  ⟨hs ▸ h.settled, (congrArg (·.lexer.view) hs).trans h.view, hn, hf h.footing⟩

theorem weaken (h : s.Stands source k) : s.Stands source k.loop :=
  { h with footing := h.footing.loop }

theorem switch (h : s.Stands source k) : s.Stands source k.switch :=
  { h with footing := h.footing.switch }

theorem pushBlock (h : s.Stands source k) : (s.onScopes .pushBlock).Stands source k :=
  h.inside rfl (by simp) fun hf => by
    rwa [stances_onScopes, Scopes.stances_pushBlock, Frame.Stance.footing_block]

theorem enter (h : s.Stands source k) (header : Parse.FunctionHeader) :
    (s.enter header).Stands source .function :=
  h.inside rfl (by simp) fun _ => by
    rw [stances_enter]
    exact .refl _

theorem mark {change : Frame → Frame} {g : Frame.Stance → Frame.Stance} {k' : Footing}
    (h : s.Stands source k)
    (hc : Frame.Marks change) (hg : ∀ f, (change f).stance = g f.stance)
    (hf : (Frame.Stance.footing s.stances).Within k →
      (Frame.Stance.footing (s.stances.modifyHead g)).Within k') :
    (s.onScopes (·.modifyTop change)).Stands source k' := by
  have hs : (s.onScopes (·.modifyTop change)).stances = s.stances.modifyHead g :=
    Scopes.stances_change hg
  exact h.inside (sight_touched (.mark hc)) (by simpa [hs] using h.frames) fun hw => hs ▸ hf hw

theorem beginLoop (h : s.Stands source k) : (s.onScopes .beginLoop).Stands source k.loop :=
  h.mark (fun _ => ⟨_, _, _, rfl⟩) (fun _ => rfl) fun hf => by
    rw [Frame.Stance.footing_loop h.frames]
    exact hf.loops

theorem beginSwitch (h : s.Stands source k) :
    (s.onScopes (·.pushBlock.beginSwitch)).Stands source k.switch :=
  h.pushBlock.mark (fun _ => ⟨_, _, _, rfl⟩) (fun _ => rfl) fun hf => by
    rw [Frame.Stance.footing_switch h.pushBlock.frames]
    exact hf.switches

theorem pushLabel (h : s.Stands source k) (name : String) (isLoop : Bool) :
    (s.onScopes (·.pushLabel name isLoop)).Stands source (k.label ⟨name, isLoop⟩) :=
  h.mark (fun _ => ⟨_, _, _, rfl⟩) (fun _ => rfl) fun hf => by
    rw [Frame.Stance.footing_label ⟨name, isLoop⟩ h.frames]
    exact hf.label _

end Stands

end ParseState

/-! Nodes. -/

namespace Node

/-- A node that is well formed and allowed where it stands, as are all nodes inside it. -/
inductive IsSound (source : Source) : Footing → Node → Prop where
  | node {k : Footing} {n : Node} (hw : n.IsWellFormed source) (ha : k.Allows n)
    (hc : ∀ m ∈ n.children, IsSound source (k.enter n) m) : IsSound source k n

def AreSound (source : Source) (k : Footing) (ns : List Node) : Prop :=
  All (fun n => n.IsSound source k ∧ n.IsInitialized) ns

variable {source : Source} {k : Footing} {n m : Node} {ns ms : List Node} {around : List Node}
  {p : Program}

theorem IsSound.inside (h : n.IsSound source k) (hm : m ∈ n.children) :
    m.IsSound source (k.enter n) := by
  cases h with
  | node _ _ hc => exact hc m hm

theorem mem_children_of_mem_parts (h : m ∈ n.parts) : m ∈ n.children := by
  unfold parts at h
  split at h
  · exact List.mem_append_right _ h
  · exact h

namespace AreSound

theorem nil : AreSound source k [] := All.nil

theorem append (h : AreSound source k ns) (h' : AreSound source k ms) :
    AreSound source k (ns ++ ms) := All.append h h'

theorem cons (h : AreSound source k [n]) (h' : AreSound source k ms) :
    AreSound source k (n :: ms) := All.cons h h'

theorem isSound (hc : AreSound source (k.enter n) n.children) (hp : n.IsProper source := by trivial)
    (ha : k.Allows n := by trivial) : n.IsSound source k :=
  .node ⟨hp, fun m hm => (hc m (mem_children_of_mem_parts hm)).2⟩ ha fun m hm => (hc m hm).1

theorem node (hc : AreSound source (k.enter n) n.children) (hp : n.IsProper source := by trivial)
    (ha : k.Allows n := by trivial) (hi : n.IsInitialized := by trivial) : AreSound source k [n] :=
  All.one ⟨isSound hc hp ha, hi⟩

theorem loopEach {loop : EachLoop} {span : Span}
    {left : ForTarget (VariableDeclaration Expr Pat) Expr Pat} {e : Expr} {s : Stmt}
    {scope : Environment} (hl : ∀ n ∈ left.nodes, n.IsSound source k.loop) (ha : left.IsAssignable)
    (h : AreSound source k.loop [.expression e, .statement s]) :
    AreSound source k [.statement (.loopEach loop span left e s scope)] :=
  All.one ⟨.node ⟨ha, fun m hm => (h m hm).2⟩ trivial
    (List.forall_mem_append.2 ⟨hl, fun m hm => (h m hm).1⟩), trivial⟩

theorem inherits (source : Source) (k : Footing) :
    Inherits fun n => n.IsSound source k ∧ n.IsInitialized := fun n hn hc => by
  rcases n with s | _ | _ | _ | _ | e | _ | _ | p | _ | _
  case expression =>
    cases e
    case function | update | assign | assignPattern => cases hn
    all_goals exact AreSound.node hc
  case pattern => exact AreSound.node hc
  all_goals cases hn

end AreSound

theorem IsSound.of_places (h : ∀ a ∈ p.body, (Node.statement a).IsSound source {})
    (hn : p.Places around n) :
    n.IsSound source (.inside around) := by
  induction hn with
  | item ha => exact h _ ha
  | child _ hm ih => exact ih.inside hm

end Node

end EcmaFront
