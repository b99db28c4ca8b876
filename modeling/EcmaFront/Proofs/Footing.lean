import EcmaFront.Proofs.Stance
import EcmaFront.Tree.Jump

/-!
What may be jumped to, seen from the open frames and seen from the tree.
-/

set_option autoImplicit false

namespace EcmaFront

namespace Footing

variable {k : Footing} {n : Node} {around : List Node}

theorem enter_function (h : n.isFunction = true) : k.enter n = function := by
  cases n with
  | statement a => cases a <;> first | rfl | cases h
  | expression e => cases e <;> first | rfl | cases h
  | _ => cases h

theorem enter_other (h : n.isFunction = false) :
    k.enter n = ⟨k.inFunction, n.label?.toList ++ k.labels, n.isLoop || n.isSwitch || k.breaks,
      n.isLoop || k.continues⟩ := by
  cases n with
  | statement a => cases a <;> first | rfl | cases h
  | expression e => cases e <;> first | rfl | cases h
  | _ => rfl

theorem inside_eq (around : List Node) :
    inside around = ⟨around.any (·.isFunction), (Node.within around).filterMap Node.label?,
      (Node.within around).any fun m => m.isLoop || m.isSwitch,
      (Node.within around).any Node.isLoop⟩ := by
  induction around with
  | nil => rfl
  | cons n around ih =>
    show (inside around).enter n = _
    cases h : n.isFunction with
    | true => simp [enter_function h, Node.within, h, function]
    | false =>
      rw [enter_other h, ih]
      cases hl : n.label? <;> simp [Node.within, h, hl]

theorem isTargeted (h : (inside around).Allows n) : n.IsTargeted around := by
  rw [inside_eq] at h
  unfold Node.IsTargeted
  split
  · simpa [Allows] using h
  · obtain ⟨isLoop, h⟩ := h
    obtain ⟨m, hm, hl⟩ := List.mem_filterMap.1 h
    exact ⟨m, hm, by rw [hl]; rfl⟩
  · simpa [Allows] using h
  · exact List.mem_filterMap.1 h
  · intro m hm hl
    obtain ⟨label, hl, hn⟩ := Option.map_eq_some_iff.1 hl
    exact h label (List.mem_filterMap.2 ⟨m, hm, hl⟩) hn
  · trivial

theorem inFunction_of_isReturn (h : (inside around).Allows n) (hn : n.isReturn = true) :
    around.any (·.isFunction) = true := by
  rw [inside_eq] at h
  unfold Node.isReturn at hn
  split at hn
  · exact h
  · cases hn

/-- The one footing is there in the other, which may be inside more loops and switches. -/
structure Within (k k' : Footing) : Prop where
  inFunction : k.inFunction = k'.inFunction
  labels : k.labels = k'.labels
  breaks : k.breaks = true → k'.breaks = true
  continues : k.continues = true → k'.continues = true

namespace Within

variable {k' : Footing}

theorem refl (k : Footing) : k.Within k := ⟨rfl, rfl, id, id⟩

theorem loop (h : k.Within k') : k.Within k'.loop := ⟨h.1, h.2, fun _ => rfl, fun _ => rfl⟩

theorem loops (h : k.Within k') : k.loop.Within k'.loop := ⟨h.1, h.2, fun _ => rfl, fun _ => rfl⟩

theorem switch (h : k.Within k') : k.Within k'.switch := ⟨h.1, h.2, fun _ => rfl, h.4⟩

theorem switches (h : k.Within k') : k.switch.Within k'.switch := ⟨h.1, h.2, fun _ => rfl, h.4⟩

theorem label (h : k.Within k') (label : Label) : (k.label label).Within (k'.label label) :=
  ⟨h.1, congrArg (label :: ·) h.2, h.3, h.4⟩

end Within

end Footing

namespace Frame.Stance

def footing : List Stance → Footing
  | [] => {}
  | f :: rest =>
    let outer := if f.kind = .block then footing rest else { inFunction := f.kind = .function }
    ⟨outer.inFunction, f.labels ++ outer.labels, (0 < f.loops || 0 < f.switches) || outer.breaks,
      0 < f.loops || outer.continues⟩

variable {f : Stance} {fs : List Stance}

theorem footing_cons (f : Stance) (fs : List Stance) :
    footing (f :: fs) =
      let outer := if f.kind = .block then footing fs else { inFunction := f.kind = .function }
      ⟨outer.inFunction, f.labels ++ outer.labels, (0 < f.loops || 0 < f.switches) || outer.breaks,
        0 < f.loops || outer.continues⟩ := rfl

theorem footing_foldl (names : List String) (f : Stance) (fs : List Stance) :
    footing (names.foldl take f :: fs) = footing (f :: fs) := by
  induction names generalizing f with
  | nil => rfl
  | cons name names ih => exact ih (f.take name)

@[simp] theorem footing_takes (names : List String) (fs : List Stance) :
    footing (takes names fs) = footing fs := by
  induction fs with
  | nil => rfl
  | cons f rest ih =>
    by_cases hk : f.kind = .block
    · simp only [takes_block hk, footing_cons, ih]
    · rw [takes_cons hk, footing_foldl]

theorem takes_ne_nil {names : List String} (h : fs ≠ []) : takes names fs ≠ [] := by
  cases fs with
  | nil => exact absurd rfl h
  | cons f rest =>
    by_cases hk : f.kind = .block
    · simp [takes_block hk]
    · simp [takes_cons hk]

theorem footing_block (fs : List Stance) :
    footing (⟨.block, [], 0, 0, [], false⟩ :: fs) = footing fs := by
  simp [footing_cons]

theorem footing_loop (h : fs ≠ []) :
    footing (fs.modifyHead fun f => { f with loops := f.loops + 1 }) = (footing fs).loop := by
  cases fs with
  | nil => exact absurd rfl h
  | cons f rest => simp [footing_cons, Footing.loop]

theorem footing_switch (h : fs ≠ []) :
    footing (fs.modifyHead fun f => { f with switches := f.switches + 1 }) =
    (footing fs).switch := by
  cases fs with
  | nil => exact absurd rfl h
  | cons f rest => simp [footing_cons, Footing.switch]

theorem footing_label (label : Label) (h : fs ≠ []) :
    footing (fs.modifyHead fun f => { f with labels := label :: f.labels }) =
    (footing fs).label label := by
  cases fs with
  | nil => exact absurd rfl h
  | cons f rest => simp [footing_cons, Footing.label]

end Frame.Stance

namespace Scopes

def footing (s : Scopes) : Footing :=
  ⟨s.function?.any (·.isFunction), s.enclosing.flatMap (·.labels), s.canBreak, s.canContinue⟩

theorem footing_eq (s : Scopes) : s.footing = Frame.Stance.footing s.stances := by
  rcases s with ⟨frames⟩
  induction frames with
  | nil => rfl
  | cons f rest ih =>
    simp only [footing, canBreak, canContinue, function?, stances, Footing.mk.injEq, List.map_cons,
      Frame.Stance.footing, enclosing_cons] at ih ⊢
    cases hk : f.kind <;>
      simp [Frame.isBlock, Frame.isBoundary, Frame.isFunction, Frame.stance, hk, ← ih]

end Scopes

end EcmaFront
