import EcmaFront.Proofs.AlikeStatement

/-!
A parse that watches itself: wherever a phrase begins, the open frames must tell of jumps just what
the text around it says, or the parse breaks off. It never does, and it always comes to an end.
-/

set_option autoImplicit false

namespace EcmaFront

open Classical in
/-- What may be jumped to in the statement inside a statement that begins at `o`, which may be a
loop or have a label. -/
noncomputable def Footing.under (k : Footing) (o : ParseState) : Footing :=
  match o.kind with
  | .kwFor | .kwWhile | .kwDo => k.loop
  | .identifier => k.label ⟨o.token.text, decide (o.LoopHere true)⟩
  | _ => k

/-- What may be jumped to in a part of a phrase that begins at `o`, from what may be jumped to
around the phrase. The part begins with frames of the given kinds open: inside a function it is
where one more function is open, and among the clauses of a `switch` where one more block is. -/
noncomputable def Footing.part (k : Footing) (phrase : Phrase) (o : ParseState) (part : Phrase)
    (kinds : List FrameKind) : Footing :=
  if o.scopes.kinds.count .function < kinds.count .function then .function
  else if phrase ≠ .statement then k
  else if part = .statement then k.under o
  else if o.kind = .kwSwitch ∧ o.scopes.kinds.length < kinds.length then k.switch
  else k

/-- The open frames tell of jumps what the footing says. -/
structure ParseState.Knows (s : ParseState) (k : Footing) : Prop where
  label : ∀ name, s.scopes.label? name = k.labels.find? (·.name == name)
  canBreak : s.scopes.canBreak = k.breaks
  canContinue : s.scopes.canContinue = k.continues

open Classical in
/-- The rules of the grammar, which break off where the open frames do not tell of jumps what the
text says. -/
noncomputable def Rules.watched (B : NodeAlgebra) : Nat → Footing → Rules B
  | 0, _, _ => Parse.fail .exhausted
  | n + 1, k, phrase => fun c s =>
    if s.Knows k then
      step B (fun part c t => watched B n (k.part phrase s part t.scopes.kinds) part c t) phrase c s
    else Parse.fail .exhausted c s

theorem ParseState.knows_ground (s : ParseState) : s.Knows s.ground.footing :=
  ⟨fun _ => rfl, rfl, rfl⟩

/-- The part of a phrase may begin in this place: what may be jumped to there is what the text
says. -/
structure Ground.Follows (k : Footing) (phrase : Phrase) (o : ParseState) (part : Phrase)
    (g : Ground) : Prop where
  footing : g.footing = k.part phrase o part g.kinds
  admits : ∀ form, part = .pattern form → g.Admits form

namespace Ground

variable {k : Footing} {phrase part : Phrase} {o : ParseState} {g : Ground}

theorem operands_follow (hc : g.kinds.count .function = o.scopes.kinds.count .function)
    (hf : ∀ part, part ≠ .statement → g.footing = k.part phrase o part g.kinds) :
    g.Operands (Follows k phrase o) where
  assignment := ⟨hf _ nofun, nofun⟩
  pattern form hp := ⟨hf _ nofun, by rintro _ ⟨⟩ rfl; exact absurd rfl hp⟩
  function part hp := ⟨by simp [Footing.part, function, hc],
    by rintro _ rfl rfl; exact absurd rfl hp⟩

theorem operands_ground (o : ParseState) (phrase : Phrase) :
    o.ground.Operands (Follows o.ground.footing phrase o) :=
  operands_follow rfl fun part hp => by simp [Footing.part, hp]

theorem operands_block (hk : o.kind ≠ .kwSwitch) :
    o.ground.block.Operands (Follows o.ground.footing .statement o) :=
  operands_follow (by simp [block]) fun part hp => by
    simp [Footing.part, block, hp, hk]

theorem operands_switch (hk : o.kind = .kwSwitch) :
    o.ground.switch.Operands (Follows o.ground.footing .statement o) :=
  operands_follow (by simp [switch]) fun part hp => by
    simp [Footing.part, switch, hp, hk]

theorem statement_follows (hc : g.kinds.count .function = o.scopes.kinds.count .function)
    (hf : g.footing = o.ground.footing.under o) :
    g.Follows o.ground.footing .statement o .statement :=
  ⟨by simp [Footing.part, hc, hf], nofun⟩

theorem statements_follow (o : ParseState) :
    o.ground.Statements (Follows o.ground.footing .statement o) o where
  operands := operands_ground o _
  block hk := by
    refine ⟨⟨?_, nofun⟩, operands_block hk, ?_, fun form _ _ => rfl⟩
    all_goals simp [Footing.part, block, hk]
  statement hk := statement_follows rfl (by obtain hk | hk := hk <;> rw [Footing.under, hk])
  loop hk := statement_follows rfl (by obtain hk | hk := hk <;> rw [Footing.under, hk] <;> rfl)
  loopInBlock hk := by
    refine statement_follows ?_ ?_
    · simp [block, loop]
    · rw [Footing.under, hk]
      rfl
  switch hk := by
    refine ⟨⟨?_, nofun⟩, operands_switch hk⟩
    simp [Footing.part, switch, hk]
  label hk isLoop hl := by
    classical
    refine statement_follows rfl ?_
    have hd : decide (o.LoopHere true) = isLoop := by
      cases isLoop with
      | true => exact decide_eq_true hl
      | false => exact decide_eq_false fun ht => Bool.noConfusion (ht.unique hl)
    simp only [Footing.under, hk]
    rw [← hd]
    rfl

end Ground

namespace Parse

variable {c : ParseContext} {o : ParseState}

namespace Asking

variable {r r' : Rules .tree} {K : Phrase → Ground → Prop} {m n : Nat} {phrase : Phrase}

theorem of_levels (hr : 2 * o.sight.rest + 8 ≤ c.rounds) (hn : 4 * o.sight.rest + m ≤ n)
    (h : ∀ {part t}, o.Stage t.ground t → K part t.ground → 2 * t.sight.rest + 8 ≤ c.rounds →
      4 * t.sight.rest + part.rank < n → Alike c t (Rules.bounded .tree n part) (r' part)) :
    Asking c (Rules.bounded .tree n) r' K m o := by
  refine ⟨bounded_reads _ _ _, hr, fun {part t g} ht ho hK => ?_⟩
  obtain rfl := ht.ground
  have hrest := ht.settled.rest_moves ht.moves
  refine h ht hK (by omega) ?_
  have hp := part.rank_le
  obtain ho | ho := ho
  · have hlt := ht.rest_lt ho
    omega
  · omega

theorem step (ha : Asking c r r' (Ground.Follows o.ground.footing phrase o) phrase.rank o)
    (hs : o.Stage o.ground o) (hf : ∀ form, phrase = .pattern form → o.ground.Admits form) :
    Alike c o (Rules.step .tree r phrase) (Rules.step .tree r' phrase) := by
  cases phrase with
  | item =>
    exact ha.ofItem hs (by decide) (Ground.operands_ground o _) ⟨by simp [Footing.part], nofun⟩
  | statement => exact ha.ofStatement hs (by decide) (Ground.statements_follow o)
  | assignment =>
    exact ha.ofAssignment (hs.onward (.still rfl rfl)) (by decide) (Ground.operands_ground o _)
  | pattern form =>
    have hp := hf form rfl
    refine ha.ofPattern (hs.onward (.still rfl rfl)) hp (Ground.operands_ground o _)
      ⟨by simp [Footing.part], ?_⟩
    rintro _ ⟨⟩
    exact hp

end Asking

open Alike in
/-- By induction on the levels: a phrase that begins further on in the text, or has a lower rank,
needs less of them. The rules come to an end with so many levels, and what they do is what they do
when they are watched. -/
theorem bounded_alike_watched {n : Nat} {phrase : Phrase} (hs : o.Stage o.ground o)
    (hf : ∀ form, phrase = .pattern form → o.ground.Admits form)
    (hr : 2 * o.sight.rest + 8 ≤ c.rounds) (hn : 4 * o.sight.rest + phrase.rank < n) :
    Alike c o (Rules.bounded .tree n phrase) (Rules.watched .tree n o.ground.footing phrase) := by
  induction n generalizing phrase o with
  | zero => cases hn
  | succ n ih =>
    have ha : Asking c (Rules.bounded .tree n)
        (fun part c t => Rules.watched .tree n
          (o.ground.footing.part phrase o part t.scopes.kinds) part c t)
        (Ground.Follows o.ground.footing phrase o) phrase.rank o := by
      refine .of_levels hr (Nat.le_of_lt_succ hn) fun {part t} ht hK hr hn => ?_
      have ha := ih ht.here hK.admits hr hn
      have hk : t.ground.footing = o.ground.footing.part phrase o part t.scopes.kinds := hK.footing
      exact ⟨hk ▸ ha.same, ha.gives⟩
    have hstep := ha.step hs hf
    have hw : Rules.watched .tree (n + 1) o.ground.footing phrase c o = _ := if_pos o.knows_ground
    exact ⟨hw.trans hstep.same, hstep.gives⟩

end Parse

end EcmaFront
