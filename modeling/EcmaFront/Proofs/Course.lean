import EcmaFront.Proofs.Laying
import EcmaFront.Proofs.LineRule

/-!
The tokens consumed between two states of a parse, and the nodes taken for them: lines are among the
tokens as the nodes need them. This is kept while tokens are added and nodes are put together. What
a statement ends with, and what must be on one line, is known where the last of it is consumed.
-/

set_option autoImplicit false

namespace EcmaFront

open Node (AreLined)
open Parse (FunctionHeader)

namespace Sight

/-- Between two sights tokens are consumed, at least one if it is `solid`, and taken for nodes in
which lines are as the grammar has it. -/
structure Course (solid : Bool) (x : Sight) (ts : List Token) (ns : List Node) (y : Sight) :
    Prop where
  trail : x.Trail ts y
  solid : solid = true → ts ≠ []
  lined : AreLined x.lexer.view.gaps ts ns

namespace Course

variable {solid solid' : Bool} {x y z : Sight} {ts us : List Token} {ns ms : List Node}

theorem still (h : x.Trail [] y) : x.Course false [] [] y := ⟨h, nofun, .nil⟩

theorem token {strict : Bool} (hk : x.token.kind.isPlain = true)
    (hs : x.strict = true → strict = true) :
    x.Course true [x.token] [] (x.next strict) := ⟨.next .nil hs hk, by simp, .nil⟩

theorem append (h : x.Course solid ts ns y) (hx : x.Ready) (h' : y.Course solid' us ms z) :
    x.Course (solid || solid') (ts ++ us) (ns ++ ms) z := by
  refine ⟨h.trail.trans h'.trail, fun hb => ?_, .append ?_ ?_⟩
  · obtain hb | hb := (Bool.or_eq_true _ _).mp hb
    · simp [h.solid hb]
    · simp [h'.solid hb]
  · simpa using h.lined.within [] us
  · have hl := h'.lined
    rw [(h.trail.passes hx).view] at hl
    simpa using hl.within ts []

theorem map (h : x.Course solid ts ns y) (f : ∀ g ts, AreLined g ts ns → AreLined g ts ms) :
    x.Course solid ts ms y :=
  ⟨h.trail, h.solid, f _ _ h.lined⟩

theorem exists_last (h : x.Course true ts ns y) (hx : x.Ready) :
    ∃ us t, ts = us ++ [t] ∧ t.extent.stop = y.lastEnd.offset ∧
      (y.lexer.standing.newline = false → ∀ u, x.lexer.view.gaps.sameLine t u) ∧
      (y.lexer.standing.newline = true ∨ y.token.kind = .rightBrace ∨ y.token.kind = .eof →
        x.lexer.view.gaps.mayEnd t) := by
  have hn := h.solid rfl
  have hp := h.trail.passes hx
  have hf := h.trail.follows hx hn
  have hl : (ts.getLast hn).extent.stop = y.lastEnd.offset :=
    hp.last _ (List.getLast?_eq_getLast_of_ne_nil hn)
  refine ⟨ts.dropLast, ts.getLast hn, (List.dropLast_append_getLast hn).symm, hl,
    fun hy _ => ?_, fun hy => ?_⟩
  · show (x.lexer.view.behind (ts.getLast hn).extent.stop).newline = false
    rw [hl, ← hp.view, ← hf.newline, hy]
  · show x.lexer.view.Closes (ts.getLast hn).extent.stop
    rw [hl, ← hp.view]
    exact hf.closes hy

theorem exists_first (h : x.Course true ts ns y) (hx : x.Ready) :
    ∃ t us, ts = t :: us ∧ t.extent.start = x.token.extent.start ∧ x.position = t.extent.start := by
  have hp := h.trail.passes hx
  obtain ⟨t, us, rfl⟩ := List.exists_cons_of_ne_nil (h.solid rfl)
  have ht := hp.first t rfl
  exact ⟨t, us, rfl, ht, (hp.position_eq (h.solid rfl)).trans ht.symm⟩

end Course

end Sight

namespace ParseState

def Runs (s : ParseState) (solid : Bool) (ns : List Node) (s' : ParseState) : Prop :=
  s.sight.Ready → ∃ ts, s.sight.Course solid ts ns s'.sight

/-- What was read are the children of a node in which those are on one line that must be. -/
def Joins (s : ParseState) (n : Node) (s' : ParseState) : Prop :=
  s.sight.Ready → ∃ ts, s.sight.Course true ts n.children s'.sight ∧
    n.IsJoined s.sight.lexer.view.gaps ts

variable {solid solid' : Bool} {c : ParseContext} {s s₁ s₂ s₃ s' : ParseState} {ns ms : List Node}
  {n : Node} {a : Stmt} {kind kind' : TokenKind}

namespace Runs

theorem still (h : s'.sight = s.sight) : s.Runs false [] s' := fun _ => ⟨[], h ▸ .still .nil⟩

theorem refl (s : ParseState) : s.Runs false [] s := still rfl

theorem append (h : s.Runs solid ns s₁) (h' : s₁.Runs solid' ms s') :
    s.Runs (solid || solid') (ns ++ ms) s' := fun hs => by
  obtain ⟨ts, h⟩ := h hs
  obtain ⟨us, h'⟩ := h' (h.trail.passes hs).ready
  exact ⟨ts ++ us, h.append hs h'⟩

theorem nil_append (h : s.Runs solid [] s₁) (h' : s₁.Runs solid' ns s') :
    s.Runs (solid || solid') ns s' := append h h'

theorem append_nil (h : s.Runs solid ns s₁) (h' : s₁.Runs solid' [] s') :
    s.Runs (solid || solid') ns s' := by
  simpa using append h h'

theorem behind (ht : s.sight.Trail [] s₁.sight) (h : s₁.Runs solid ns s') : s.Runs solid ns s' := by
  simpa using nil_append (fun _ => ⟨[], .still ht⟩ : s.Runs false [] s₁) h

theorem again (ha : s.sight.Again s₁.sight) (h : s₁.Runs solid ns s') : s.Runs solid ns s' :=
  behind ha.trail h

theorem then_still (h : s.Runs solid ns s₁) (hs : s'.sight = s₁.sight) : s.Runs solid ns s' := by
  simpa using append_nil h (still hs)

theorem congr (hs : s₁.sight = s.sight) (h : s₁.Runs solid ns s') : s.Runs solid ns s' :=
  again (hs ▸ .refl) h

theorem forget (h : s.Runs solid ns s') : s.Runs false ns s' := fun hs => by
  obtain ⟨ts, h⟩ := h hs
  exact ⟨ts, h.trail, nofun, h.lined⟩

theorem map (h : s.Runs solid ns s') (f : ∀ g ts, AreLined g ts ns → AreLined g ts ms) :
    s.Runs solid ms s' := fun hs => by
  obtain ⟨ts, h⟩ := h hs
  exact ⟨ts, h.map f⟩

theorem next (hk : s.kind = kind) (hp : kind.isPlain = true := by rfl) : s.Runs true [] s.next := by
  subst hk
  exact fun _ => ⟨_, .token (x := s.sight) hp id⟩

theorem after_next (hk : s.kind = kind) (h : s.next.Runs solid ns s')
    (hp : kind.isPlain = true := by rfl) :
    s.Runs true ns s' := nil_append (next hk hp) h

theorem then_next (h : s.Runs solid ns s') (hk : s'.kind = kind)
    (hp : kind.isPlain = true := by rfl) :
    s.Runs true ns s'.next := by
  simpa using append_nil h (next hk hp)

theorem between (ho : s.kind = kind) (h : s.next.Runs solid ns s') (hc : s'.kind = kind')
    (hk : kind.isPlain = true := by rfl) (hk' : kind'.isPlain = true := by rfl) :
    s.Runs true ns s'.next :=
  then_next (after_next ho h hk) hc hk'

theorem leaving {strict : Bool} (h : s.Runs solid ns s₁) (hk : s₁.kind = kind)
    (hs : s.strict = true → strict = true) (he : s'.sight = s₁.sight.next strict)
    (hp : kind.isPlain = true := by rfl) : s.Runs true ns s' := fun hr => by
  obtain ⟨ts, h⟩ := h hr
  subst hk
  rw [he]
  refine ⟨ts ++ [s₁.token], .next h.trail hs hp, by simp, ?_⟩
  simpa using h.lined.within [] [s₁.token]

theorem again_of_plain (ha : s.sight.Again s₁.sight) (hp : s.kind.isPlain = true)
    (h : s₁.kind = s.kind → s₁.Runs solid ns s') : s.Runs solid ns s' := fun hr => by
  refine Runs.again ha (h (congrArg Token.kind (ha.token hr.settled fun he => ?_).1)) hr
  replace he : s.kind = .eof := he
  rw [he] at hp
  cases hp

theorem of_lays {depth : Nat} (h : s.Lays solid depth ms s') (f : ∀ g ts, AreLined g ts ns) :
    s.Runs solid ns s' :=
  fun hr => by
    obtain ⟨ts, h⟩ := h hr
    exact ⟨ts, h.trail, h.solid, f _ _⟩

theorem node (h : s.Runs solid n.children s')
    (hj : ∀ g ts, n.IsJoined g ts := by intro _ _; trivial)
    (he : ∀ g ts, n.IsEnded g ts := by intro _ _; trivial) : s.Runs solid [n] s' :=
  h.map fun g ts hl => .node hl (hj g ts) (he g ts)

end Runs

namespace Joins

theorem of_runs (h : s.Runs true n.children s')
    (hj : ∀ g ts, n.IsJoined g ts := by intro _ _; trivial) :
    s.Joins n s' :=
  fun hs => by
    obtain ⟨ts, h⟩ := h hs
    exact ⟨ts, h, hj _ _⟩

theorem runs (h : s.Joins n s') : s.Runs true n.children s' := fun hs => by
  obtain ⟨ts, h, -⟩ := h hs
  exact ⟨ts, h⟩

theorem node (h : s.Joins n s') (he : ∀ g ts, n.IsEnded g ts := by intro _ _; trivial) :
    s.Runs true [n] s' := fun hs => by
  obtain ⟨ts, h, hj⟩ := h hs
  exact ⟨ts, h.trail, h.solid, .node h.lined hj (he _ _)⟩

theorem ended (h : s.Joins (.statement a) s₁) (he : Parse.Ends s₁ s')
    (hs : a.span.stop = s'.lastEnd := by rfl)
    (hm : ∀ g ts, g.Ends ts a.span → a.IsEnded g ts := by intro _ _ h; exact h) :
    s.Runs true [.statement a] s' :=
  fun hr => by
    obtain ⟨ts, h, hj⟩ := h hr
    cases he with
    | semicolon hk =>
      have ht : s.sight.Course true (ts ++ [s₁.token]) a.nodes s₁.next.sight := by
        have hc := h.append hr
          (.token (x := s₁.sight) (show s₁.kind.isPlain = true by rw [hk]; rfl) id)
        rwa [List.append_nil] at hc
      refine ⟨_, ht.trail, ht.solid,
        .node ht.lined (by simpa using hj.within [] [s₁.token]) (hm _ _ ?_)⟩
      exact ⟨s₁.token, by simp, by rw [hs]; rfl, .inl hk⟩
    | omitted hk hend =>
      obtain ⟨us, t, rfl, ht, -, hmay⟩ := h.exists_last hr
      simp only [mayEnd, Bool.or_eq_true, beq_iff_eq, hk, false_or] at hend
      have hl := hmay (hend.symm.imp id id)
      refine ⟨_, h.trail, h.solid, .node h.lined hj (hm _ _ ?_)⟩
      exact ⟨t, by simp, by rw [hs]; exact ht, .inr hl⟩

end Joins

theorem leads_operand {e : Expr} {stop : Position} (hk : s.kind = kind)
    (hn : s.next.newline = false) (h : s.next.Runs true [.expression e] s₁)
    (hl : s.next.Lays true 0 [.expression e] s₁) (hr : s.sight.Ready)
    (hp : kind.isPlain = true := by rfl) :
    ∃ ts, s.sight.Course true ts [.expression e] s₁.sight ∧
      s.sight.lexer.view.gaps.Leads ts ⟨s.start, stop⟩ kind
        (·.extent.start ≤ e.span.start.offset) := by
  subst hk
  have hw : s.sight.Course true [s.token] [] s.next.sight := .token (x := s.sight) hp id
  have hr' := (hw.trail.passes hr).ready
  obtain ⟨ts, h⟩ := h hr'
  obtain ⟨_, hl⟩ := hl hr'
  obtain ⟨us, t, ht, -, hsame, -⟩ := hw.exists_last hr
  obtain ⟨u, vs, rfl, -, hu⟩ := h.exists_first hr'
  obtain rfl : s.token = t := by simpa using congrArg List.getLast? ht
  refine ⟨_, hw.append hr h, s.token, u, ⟨[], vs, rfl⟩, rfl, rfl, ?_, hsame hn u⟩
  show u.extent.start ≤ e.span.start.offset
  exact hu ▸ (hl.within _ (List.mem_singleton_self _)).1

theorem runs_jump {labelFault? : String → Option Label → Option Cause} {allowed : Scopes → Bool}
    {outside : Cause}
    {make : Span → Option String → Stmt}
    (h : Parse.jump (B := .tree) labelFault? allowed outside make c s = (.ok a, s'))
      (hk : s.kind = kind)
    (hm : ∀ span label, (make span label).nodes = [] ∧ (make span label).span = span)
    (hj : ∀ span label g ts, (∀ name, label = some name →
      g.Leads ts span kind fun u => u.kind = .identifier ∧ u.text = name) →
        (Node.statement (make span label)).IsJoined g ts)
    (he : ∀ span label g ts, g.Ends ts span → (make span label).IsEnded g ts)
      (hp : kind.isPlain = true := by rfl) :
    s.Runs true [.statement a] s' := by
  have ended {label : Option String} {s₁ s' : ParseState}
      (hn : s.sight.Ready → ∃ ts, s.sight.Course true ts [] s₁.sight ∧ ∀ name, label = some name →
        s.sight.lexer.view.gaps.Leads ts (s'.spanFrom s.start) kind fun u =>
        u.kind = .identifier ∧ u.text = name) (hs : Parse.Ends s₁ s') :
      s.Runs true [.statement (make (s'.spanFrom s.start) label)] s' := by
    obtain ⟨hn', hspan⟩ := hm (s'.spanFrom s.start) label
    refine Joins.ended (fun hr => ?_) hs (by rw [hspan]; rfl) (by rw [hspan]; exact he _ label)
    obtain ⟨ts, h, hl⟩ := hn hr
    refine ⟨ts, ?_, hj _ label _ ts hl⟩
    rwa [show (Node.statement (make _ label)).children = [] from hn']
  subst hk
  have hw : s.sight.Course true [s.token] [] s.next.sight := .token (x := s.sight) hp id
  simp only [Parse.jump, Parse.state_bind, Parse.next_bind] at h
  replace h : Parse.Yields _ c _ _ := h
  split at h
  · next name hl =>
    replace h : Parse.Yields _ c _ _ := h
    split at h
    · simp [Parse.Yields] at h
    · simp only [Parse.Yields, Parse.next_bind, Parse.bind_ok, Parse.spanFrom_run, Prod.mk.injEq,
        Except.ok.injEq] at h
      obtain ⟨_, _, hs, _, _, ⟨rfl, rfl⟩, h⟩ := h
      obtain ⟨rfl, rfl⟩ := Parse.pure_ok.1 h
      have hl' := hl
      simp only [Parse.jumpLabel?, Option.ite_none_right_eq_some, Bool.and_eq_true,
        Bool.not_eq_true', mayEnd, Bool.or_eq_false_iff, beq_iff_eq, Option.some.injEq] at hl'
      obtain ⟨⟨⟨-, hn⟩, hi⟩, hname⟩ := hl'
      have hw' : s.next.sight.Course true [s.next.token] [] s.next.next.sight :=
        .token (x := s.next.sight) (show s.next.kind.isPlain = true by rw [hi]; rfl) id
      refine ended (fun hr => ⟨_, hw.append hr hw', ?_⟩) (Parse.ends_of_consumeSemicolon hs)
      intro name' hname'
      obtain rfl : name = name' := Option.some.inj (hl.symm.trans hname')
      obtain ⟨us, t, ht, -, hsame, -⟩ := hw.exists_last hr
      obtain rfl : s.token = t := by simpa using congrArg List.getLast? ht
      exact ⟨s.token, s.next.token, ⟨[], [], rfl⟩, rfl, rfl, ⟨hi, hname⟩, hsame hn _⟩
  · next hl =>
    simp [Parse.Yields] at h
    obtain ⟨-, hs, rfl⟩ := h
    exact ended (fun hr => ⟨_, hw, fun _ hn => by cases hl.symm.trans hn⟩)
      (Parse.ends_of_consumeSemicolon hs)

theorem runs_postfix {e : Expr} {op : UpdateOp} (h : s.Runs true [.expression e] s')
    (hl : s.Lays true 0 [.expression e] s') (hk : UpdateOp.ofToken? s'.kind = some op)
    (hn : s'.newline = false) :
    s.Runs true [.expression (.update (s'.next.spanFrom s.start) op false e)] s'.next := by
  refine Joins.node fun hr => ?_
  obtain ⟨ts, h⟩ := h hr
  obtain ⟨_, hl⟩ := hl hr
  have hw : s'.sight.Course true [s'.token] [] s'.next.sight :=
    .token (x := s'.sight) (TokenKind.isPlain_of_isFlat (TokenKind.isFlat_of_updateOp hk)) id
  obtain ⟨us, t, rfl, ht, hsame, -⟩ := h.exists_last hr
  refine ⟨_, h.append hr hw, t, s'.token, ⟨us, [], by simp⟩, ?_, hk, rfl, hsame hn _⟩
  rw [ht]
  exact (hl.within _ (List.mem_singleton_self _)).2

theorem joins_function {f : Function} {h : FunctionHeader}
    (hp : s.Runs true (f.parameters.map .parameter) s₁)
    (hl : s.Lays true 0 (f.parameters.map .parameter) s₁) (hc : s₂.sight = s₁.sight)
    (ha : (if h.form == .arrow then Parse.consumeArrow else pure ()) c s₂ = (.ok (), s₃))
    (hb : s₃.Runs true (f.body.nodes f.bodySpan) s') (hf : f.form = h.form)
    (hs : f.parametersStart = s.token.extent.start) (hx : f.bodySpan.start = s₃.start) :
    s.Joins (.expression (.function f)) s' := by
  replace hp := hp.then_still hc
  replace hl := hl.then_still hc
  intro hr
  obtain ⟨ts, hp⟩ := hp hr
  obtain ⟨_, hl⟩ := hl hr
  split at ha
  · simp only [Parse.consumeArrow, Parse.state_bind, Parse.ite_ok, Parse.unexpected_ok,
      Parse.fail_ok, and_false, false_or, Parse.next_run, Prod.mk.injEq, true_and, bne_iff_ne,
      ne_eq, not_not, Bool.not_eq_true] at ha
    obtain ⟨hk, hn, rfl⟩ := ha
    have hw : s₂.sight.Course true [s₂.token] [] s₂.next.sight :=
      .token (x := s₂.sight) (show s₂.kind.isPlain = true by rw [hk]; rfl) id
    have hr₂ := (hp.trail.passes hr).ready
    have hr₃ := (hw.trail.passes hr₂).ready
    obtain ⟨us, hb⟩ := hb hr₃
    obtain ⟨ts, t, rfl, ht, hsame, -⟩ := hp.exists_last hr
    obtain ⟨v, vs, rfl, hv, -⟩ := hb.exists_first hr₃
    refine ⟨_, hp.append hr (hw.append hr₂ hb), fun _ => ⟨t, s₂.token, v, ⟨ts, vs, by simp⟩, ?_,
      fun q hq => ?_, hk, ?_,
      hsame hn _⟩⟩
    · have hstart := (hp.trail.passes hr).start t (by simp)
      rw [(hp.trail.passes hr).position_eq (hp.solid rfl)] at hstart
      rw [hs]
      exact hstart
    · rw [ht]
      exact (hl.within _ (List.mem_map_of_mem hq)).2
    · rw [hv, hx]
      rfl
  · next hform =>
    obtain ⟨-, rfl⟩ := Parse.pure_ok.1 ha
    obtain ⟨us, hb⟩ := hb (hp.trail.passes hr).ready
    exact ⟨_, hp.append hr hb, fun ha => absurd (by rw [← hf, ha]; rfl) hform⟩

end ParseState

end EcmaFront
