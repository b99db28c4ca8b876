import EcmaFront.Proofs.AlikeStep
import EcmaFront.Proofs.Blame
import EcmaFront.Proofs.Gap
import EcmaFront.Proofs.Lookahead

/-!
Questions about the tokens ahead leave no trace. In a well-formed source a parse stands at a token
that is read where it begins, in code as strict as that around it, and so it does after every step.
To go back is to read that token again, and the state is what it was.
-/

set_option autoImplicit false

namespace EcmaFront

/-- The current token is read in the source from where it begins, in code of this mode, and the
lexer stands behind it. -/
structure Sight.Stands (x : Sight) (source : Source) : Prop where
  comesTo : source.ComesTo x.tokenStart
  read : Lexer.next ⟨source.view, x.tokenStart, none⟩ x.strict = (x.token, x.lexer)

namespace Sight.Stands

variable {x y : Sight} {source : Source} {b : Bool}

theorem shows (h : x.Stands source) : source.Shows x.tokenStart x.token x.lexer :=
  ⟨h.comesTo, ⟨x.strict, false⟩, (Lexer.read_eq_next (r := ⟨x.strict, false⟩) nofun).trans h.read⟩

theorem of_read {l : Lexer} (hv : l.view = source.view) (hs : source.ComesTo l.standing)
    (strict : Bool) :
    (x.read l strict).Stands source :=
  ⟨hs, @Lexer.next_congr l ⟨source.view, l.standing, none⟩ hv.symm rfl strict⟩

theorem settled (h : x.Stands source) : x.Settled := by
  have hr : x.origin.next x.strict = (x.token, x.lexer) := by
    rw [origin, h.shows.view]
    exact h.read
  exact ⟨congrArg Prod.fst hr, .inl (congrArg Prod.snd hr).symm⟩

theorem turn {strict : Bool} (h : Stands { x with strict } source)
    (hk : x.token.kind = .rightBrace) : x.Stands source where
  comesTo := h.comesTo
  read := (Lexer.next_of_rightBrace ((congrArg (·.1.kind) h.read).trans hk) x.strict).trans h.read

theorem lookAhead (hx : source.WellFormed) (h : x.Stands source)
    (hk : x.token.kind.isError = false) :
    x.lookAhead = x := by
  rw [Sight.lookAhead, h.shows.goTo_standing hx hk]

theorem step (hx : source.WellFormed) (h : x.Stands source) (hs : Step b x y) :
    y.Stands source := by
  cases hs with
  | next strict => exact of_read h.shows.view h.shows.comesTo_behind strict
  | regexp hk =>
    have hr := h.shows.regexp (by obtain hk | hk := hk <;> rw [hk] <;> rfl)
    exact of_read hr.view hr.comesTo_behind x.strict
  | reread strict =>
    rw [reread, h.comesTo.goTo hx h.shows.view]
    exact of_read rfl h.comesTo strict
  | lookAhead hk =>
    rw [h.lookAhead hx (by rw [hk]; rfl)]
    exact h

/-- By induction on the steps: a reading always stands at a token of the source. -/
theorem moves (hx : source.WellFormed) (h : x.Stands source) (hm : Moves b x y) :
    y.Stands source := by
  induction hm with
  | refl => exact h
  | step _ hs ih => exact (ih h).step hx hs
  | forget _ ih => exact ih h

end Sight.Stands

theorem ParseState.LooksOn.returns {s t : ParseState} {source : Source} (hx : source.WellFormed)
    (hs : s.sight.Stands source) (h : s.LooksOn t) : t.rewind s.checkpoint = s := by
  have hg : t.lexer.goTo s.tokenStart = ⟨source.view, s.tokenStart, none⟩ :=
    hs.comesTo.goTo hx (h.view.trans hs.shows.view)
  have hr : Lexer.next ⟨source.view, s.tokenStart, none⟩ s.strict = (s.token, s.lexer) := hs.read
  rw [h.rewind, hg]
  exact congrArg (fun x : Token × Lexer => { s with token := x.1, lexer := x.2 }) hr

namespace Parse

variable {α β : Type} {c : ParseContext} {s : ParseState} {source : Source}
  {accept : ParseState → Bool}

/-- The step has an answer, and it leaves the state as it was. -/
def Answers (c : ParseContext) (s : ParseState) (p : Parse α) : Prop := ∃ a, p c s = (.ok a, s)

namespace Answers

theorem state {p : Parse α} (h : Answers c s p) : (p c s).2 = s := by
  obtain ⟨a, h⟩ := h
  rw [h]

theorem pure {a : α} : Answers c s (pure a) := ⟨a, rfl⟩

theorem ask {question : ParseState → α × ParseState} (h : (question s).2 = s) :
    Answers c s (ask question) :=
  ⟨(question s).1, congrArg (Prod.mk _) h⟩

theorem ask_bind {question : ParseState → α × ParseState} {f : α → Parse β} (h : (question s).2 = s)
    (hf : Answers c s (f (question s).1)) : Answers c s (Parse.ask question >>= f) := by
  obtain ⟨b, hb⟩ := hf
  exact ⟨b, (congrArg (f (question s).1 c) h).trans hb⟩

theorem state_bind {f : ParseState → Parse β} (h : Answers c s (f s)) :
    Answers c s (Parse.state >>= f) := h

theorem back {p : Parse α} (hx : source.WellFormed) (hs : s.sight.Stands source) (hp : Asks p)
    (ha : Alike c s p p) :
    Answers c s (do let found ← p; modify (·.rewind s.checkpoint); Pure.pure found) := by
  obtain ⟨hr, he⟩ := hp c s
  have hg := ha.gives
  rw [Answers]
  simp only [Bind.bind]
  generalize p c s = x at hr he hg ⊢
  obtain ⟨e | a, t⟩ := x
  · exact absurd (he e rfl) hg
  · exact ⟨a, congrArg (Prod.mk (Except.ok a)) (hr.returns hx hs)⟩

end Answers

namespace Lookahead

theorem follows (hx : source.WellFormed) (hs : s.sight.Stands source)
    (hr : s.sight.rest < c.rounds) :
    Answers c s (Parse.followsBrackets accept) :=
  .back hx hs (.repeatFrom fun _ => .skipBracketed)
    (.repeatFrom (·.sight.Settled) hs.settled hr fun _ _ hs => .skipBracketed hs)

theorem answered {p : Parse α} (hp : Lookahead p) (hx : source.WellFormed)
    (hs : s.sight.Stands source) (hr : s.sight.rest < c.rounds) : Answers c s p := by
  have hn : s.next.rewind s.checkpoint = s := (ParseState.LooksOn.next s).returns hx hs
  cases hp with
  | peekKind => exact .ask hn
  | atLetDeclaration =>
    refine .state_bind ?_
    split
    · exact .pure
    · refine .ask_bind hn ?_
      split <;> exact .pure
  | atArrowFunction =>
    refine .state_bind ?_
    split
    · exact .ask hn
    · exact follows hx hs hr
    · exact .pure
  | followsBrackets accept => exact follows hx hs hr
  | accessor? =>
    refine .state_bind ?_
    extract_lets kind?
    cases kind? with
    | none => exact .pure
    | some kind =>
      refine .ask_bind hn ?_
      split <;> exact .pure
  | labelsLoop =>
    exact .back hx hs (.repeatFrom fun _ => .labelRound)
      (.repeatFrom (·.sight.Settled) hs.settled hr fun _ _ hs => .labelRound hs)

end Lookahead

theorem colonFollows_run (hx : source.WellFormed) (hs : s.sight.Stands source) :
    colonFollows c s = (.ok s.lexer.colonFollows.1,
      { s with lexer := { s.lexer with fault := none } }) := by
  have hl : s.lexer.goTo s.lexer.standing = { s.lexer with fault := none } := by
    have hg := hs.shows.comesTo_behind.goTo hx hs.shows.view
    rwa [← hs.shows.view] at hg
  exact congrArg (fun lexer => (Except.ok s.lexer.colonFollows.1, { s with lexer := lexer })) hl

theorem answers_colonFollows (hx : source.WellFormed) (hs : s.sight.Stands source)
    (hk : s.kind.isError = false) :
    Answers c s colonFollows := by
  have hl : s.lexer.goTo s.lexer.standing = s.lexer := hs.shows.goTo_standing hx hk
  exact .ask (congrArg (fun lexer => { s with lexer := lexer }) hl)

end Parse

namespace ParseState

/-- The steps of a parse lead to a state. At the brace that ends a function the frame may be left
already. -/
def Reaches (o s : ParseState) : Prop :=
  o.Moves s ∨ s.kind = .rightBrace ∧ ∃ strict, Sight.Moves false o.sight { s.sight with strict }

theorem stands_entered (source : Source) (options : ParseOptions) :
    (entered source options).sight.Stands source :=
  @Sight.Stands.of_read { (initial source).sight with lastEnd := _ } source
    (Lexer.ofSource source) rfl
    source.comesTo_start options.startsStrict

namespace Reaches

variable {o s : ParseState} {source : Source}

theorem stands (hx : source.WellFormed) (ho : o.sight.Stands source) (h : o.Reaches s) :
    s.sight.Stands source := by
  obtain hm | ⟨hk, strict, hm⟩ := h
  · exact ho.moves hx hm
  · exact (ho.moves hx hm).turn hk

theorem rest_le (ho : o.sight.Settled) (h : o.Reaches s) : s.sight.rest ≤ o.sight.rest := by
  obtain hm | ⟨-, strict, hm⟩ := h
  · exact ho.rest_moves hm
  · have hr : ({ s.sight with strict } : Sight).rest ≤ o.sight.rest := ho.rest_moves hm
    exact hr

end Reaches

end ParseState

end EcmaFront
