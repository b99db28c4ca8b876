import EcmaFront.Proofs.Consumption

/-!
What the look-ahead over labels finds. Whether a word is a label is seen from the character after
it, and whether the statement under the label is a loop from the tokens after it; the parser of
statements reads the same tokens.
-/

set_option autoImplicit false

namespace EcmaFront

/-- A statement that begins with the token is a loop. -/
def TokenKind.beginsLoop (kind : TokenKind) : Bool :=
  kind == .kwFor || kind == .kwWhile || kind == .kwDo

namespace View

variable {v : View}

theorem wordKind_ne_colon {strict escaped : Bool} {name : String} {kind : TokenKind}
    (h : wordKind strict escaped name = .ok kind) : kind ≠ .colon := by
  unfold wordKind at h
  split at h
  · cases h
    decide
  · next hw =>
    split at h
    · cases h
    · split at h <;> cases h
      · decide
      · unfold TokenKind.ofWord? at hw
        split at hw
        all_goals cases hw
        all_goals decide

theorem punctuator?_colon {c₀ c₁ c₂ c₃ : Char} {length : Nat}
    (h : punctuator? c₀ c₁ c₂ c₃ = some (.colon, length)) : c₀ = ':' := by
  unfold punctuator? at h
  split at h
  case h_8 => rfl
  all_goals
    simp only [Option.some.injEq, doubled, assigning, reduceCtorEq] at h
    repeat' split at h
    all_goals cases h

theorem toChar_colon {code : CodePoint} (h : code.toChar = ':') : code = 0x3A := by
  unfold CodePoint.toChar at h
  split at h
  · next hv =>
    have hn := congrArg Char.toNat h
    rw [Char.ofNat, dif_pos hv] at hn
    exact hn
  · exact absurd h (by decide)

theorem token_colon (strict : Bool) (p : Place) :
    (∃ value, (v.token strict p).1 = .ok (.colon, value)) ↔ v.code p.offset = 0x3A := by
  constructor
  · rintro ⟨value, h⟩
    simp only [token] at h
    split at h
    · cases h
    split at h
    · obtain ⟨_, _, hk, -⟩ := v.wordFrom_ok h
      exact absurd rfl (wordKind_ne_colon hk)
    split at h
    · cases v.numeral_ok h
    split at h
    · cases v.stringFrom_ok h
    split at h
    · next kind length hc =>
      cases h
      exact toChar_colon (punctuator?_colon hc)
    · cases h
  · intro h
    have he : v.isEnd p.offset = false := by
      unfold code at h
      split at h
      · simpa [isEnd]
      · cases h
    have hs : CodePoint.isIdentifierStart 0x3A = false := by decide +kernel
    have hd : CodePoint.isDecimalDigit 0x3A = false := by decide
    have hc : CodePoint.toChar 0x3A = ':' := by decide
    have hp (c₁ c₂ c₃ : Char) : punctuator? ':' c₁ c₂ c₃ = some (.colon, 1) := rfl
    simp [token, he, h, hs, hd, hc, hp]

end View

namespace Lexer

variable {l l' : Lexer} {strict : Bool} {b b' : Bool}

theorem colonFollows_iff (l : Lexer) (strict : Bool) :
    l.colonFollows.1 = true ↔ (l.next strict).1.kind = .colon := by
  have ht := (View.token_colon (v := l.view) strict (l.view.trivia l.place).place).symm
  simp only [colonFollows, next, Bool.and_eq_true, beq_iff_eq, Option.isNone_iff_eq_none, ht]
  split
  · next hu => simp [hu]
  · next hu =>
    generalize l.view.token strict (l.view.trivia l.place).place = x
    obtain ⟨⟨fault⟩ | ⟨kind, value⟩, stop⟩ := x
    · have hk : fault.kind ≠ .colon := by
        intro h
        have he := fault.kind_isError
        rw [h] at he
        cases he
      simp [hu, hk]
    · simp [hu]

/-- What is read behind where the lexer stands is, under any labels, a loop or not. -/
inductive LoopFollows (strict : Bool) : Lexer → Bool → Prop where
  | other {l : Lexer} (hk : (l.next strict).1.kind ≠ .identifier) :
    LoopFollows strict l (l.next strict).1.kind.beginsLoop
  | name {l : Lexer} (hk : (l.next strict).1.kind = .identifier)
    (hc : ((l.next strict).2.next strict).1.kind ≠ .colon) : LoopFollows strict l false
  | label {l : Lexer} {b : Bool} (hk : (l.next strict).1.kind = .identifier)
    (hc : ((l.next strict).2.next strict).1.kind = .colon)
    (h : LoopFollows strict ((l.next strict).2.next strict).2 b) : LoopFollows strict l b

namespace LoopFollows

theorem congr (h : LoopFollows strict l b) (hn : l'.next strict = l.next strict) :
    LoopFollows strict l' b := by
  cases h with
  | other hk => exact hn ▸ .other (hn ▸ hk)
  | name hk hc => exact .name (hn ▸ hk) (hn ▸ hc)
  | label hk hc h => exact .label (hn ▸ hk) (hn ▸ hc) (hn ▸ h)

theorem unique (h : LoopFollows strict l b) (h' : LoopFollows strict l b') : b = b' := by
  induction h generalizing b' with
  | other hk =>
    cases h' with
    | other => rfl
    | name hk' | label hk' => exact absurd hk' hk
  | name hk hc =>
    cases h' with
    | other hk' => exact absurd hk hk'
    | name => rfl
    | label _ hc' => exact absurd hc' hc
  | label hk hc _ ih =>
    cases h' with
    | other hk' => exact absurd hk hk'
    | name _ hc' => exact absurd hc hc'
    | label _ _ h => exact ih h

end LoopFollows

theorem next_goTo (l : Lexer) (strict : Bool) :
    ((l.goTo l.standing).next strict).1.kind = (l.next strict).1.kind ∧
      ((l.next strict).1.kind ≠ .eof → (l.goTo l.standing).next strict = l.next strict) := by
  by_cases ho : l.standing.offset ≤ l.view.limit
  · have hs : (l.goTo l.standing).standing = l.standing := by simp only [goTo, Nat.min_eq_left ho]
    have hv : (l.goTo l.standing).view = l.view := rfl
    have hn := next_congr hv hs strict
    exact ⟨by rw [hn], fun _ => hn⟩
  · have he : (l.next strict).1.kind = .eof := Decidable.byContradiction fun hk =>
      ho (Nat.le_of_lt (lt_limit_of_next hk))
    have he' : ((l.goTo l.standing).next strict).1.kind = .eof :=
      Decidable.byContradiction fun hk => by
      have hl : min l.standing.offset l.view.limit < l.view.limit := lt_limit_of_next hk
      omega
    exact ⟨he'.trans he.symm, fun hk => absurd he hk⟩

end Lexer

open Lexer (LoopFollows)

theorem Sight.Settled.next_lexer {x : Sight} (h : x.Settled) (strict : Bool) :
    ((x.origin.next x.strict).2.next strict).1.kind = (x.lexer.next strict).1.kind ∧
      ((x.lexer.next strict).1.kind ≠ .eof →
        (x.origin.next x.strict).2.next strict = x.lexer.next strict) := by
  obtain he | ⟨-, he⟩ := h.lexer
  · rw [← he]
    exact ⟨rfl, fun _ => rfl⟩
  · obtain ⟨hk, hn⟩ := (x.origin.next x.strict).2.next_goTo strict
    rw [he]
    exact ⟨hk.symm, fun h => (hn (hk ▸ h)).symm⟩

theorem Sight.Again.strict {x y : Sight} (h : x.Again y) : y.strict = x.strict := by
  induction h with
  | refl => rfl
  | reread _ ih => exact ih
  | lookAhead _ _ ih => exact ih

theorem Sight.Again.origin {x y : Sight} (h : x.Again y) (hs : x.Settled)
    (hk : x.token.kind ≠ .eof) :
    y.origin = x.origin := by
  rw [Sight.origin, Sight.origin, (h.token hs hk).2, h.moves.view]

namespace ParseState

variable {s s' : ParseState} {b : Bool}

/-- From the current token on there is, under any labels, a loop or not. -/
def LoopHere (s : ParseState) (b : Bool) : Prop := LoopFollows s.strict s.sight.origin b

namespace LoopHere

theorem other (h : s.sight.Settled) (hk : s.kind ≠ .identifier) : s.LoopHere s.kind.beginsLoop := by
  have ht : (s.sight.origin.next s.strict).1 = s.token := h.token
  have hl : LoopFollows s.strict s.sight.origin _ := .other (ht ▸ hk)
  rwa [ht] at hl

theorem of_kind {kind : TokenKind} (h : s.sight.Settled) (hk : s.kind = kind)
    (hi : kind ≠ .identifier := by decide) (hb : kind.beginsLoop = b := by rfl) : s.LoopHere b := by
  subst hk hb
  exact .other h hi

theorem name (h : s.sight.Settled) (hk : s.kind = .identifier) (hc : s.next.kind ≠ .colon) :
    s.LoopHere false := by
  have ht : (s.sight.origin.next s.strict).1 = s.token := h.token
  have hn : ((s.sight.origin.next s.strict).2.next s.strict).1.kind = s.next.kind :=
    (h.next_lexer s.strict).1
  exact LoopFollows.name (ht ▸ hk) (hn ▸ hc)

theorem label (h : s.sight.Settled) (hk : s.kind = .identifier) (hc : s.next.kind = .colon)
    (hb : s.next.next.LoopHere b) : s.LoopHere b := by
  have ht : (s.sight.origin.next s.strict).1 = s.token := h.token
  have hc : (s.lexer.next s.strict).1.kind = .colon := hc
  have hn : (s.sight.origin.next s.strict).2.next s.strict = s.lexer.next s.strict :=
    (h.next_lexer s.strict).2 (hc ▸ nofun)
  have hv : (s.lexer.next s.strict).2.view = s.next.next.sight.origin.view :=
    (Lexer.view_next _ _).symm
  have hb : LoopFollows s.strict (s.lexer.next s.strict).2 b :=
    LoopFollows.congr hb (Lexer.next_congr hv rfl _)
  exact LoopFollows.label (ht ▸ hk) (hn ▸ hc) (hn ▸ hb)

theorem congr (h : s.LoopHere b) (hs : s'.sight = s.sight) : s'.LoopHere b := by
  have hs' : s'.strict = s.strict := congrArg Sight.strict hs
  rwa [LoopHere, hs', hs]

theorem unique {b' : Bool} (h : s.LoopHere b) (h' : s.LoopHere b') : b = b' :=
  LoopFollows.unique h h'

theorem again (h : s.sight.Settled) (ha : s.sight.Again s'.sight) (hk : s'.kind ≠ .eof)
    (hb : s'.LoopHere b) :
    s.LoopHere b := by
  have ho := ha.origin h (ha.ne_eof h hk)
  have hs : s'.strict = s.strict := ha.strict
  rwa [LoopHere, hs, ho] at hb

end LoopHere

theorem next_kind_again (h : s.sight.Settled) (ha : s.sight.Again s'.sight) (hk : s.kind ≠ .eof) :
    s'.next.kind = s.next.kind := by
  have hn := ((h.moves ha.moves).next_lexer s.strict).1
  have hs : s'.strict = s.strict := ha.strict
  rw [ha.origin h hk, ha.strict, (h.next_lexer s.strict).1] at hn
  show (s'.lexer.next s'.strict).1.kind = (s.lexer.next s.strict).1.kind
  rw [hs]
  exact hn.symm

theorem loopHere_of_colonFollows {c : ParseContext} (h : s.sight.Settled)
    (hk : s.kind = .identifier) (hc : Parse.colonFollows c s = (.ok false, s')) :
    s.LoopHere false := by
  simp only [Parse.colonFollows, Parse.ask_run, Prod.mk.injEq, Except.ok.injEq] at hc
  refine .name h hk fun hn => ?_
  have hf := (s.lexer.colonFollows_iff s.strict).2 hn
  cases hc.1.symm.trans hf

theorem loopHere_of_labelsLoop {c : ParseContext} (h : s.sight.Settled)
    (hl : Parse.labelsLoop c s = (.ok b, s')) : s.LoopHere b := by
  simp only [Parse.labelsLoop, Parse.state_bind, Parse.bind_ok, Parse.modify_run,
    Parse.pure_ok] at hl
  obtain ⟨found, t, hr, _, _, -, rfl, -⟩ := hl
  have hr := Parse.rounds_of_repeatFrom hr
  clear * - h hr
  generalize () = u at hr
  induction hr with
  | @done _ s _ b hd =>
    simp only [Parse.labelRound, Parse.state_bind] at hd
    by_cases hk : s.kind = .identifier
    · simp [hk, Parse.peekKind] at hd
      obtain ⟨hc, rfl, -⟩ := hd
      exact .name h hk hc
    · simp [hk] at hd
      obtain ⟨rfl, -⟩ := hd
      exact .other h hk
  | @again _ _ s s₁ _ b ha _ ih =>
    simp only [Parse.labelRound, Parse.state_bind] at ha
    by_cases hk : s.kind = .identifier
    · have hg := (peekKind_glances s).again
      simp [hk, Parse.peekKind] at ha
      obtain ⟨hc, rfl⟩ := ha
      have hi : s.kind ≠ .eof := hk ▸ nofun
      have ht := h.moves hg.moves
      have hk' : s.peekKind.2.kind = .identifier := (congrArg Token.kind (hg.token h hi).1).trans hk
      have hc' : s.peekKind.2.next.kind = .colon := (next_kind_again h hg hi).trans hc
      refine LoopHere.again h hg (hk' ▸ nofun) (.label ht hk' hc' (ih ?_))
      exact (ht.moves (Moves.next _)).moves (Moves.next _)
    · simp [hk] at ha

end ParseState

end EcmaFront
