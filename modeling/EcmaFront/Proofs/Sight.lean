import EcmaFront.Grammar.State
import EcmaFront.Proofs.Scanning

/-!
What a parse sees of its text, and how that changes: a token is consumed, or the current token is
read again from where it was read first, perhaps in another mode. All readings of the grammar are
made of such steps. No step leaves the text or goes back in it, and a token that is consumed is left
behind.
-/

set_option autoImplicit false

namespace EcmaFront

/-- The current token, where it was read, the lexer behind it and the end of the token before. -/
structure Sight where
  lexer : Lexer
  token : Token
  tokenStart : Standing
  lastEnd : Position
  strict : Bool

def ParseState.sight (s : ParseState) : Sight :=
  ⟨s.lexer, s.token, s.tokenStart, s.lastEnd, s.strict⟩

namespace Sight

def read (x : Sight) (lexer : Lexer) (strict : Bool) : Sight :=
  ⟨(lexer.next strict).2, (lexer.next strict).1, lexer.standing, x.lastEnd, strict⟩

/-- Consume the current token and read the next one as code of a mode. -/
def next (x : Sight) (strict : Bool) : Sight :=
  let stop := x.token.extent.stop
  let standing := x.lexer.standing
  { x with lastEnd := ⟨stop, standing.line, columnBehind (stop - standing.lineStart)⟩ }.read x.lexer
    strict

def reread (x : Sight) (strict : Bool) : Sight := x.read (x.lexer.goTo x.tokenStart) strict

/-- Read the current slash token on as a regular expression. -/
def regexp (x : Sight) : Sight :=
  let found := x.lexer.regexp x.token (if x.token.kind == .slashEqual then "=" else "")
  { x with token := found.1, lexer := found.2 }

/-- The lexer looked ahead on its own and went back. -/
def lookAhead (x : Sight) : Sight := { x with lexer := x.lexer.goTo x.lexer.standing }

def origin (x : Sight) : Lexer := ⟨x.lexer.view, x.tokenStart, none⟩

/-- One step of a reading, and whether it consumes a token that stands for something. -/
inductive Step : Bool → Sight → Sight → Prop where
  | next {x : Sight} (strict : Bool) : Step x.token.kind.isSolid x (x.next strict)
  | regexp {x : Sight} (hk : x.token.kind = .slash ∨ x.token.kind = .slashEqual) :
    Step x.token.kind.isSolid x (x.regexp.next x.strict)
  | reread {x : Sight} (strict : Bool) : Step false x (x.reread strict)
  | lookAhead {x : Sight} (hk : x.token.kind = .identifier) : Step false x x.lookAhead

/-- Some steps, and whether one of them is known to consume a token. -/
inductive Moves : Bool → Sight → Sight → Prop where
  | refl (x : Sight) : Moves false x x
  | step {b b' : Bool} {x y z : Sight} (h : Moves b x y) (hs : Step b' y z) : Moves (b || b') x z
  | forget {b : Bool} {x y : Sight} (h : Moves b x y) : Moves false x y

/-- The current token is what the lexer reads from where the token begins, and the lexer stands
behind it. -/
structure Settled (x : Sight) : Prop where
  token : (x.origin.next x.strict).1 = x.token
  lexer : x.lexer = (x.origin.next x.strict).2 ∨
    x.token.kind = .identifier ∧
    x.lexer = (x.origin.next x.strict).2.goTo (x.origin.next x.strict).2.standing

/-- How far a reading has come. Beyond the limit all is one. -/
def position (x : Sight) : Nat := min x.token.extent.start x.lexer.view.limit

def rest (x : Sight) : Nat := x.lexer.view.limit - x.position

theorem Step.moves {b : Bool} {x y : Sight} (h : Step b x y) : Moves b x y := by
  simpa using Moves.step (.refl x) h

theorem Moves.trans {b b' : Bool} {x y z : Sight} (h : Moves b x y) (h' : Moves b' y z) :
    Moves (b || b') x z := by
  induction h' with
  | refl => simpa using h
  | step _ hs ih => simpa only [Bool.or_assoc] using (ih h).step hs
  | forget _ ih =>
    cases b with
    | false => exact (ih h).forget
    | true => simpa using ih h

@[simp] theorem view_read (x : Sight) (lexer : Lexer) (strict : Bool) :
    (x.read lexer strict).lexer.view = lexer.view :=
  lexer.view_next strict

@[simp] theorem view_regexp (x : Sight) : x.regexp.lexer.view = x.lexer.view :=
  (x.lexer.regexp_advances x.token _).1

theorem Settled.read (x : Sight) (lexer : Lexer) (strict : Bool) :
    (x.read lexer strict).Settled := by
  have hv : (x.read lexer strict).origin.view = lexer.view := lexer.view_next strict
  have h : (x.read lexer strict).origin.next strict = lexer.next strict :=
    Lexer.next_congr hv rfl strict
  refine ⟨?_, .inl ?_⟩
  · exact congrArg Prod.fst h
  · exact (congrArg Prod.snd h).symm

theorem Settled.step {b : Bool} {x y : Sight} (h : x.Settled) (hs : Step b x y) : y.Settled := by
  cases hs with
  | next => exact .read _ _ _
  | regexp => exact .read _ _ _
  | reread => exact .read _ _ _
  | lookAhead hk =>
    refine ⟨h.token, .inr ⟨hk, ?_⟩⟩
    obtain he | ⟨-, he⟩ := h.lexer
    · show x.lexer.goTo x.lexer.standing = _
      rw [he]
      rfl
    · show x.lexer.goTo x.lexer.standing = _
      rw [he]
      simp [Lexer.goTo, lookAhead, origin]

theorem Settled.moves {b : Bool} {x y : Sight} (h : x.Settled) (hm : Moves b x y) : y.Settled := by
  induction hm with
  | refl => exact h
  | step _ hs ih => exact (ih h).step hs
  | forget _ ih => exact ih h

theorem Step.view {b : Bool} {x y : Sight} (h : Step b x y) : y.lexer.view = x.lexer.view := by
  cases h with
  | next => exact x.lexer.view_next _
  | regexp => exact (Lexer.view_next _ _).trans x.view_regexp
  | reread => exact Lexer.view_next _ _
  | lookAhead => rfl

theorem Moves.view {b : Bool} {x y : Sight} (h : Moves b x y) : y.lexer.view = x.lexer.view := by
  induction h with
  | refl => rfl
  | step _ hs ih => exact hs.view.trans ih
  | forget _ ih => exact ih

namespace Settled

variable {x y : Sight}

theorem advances (h : x.Settled) : x.origin.Advances x.token (x.origin.next x.strict).2 := by
  have ha := x.origin.next_advances x.strict
  rwa [h.token] at ha

theorem stop_le (h : x.Settled) :
    min x.token.extent.stop x.lexer.view.limit ≤ x.lexer.standing.offset := by
  have hs := h.advances.stop
  obtain he | ⟨-, he⟩ := h.lexer
  · rw [he, ← hs]
    exact Nat.min_le_left _ _
  · rw [he, hs]
    exact Nat.le_refl _

theorem origin_lt (h : x.Settled) (hk : x.token.kind ≠ .eof) :
    x.tokenStart.offset < x.lexer.view.limit :=
  @Lexer.lt_limit_of_next x.origin x.strict (by rwa [h.token])

theorem goTo_tokenStart (hl : x.tokenStart.offset ≤ x.lexer.view.limit) :
    x.lexer.goTo x.tokenStart = x.origin := by
  rw [Lexer.goTo, Nat.min_eq_left hl]
  rfl

theorem reread (h : x.Settled) (hk : x.token.kind ≠ .eof) :
    (x.reread x.strict).token = x.token ∧ (x.reread x.strict).tokenStart = x.tokenStart := by
  rw [Sight.reread, goTo_tokenStart (Nat.le_of_lt (h.origin_lt hk))]
  exact ⟨h.token, rfl⟩

end Settled

theorem start_next (l : Lexer) (strict strict' : Bool) :
    (l.next strict).1.extent.position = (l.next strict').1.extent.position := by
  simp only [Lexer.next]
  split
  · rfl
  · split <;> split <;> rfl

theorem position_le (x : Sight) : x.position ≤ x.lexer.view.limit := Nat.min_le_right _ _

theorem le_position_read (x : Sight) (lexer : Lexer) (strict : Bool) :
    min lexer.standing.offset lexer.view.limit ≤ (x.read lexer strict).position := by
  have hs := (lexer.next_advances strict).start
  have hv := lexer.view_next strict
  show _ ≤ min (lexer.next strict).1.extent.start (lexer.next strict).2.view.limit
  rw [hv]
  omega

theorem Settled.position_next {x : Sight} (h : x.Settled) {l : Lexer} (hv : l.view = x.lexer.view)
    (hl : x.lexer.standing.offset ≤ l.standing.offset) (y : Sight) (strict : Bool) :
    x.position + x.token.kind.isSolid.toNat ≤ (y.read l strict).position := by
  have hp := le_position_read y l strict
  have hs := h.stop_le
  have ho := h.advances.ordered
  rw [hv] at hp
  cases hk : x.token.kind.isSolid with
  | false =>
    show min x.token.extent.start x.lexer.view.limit + 0 ≤ _
    omega
  | true =>
    have hn : x.token.kind ≠ .eof := fun he => by simp [he, TokenKind.isSolid] at hk
    have hk := h.advances.solid hk
    have hi : x.token.extent.start < x.lexer.view.limit := h.advances.inside hn
    show min x.token.extent.start x.lexer.view.limit + 1 ≤ _
    omega

theorem Settled.position_reread {x : Sight} (h : x.Settled) (strict : Bool) :
    (x.reread strict).position = x.position := by
  have hv : (x.reread strict).lexer.view = x.lexer.view := Lexer.view_next _ _
  by_cases hl : x.tokenStart.offset ≤ x.lexer.view.limit
  · have hs : (x.reread strict).token.extent.start = x.token.extent.start := by
      rw [Sight.reread, goTo_tokenStart hl, ← h.token]
      exact congrArg Position.offset (start_next _ _ _)
    rw [position, position, hs, hv]
  · have hk : x.token.kind = .eof :=
      Decidable.byContradiction fun hk => hl (Nat.le_of_lt (h.origin_lt hk))
    have hs : x.lexer.view.limit ≤ x.token.extent.start := h.advances.atEnd hk
    have hp := x.le_position_read (x.lexer.goTo x.tokenStart) strict
    replace hp : min (min x.tokenStart.offset x.lexer.view.limit) x.lexer.view.limit ≤
        (x.reread strict).position := hp
    have hr := (x.reread strict).position_le
    rw [hv] at hr
    show _ = min x.token.extent.start x.lexer.view.limit
    omega

theorem Settled.position_step {b : Bool} {x y : Sight} (h : x.Settled) (hs : Step b x y) :
    x.position + b.toNat ≤ y.position := by
  cases hs with
  | next strict => exact h.position_next rfl (Nat.le_refl _) _ strict
  | regexp =>
    obtain ⟨hv, -, hl⟩ :=
      x.lexer.regexp_advances x.token (if x.token.kind == .slashEqual then "=" else "")
    exact h.position_next hv hl _ _
  | reread strict => exact Nat.le_of_eq (h.position_reread strict).symm
  | lookAhead => exact Nat.le_refl _

theorem Settled.position_moves {b : Bool} {x y : Sight} (h : x.Settled) (hm : Moves b x y) :
    x.position + b.toNat ≤ y.position := by
  induction hm with
  | refl => exact Nat.le_refl _
  | @step b b' _ y _ hm hs ih =>
    have hy := (h.moves hm).position_step hs
    have hx := ih h
    have hb : (b || b').toNat ≤ b.toNat + b'.toNat := by cases b <;> cases b' <;> decide
    omega
  | forget _ ih => exact Nat.le_trans (Nat.le_add_right _ _) (ih h)

theorem Settled.rest_moves {b : Bool} {x y : Sight} (h : x.Settled) (hm : Moves b x y) :
    y.rest ≤ x.rest := by
  have hp := h.position_moves hm
  rw [rest, rest, hm.view]
  omega

end Sight

theorem ParseState.settled_lex (s : ParseState) : s.lex.sight.Settled :=
  Sight.Settled.read s.sight s.lexer s.strict

end EcmaFront
