import EcmaFront.Proofs.Frames

/-!
Questions about the tokens ahead only read on in the text, and go back where they began.
-/

set_option autoImplicit false

namespace EcmaFront

namespace ParseState

variable {s s₁ t : ParseState}

/-- The state stands at another place of the text, and is otherwise the same. -/
structure LooksOn (s t : ParseState) : Prop where
  same : t = { s with
    lexer := t.lexer, token := t.token, tokenStart := t.tokenStart, lastEnd := t.lastEnd }
  view : t.lexer.view = s.lexer.view

namespace LooksOn

theorem refl (s : ParseState) : s.LooksOn s := ⟨rfl, rfl⟩

theorem next (s : ParseState) : s.LooksOn s.next := ⟨rfl, Lexer.view_next _ _⟩

theorem readRegexp (s : ParseState) : s.LooksOn s.readRegexp :=
  ⟨rfl, (Lexer.regexp_advances _ _ _).1⟩

theorem trans (h : s.LooksOn s₁) (h' : s₁.LooksOn t) : s.LooksOn t := by
  refine ⟨?_, h'.view.trans h.view⟩
  rw [h'.same, h.same]

theorem rewind (h : s.LooksOn t) :
    t.rewind s.checkpoint = ({ s with lexer := t.lexer.goTo s.tokenStart } : ParseState).lex := by
  rw [h.same]
  simp [ParseState.rewind, checkpoint, Scopes.truncate_depth]
  rfl

theorem back (h : s.LooksOn t) : s.LooksOn (t.rewind s.checkpoint) := by
  rw [h.rewind]
  exact ⟨rfl, (Lexer.view_next _ _).trans h.view⟩

end LooksOn

end ParseState

namespace Parse

variable {α β σ : Type} {accept : ParseState → Bool}

/-- The step only reads on, and it has an answer unless a bound is too low. -/
def Asks (p : Parse α) : Prop :=
  ∀ c s, s.LooksOn (p c s).2 ∧ ∀ e, (p c s).1 = .error e → e.cause = .exhausted

namespace Asks

variable {p q : Parse α}

theorem pure {a : α} : Asks (pure a) := fun _ s => ⟨ParseState.LooksOn.refl s, nofun⟩

theorem state_bind {f : ParseState → Parse β} (h : ∀ s, Asks (f s)) : Asks (state >>= f) :=
  fun c s => h s c s

theorem ite {b : Prop} [Decidable b] (h₁ : Asks p) (h₂ : Asks q) : Asks (if b then p else q) := by
  split <;> assumption

theorem modify_bind {change : ParseState → ParseState} {f : Unit → Parse β}
    (hc : ∀ s : ParseState, s.LooksOn (change s)) (h : Asks (f ())) :
    Asks (modify change >>= f) := fun c s =>
  ⟨(hc s).trans (h c (change s)).1, (h c (change s)).2⟩

theorem next_bind {f : Unit → Parse β} (h : Asks (f ())) : Asks (Parse.next >>= f) :=
  modify_bind ParseState.LooksOn.next h

theorem peekKind_bind {f : TokenKind → Parse β} (h : ∀ kind, Asks (f kind)) :
    Asks (peekKind >>= f) := fun c s =>
  have h := h s.peekKind.1 c s.peekKind.2
  ⟨(ParseState.LooksOn.next s).back.trans h.1, h.2⟩

theorem repeatFrom {round : σ → Parse (Round σ α)} {x : σ} (h : ∀ x, Asks (round x)) :
    Asks (Parse.repeatFrom x round) := by
  have bounded (n : Nat) (x : σ) : Asks (repeatBounded n round x) := by
    induction n generalizing x with
    | zero => exact fun _ s => ⟨ParseState.LooksOn.refl s, by rintro _ ⟨⟩; rfl⟩
    | succ n ih =>
      intro c s
      obtain ⟨hr, he⟩ := h x c s
      simp only [repeatBounded, Bind.bind]
      generalize round x c s = y at hr he ⊢
      obtain ⟨e | y | a, s₁⟩ := y
      · exact ⟨hr, fun e' h => he e' (congrArg _ (Except.error.inj h))⟩
      · exact ⟨hr.trans (ih y c s₁).1, (ih y c s₁).2⟩
      · exact ⟨hr, by rintro _ ⟨⟩⟩
  exact fun c s => bounded c.rounds x c s

theorem skipBracketed {scan : BracketScan} : Asks (skipBracketed accept scan) := by
  refine state_bind fun s => ?_
  extract_lets skip
  have forward (depth : Nat) : Asks (skip depth) := state_bind fun _ => next_bind pure
  have close : Asks (if scan.depth ≤ 1 then do
      Parse.next
      Pure.pure (Round.done (accept (← state)))
    else skip (scan.depth - 1)) := ite (next_bind (state_bind fun _ => pure)) (forward _)
  have slash : Asks (if endsOperand scan.previous then skip scan.depth else do
      Parse.modify .readRegexp
      if (← state).kind.isError then Pure.pure (Round.done false) else skip scan.depth) :=
    ite (forward _) (modify_bind ParseState.LooksOn.readRegexp
      (state_bind fun _ => ite pure (forward _)))
  split
  case h_4 | h_5 | h_6 => exact close
  case h_7 | h_8 => exact slash
  case h_9 | h_10 | h_11 | h_12 => exact pure
  all_goals exact forward _

theorem labelRound : Asks (labelRound ()) :=
  state_bind fun _ => ite pure (peekKind_bind fun _ => ite pure (next_bind (next_bind pure)))

theorem back (h : Asks p) : Asks (do
    let point := (← state).checkpoint
    let found ← p
    modify (·.rewind point)
    Pure.pure found) := fun c s => by
  obtain ⟨hl, he⟩ := h c s
  rw [Parse.state_bind]
  simp only [Bind.bind]
  generalize p c s = x at hl he ⊢
  obtain ⟨e | a, t⟩ := x
  · exact ⟨hl, fun e' h => he e' (congrArg _ (Except.error.inj h))⟩
  · exact ⟨hl.back, nofun⟩

theorem ahead {test : ParseState → α} :
    Asks (ask fun s => (test s.next, s.next.rewind s.checkpoint)) := fun _ s =>
  ⟨(ParseState.LooksOn.next s).back, nofun⟩

end Asks

/-- The questions about tokens ahead. -/
inductive Lookahead : {α : Type} → Parse α → Prop
  | peekKind : Lookahead peekKind
  | atLetDeclaration : Lookahead atLetDeclaration
  | atArrowFunction : Lookahead atArrowFunction
  | followsBrackets (accept : ParseState → Bool) : Lookahead (followsBrackets accept)
  | accessor? : Lookahead accessor?
  | labelsLoop : Lookahead labelsLoop

theorem Lookahead.asks {p : Parse α} (h : Lookahead p) : Asks p := by
  cases h with
  | peekKind => exact .ahead
  | atLetDeclaration =>
    exact .state_bind fun _ => .ite .pure (.peekKind_bind fun _ => by split <;> exact .pure)
  | atArrowFunction =>
    refine .state_bind fun _ => ?_
    split
    · exact .ahead
    · exact .back (.repeatFrom fun _ => .skipBracketed)
    · exact .pure
  | followsBrackets accept => exact .back (.repeatFrom fun _ => .skipBracketed)
  | accessor? =>
    refine .state_bind fun _ => ?_
    extract_lets kind?
    cases kind? with
    | none => exact .pure
    | some kind => exact .peekKind_bind fun _ => by split <;> exact .pure
  | labelsLoop => exact .back (.repeatFrom fun _ => .labelRound)

end Parse

end EcmaFront
