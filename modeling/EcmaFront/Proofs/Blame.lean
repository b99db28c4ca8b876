import EcmaFront.Proofs.Cutting
import EcmaFront.Proofs.Fault
import EcmaFront.Proofs.Outcome

/-!
Where errors are reported: at tokens of the source. A parse sees tokens as they are read in the
source from its start on, also when it goes back, and whatever it keeps for a later report is the
place of such a token. A step stays in the source, and if it fails, its error names one of these
tokens.
-/

set_option autoImplicit false

namespace EcmaFront

/-- A token that is none has a fault of its kind, and no other token has one. -/
def Sighting.Faults (t : Sighting) : Prop :=
  match t.fault with
  | some fault => t.token.kind = fault.kind
  | none => t.token.kind.isError = false

namespace Lexer

theorem next_faults (l : Lexer) (strict : Bool) : (sighting (l.next strict)).Faults := by
  have hc := l.view.token_cases strict (l.view.trivia l.place).place
  simp only [next]
  split
  · rfl
  generalize l.view.token strict (l.view.trivia l.place).place = x at hc ⊢
  obtain ⟨found | found, stop⟩ := x
  · rfl
  obtain ⟨-, he⟩ | ⟨-, -, hs⟩ := hc
  · cases he
    rfl
  · obtain ⟨hs, -⟩ := hs found rfl
    show found.1.isError = false
    rw [TokenKind.isSolid, Bool.and_eq_true] at hs
    simpa using hs.2

theorem regexp_faults (l : Lexer) (t : Token) (start : String) :
    (sighting (l.regexp t start)).Faults := by
  simp only [regexp]
  split
  · next hf =>
    unfold View.regexp at hf
    split at hf <;> cases hf
    rfl
  · rfl

theorem isSlash_regexp (l : Lexer) (t : Token) (start : String) :
    (l.regexp t start).1.kind.isSlash = false := by
  simp only [regexp]
  split
  · next hf =>
    unfold View.regexp at hf
    split at hf <;> cases hf
    rfl
  · next fault _ =>
    rw [Bool.eq_false_iff]
    intro hk
    have hs := TokenKind.isSolid_of_isSlash hk
    rw [TokenKind.isSolid_of_isError fault.kind_isError] at hs
    cases hs

theorem read_faults (l : Lexer) (r : Request) : (sighting (l.read r)).Faults := by
  by_cases h : (r.regexp && (l.next r.strict).1.kind.isSlash) = true
  · rw [read_eq_regexp h]
    exact regexp_faults _ _ _
  · rw [read_eq_next h]
    exact next_faults _ _

theorem read_congr {l m : Lexer} (hv : m.view = l.view)
    (hs : m.standing = l.standing) (r : Request) :
    m.read r = l.read r := by
  simp only [read, next_congr hv hs]

theorem after_append (l : Lexer) (first second : List Request) :
    l.after (first ++ second) = (l.after first).after second := by
  induction first generalizing l with
  | nil => rfl
  | cons r first ih => exact ih _

theorem faults_of_mem {l : Lexer} {requests : List Request} {t : Sighting}
    (h : t ∈ l.tokens requests) : t.Faults := by
  induction requests generalizing l with
  | nil => cases h
  | cons r requests ih =>
    obtain h | ⟨_, h⟩ := h
    · exact read_faults l r
    · exact ih h

end Lexer

namespace Source

variable (x : Source)

/-- The token is one of those that may be read in the source from its start on. -/
def Contains (t : Sighting) : Prop := ∃ requests, t ∈ (Lexer.ofSource x).tokens requests

def ComesTo (standing : Standing) : Prop :=
  ∃ requests, ((Lexer.ofSource x).after requests).standing = standing

def Marks (extent : Extent) : Prop := ∃ t, x.Contains t ∧ t.extent = extent

/-- In the source the token is read from the standing on, and behind it the lexer is as it is
here. -/
structure Shows (start : Standing) (t : Token) (l : Lexer) : Prop where
  comesTo : x.ComesTo start
  read : ∃ r, Lexer.read ⟨x.view, start, none⟩ r = (t, l)

variable {x : Source} {start : Standing} {t : Token} {l m : Lexer}

theorem comesTo_start (x : Source) : x.ComesTo (Lexer.ofSource x).standing := ⟨[], rfl⟩

theorem ComesTo.le_stop (hx : x.WellFormed) (h : x.ComesTo start) : start.offset ≤ x.stop := by
  obtain ⟨requests, rfl⟩ := h
  cases hl : ((Lexer.ofSource x).tokens requests).getLast? with
  | none =>
    rw [List.getLast?_eq_none_iff, ← List.length_eq_zero_iff, Lexer.length_tokens,
      List.length_eq_zero_iff] at hl
    subst hl
    obtain ⟨text, ht⟩ := hx
    rw [ht.stop]
    exact Nat.le_add_right _ _
  | some t =>
    rw [← Lexer.stop_of_getLast? hl]
    exact (Lexer.tokens_inside hx requests t (List.mem_of_getLast? hl)).1

theorem ComesTo.goTo (hx : x.WellFormed) (h : x.ComesTo start) (hv : l.view = x.view) :
    l.goTo start = ⟨x.view, start, none⟩ := by
  rw [Lexer.goTo, hv, show min start.offset x.view.limit = start.offset from Nat.min_eq_left
    (h.le_stop hx)]

namespace Shows

theorem view (h : x.Shows start t l) : l.view = x.view := by
  obtain ⟨-, r, hr⟩ := h
  exact (congrArg (·.2.view) hr).symm.trans (Lexer.view_read _ r)

theorem of_requests (h : x.Shows start t l) :
    ∃ requests, ((Lexer.ofSource x).after requests).standing = l.standing ∧
    Lexer.sighting (t, l) ∈ (Lexer.ofSource x).tokens requests := by
  obtain ⟨⟨requests, hs⟩, r, hr⟩ := h
  have he : ((Lexer.ofSource x).after requests).read r = (t, l) :=
    (@Lexer.read_congr ⟨x.view, start, none⟩ ((Lexer.ofSource x).after requests)
      (Lexer.view_after _ _) hs r).trans hr
  refine ⟨requests ++ [r], ?_, ?_⟩
  · rw [Lexer.after_append, Lexer.after, Lexer.after, he]
  · rw [Lexer.tokens_append, Lexer.tokens, he]
    exact List.mem_append_right _ (List.mem_cons_self ..)

theorem comesTo_behind (h : x.Shows start t l) : x.ComesTo l.standing :=
  let ⟨requests, hs, _⟩ := h.of_requests
  ⟨requests, hs⟩

theorem contains (h : x.Shows start t l) : x.Contains (Lexer.sighting (t, l)) :=
  let ⟨requests, _, hm⟩ := h.of_requests
  ⟨requests, hm⟩

theorem marks (h : x.Shows start t l) : x.Marks t.extent := ⟨_, h.contains, rfl⟩

theorem next (hv : l.view = x.view) (hs : x.ComesTo l.standing) (strict : Bool) :
    x.Shows l.standing (l.next strict).1 (l.next strict).2 := by
  refine ⟨hs, ⟨strict, false⟩, ?_⟩
  exact (@Lexer.read_congr l ⟨x.view, _, none⟩ hv.symm rfl _).trans
    (Lexer.read_eq_next (r := ⟨strict, false⟩) nofun)

theorem regexp (h : x.Shows start t l) (hk : t.kind.isSlash = true) :
    let y := l.regexp t (if t.kind == .slashEqual then "=" else "")
    x.Shows start y.1 y.2 := by
  obtain ⟨hs, r, hr⟩ := h
  have hn : ¬(r.regexp && (Lexer.next ⟨x.view, start, none⟩ r.strict).1.kind.isSlash) = true := by
    intro hp
    rw [Lexer.read_eq_regexp hp] at hr
    have hf := Lexer.isSlash_regexp (Lexer.next ⟨x.view, start, none⟩ r.strict).2
      (Lexer.next ⟨x.view, start, none⟩ r.strict).1
      (if (Lexer.next ⟨x.view, start, none⟩ r.strict).1.kind == .slashEqual then "=" else "")
    rw [hr, hk] at hf
    cases hf
  rw [Lexer.read_eq_next hn] at hr
  refine ⟨hs, ⟨r.strict, true⟩, ?_⟩
  rw [Lexer.read_eq_regexp (by simp only [hr, hk, Bool.and_self]), hr]

theorem goTo_standing (hx : x.WellFormed) (h : x.Shows start t l) (hk : t.kind.isError = false) :
    l.goTo l.standing = l := by
  have hf : (Lexer.sighting (t, l)).Faults := Lexer.faults_of_mem (h.contains).choose_spec
  rw [h.comesTo_behind.goTo hx h.view, ← h.view]
  obtain ⟨view, standing, fault⟩ := l
  cases fault with
  | none => rfl
  | some fault =>
    have hf : t.kind = fault.kind := hf
    rw [hf, fault.kind_isError] at hk
    cases hk

end Shows

end Source

/-- The parse sees what is there in a well-formed source, and what waits to be written has its place
there. -/
structure ParseState.Follows (s : ParseState) (x : Source) : Prop where
  wellFormed : x.WellFormed
  shows : x.Shows s.tokenStart s.token s.lexer
  waits : ∀ w ∈ s.pendingWrites, x.Marks w.2

namespace ParseState.Follows

variable {s s' : ParseState} {x : Source}

theorem congr (h : s.Follows x)
    (ht : s'.tokenStart = s.tokenStart ∧ s'.token = s.token ∧ s'.lexer = s.lexer)
    (hw : s'.pendingWrites = s.pendingWrites) : s'.Follows x := by
  obtain ⟨ht, hk, hl⟩ := ht
  exact ⟨h.wellFormed, by rw [ht, hk, hl]; exact h.shows, hw ▸ h.waits⟩

theorem lex (hx : x.WellFormed) (hv : s.lexer.view = x.view) (hs : x.ComesTo s.lexer.standing)
    (hw : ∀ w ∈ s.pendingWrites, x.Marks w.2) : s.lex.Follows x :=
  ⟨hx, .next hv hs s.strict, hw⟩

theorem next (h : s.Follows x) : s.next.Follows x :=
  @lex { s with lastEnd := _ } x h.wellFormed h.shows.view h.shows.comesTo_behind h.waits

theorem readRegexp (h : s.Follows x) (hk : s.kind.isSlash = true) : s.readRegexp.Follows x :=
  ⟨h.wellFormed, h.shows.regexp hk, h.waits⟩

theorem rewind (h : s.Follows x) {point : Checkpoint} (hp : x.ComesTo point.standing) :
    (s.rewind point).Follows x := by
  have hg := hp.goTo h.wellFormed h.shows.view
  refine lex h.wellFormed (congrArg Lexer.view hg) ?_ fun w hw => h.waits w
    (List.mem_of_mem_drop hw)
  show x.ComesTo (s.lexer.goTo point.standing).standing
  rw [hg]
  exact hp

theorem backtrack (h : s.Follows x) {point : Checkpoint} (hp : x.ComesTo point.standing) :
    (s.backtrack point).Follows x :=
  @rewind { s with events := .wentBack point.standing.offset s.token.extent.start :: s.events } x
    ⟨h.wellFormed, h.shows, h.waits⟩ point hp

theorem checkpoint (h : s.Follows x) : x.ComesTo s.checkpoint.standing := h.shows.comesTo

theorem marks (h : s.Follows x) : x.Marks s.token.extent := h.shows.marks

end ParseState.Follows

/-- The cause may be reported at the token: a fault of the lexer is the one that the token has. -/
def Cause.Fits (cause : Cause) (t : Sighting) : Prop :=
  cause.kind ≠ .lexer ∨ ∃ fault, t.fault = some fault ∧ cause = .lexical (some fault)

/-- The error names the source, and the line and column where a token of it begins. -/
def Source.Blames (x : Source) (e : ParseError) : Prop :=
  ∃ t, x.Contains t ∧ e.cause.Fits t ∧ e = .atExtent e.cause x.url t.extent

namespace Parse

variable {α β σ : Type}

def StaysIn (x : Source) (Q : α → Prop) : Except ParseError α × ParseState → Prop
  | (.ok a, s) => s.Follows x ∧ Q a
  | (.error e, s) => s.Follows x ∧ x.Blames e

/-- From the state on the step stays in the source, if the state follows it. -/
def Keeps (c : ParseContext) (s : ParseState) (p : Parse α) (Q : α → Prop := fun _ => True) :
    Prop :=
  s.Follows c.source → StaysIn c.source Q (p c s)

namespace Keeps

variable {c : ParseContext} {s : ParseState} {p q : Parse α} {P Q : α → Prop} {R : β → Prop}

theorem pure {a : α} (h : s.Follows c.source → Q a) : Keeps c s (pure a) Q := fun hs => ⟨hs, h hs⟩

theorem done {a : α} : Keeps c s (Pure.pure a) := pure fun _ => trivial

theorem failAt {cause : Cause} {extent : Extent} (hc : cause.isRule = true)
    (h : s.Follows c.source → c.source.Marks extent) :
    Keeps c s (failAt cause extent) Q := fun hs => by
  obtain ⟨t, ht, rfl⟩ := h hs
  exact ⟨hs, t, ht, .inl (Cause.kind_ne_lexer hc), rfl⟩

theorem fail {cause : Cause} (hc : cause.isRule = true) : Keeps c s (fail cause) Q :=
  @failAt α c s Q cause s.token.extent hc ParseState.Follows.marks

theorem unexpected : Keeps c s unexpected Q := fun hs => by
  refine ⟨hs, _, hs.shows.contains, ?_, rfl⟩
  have hf : (Lexer.sighting (s.token, s.lexer)).Faults :=
    Lexer.faults_of_mem hs.shows.contains.choose_spec
  show s.unexpected.Fits (Lexer.sighting (s.token, s.lexer))
  have lexical (hk : s.kind.isError = true) :
      Cause.Fits (.lexical s.lexer.fault) (Lexer.sighting (s.token, s.lexer)) := by
    cases hl : s.lexer.fault with
    | some fault => exact .inr ⟨fault, hl, rfl⟩
    | none =>
      rw [Sighting.Faults, Lexer.sighting, hl] at hf
      have hf : s.token.kind.isError = false := hf
      exact absurd (hk.symm.trans hf) (by decide)
  unfold ParseState.unexpected
  split
  case h_1 hk | h_2 hk => exact lexical (hk ▸ rfl)
  all_goals exact .inl (Cause.kind_ne_lexer rfl)

theorem ite {b : Prop} [Decidable b] (h₁ : b → Keeps c s p Q) (h₂ : ¬b → Keeps c s q Q) :
    Keeps c s (if b then p else q) Q := by
  split
  · next h => exact h₁ h
  · next h => exact h₂ h

theorem mono (h : Keeps c s p P) (hQ : ∀ a, P a → Q a) : Keeps c s p Q := fun hs => by
  have hr := h hs
  rcases hp : p c s with ⟨e | a, s'⟩ <;> rw [hp] at hr
  · exact hr
  · exact ⟨hr.1, hQ a hr.2⟩

/-! One step after another. -/

theorem bindWith {f : α → Parse β} (h : Keeps c s p P) (hf : ∀ a s', P a → Keeps c s' (f a) R) :
    Keeps c s (p >>= f) R := fun hs => by
  have hr := h hs
  rcases hp : p c s with ⟨e | a, s'⟩ <;> rw [hp] at hr
  · simp only [Bind.bind, hp]
    exact hr
  · simp only [Bind.bind, hp]
    exact hf a s' hr.2 hr.1

theorem bind {f : α → Parse β} (h : Keeps c s p) (hf : ∀ a s', Keeps c s' (f a) R) :
    Keeps c s (p >>= f) R :=
  h.bindWith fun a s' _ => hf a s'

theorem map {f : α → β} (h : Keeps c s p) : Keeps c s (f <$> p) := h.bind fun _ _ => done

theorem state_bind {f : ParseState → Parse β} (h : s.Follows c.source → Keeps c s (f s) R) :
    Keeps c s (state >>= f) R := fun hs => h hs hs

theorem context_bind {f : ParseContext → Parse β} (h : Keeps c s (f c) R) :
    Keeps c s (context >>= f) R := h

theorem spanFrom_bind {start : Position} {f : Span → Parse β}
    (h : Keeps c s (f (s.spanFrom start)) R) :
    Keeps c s (spanFrom start >>= f) R := h

theorem ask {question : ParseState → α × ParseState}
    (h : s.Follows c.source → (question s).2.Follows c.source) :
    Keeps c s (ask question) := fun hs => ⟨h hs, trivial⟩

theorem modify {change : ParseState → ParseState}
    (h : s.Follows c.source → (change s).Follows c.source) :
    Keeps c s (modify change) := fun hs => ⟨h hs, trivial⟩

theorem modifyScopes {change : Scopes → Scopes} : Keeps c s (modifyScopes change) :=
  modify fun h => h.congr ⟨rfl, rfl, rfl⟩ rfl

theorem next : Keeps c s next := modify .next

theorem emit {event : Event} : Keeps c s (emit event) := modify fun h => h.congr ⟨rfl, rfl, rfl⟩ rfl

theorem consume {kind : TokenKind} : Keeps c s (consume kind) :=
  state_bind fun _ => ite (fun _ => next.bind fun _ _ => done) fun _ => done

theorem expect {kind : TokenKind} : Keeps c s (expect kind) :=
  consume.bind fun _ _ => ite (fun _ => state_bind fun _ => ite (fun _ => unexpected)
    fun _ => fail rfl)
    fun _ => done

theorem consumeSemicolon : Keeps c s consumeSemicolon :=
  consume.bind fun _ _ => ite (fun _ => state_bind fun _ => ite (fun _ => unexpected) fun _ =>
    done) fun _ => done

/-! What surrounds a step. -/

theorem always {after : ParseState → ParseState} (h : Keeps c s p Q)
    (ha : ∀ s', s'.Follows c.source → (after s').Follows c.source) :
    Keeps c s (always p after) Q := fun hs => by
  have hr := h hs
  simp only [Parse.always]
  rcases hp : p c s with ⟨e | a, s'⟩ <;> rw [hp] at hr
  · exact ⟨ha _ hr.1, hr.2⟩
  · exact ⟨ha _ hr.1, hr.2⟩

theorem nested (h : ∀ s', Keeps c s' p) : Keeps c s (nested p) := by
  refine (modify fun h => h.congr ⟨rfl, rfl, rfl⟩ rfl).bind fun _ _ => state_bind fun _ => ?_
  refine ite (fun _ => fail rfl) fun _ => ?_
  exact always (h _) fun _ h => h.congr ⟨rfl, rfl, rfl⟩ rfl

theorem allowingIn {allowed : Bool} (h : ∀ s', Keeps c s' p Q) :
    Keeps c s (allowingIn allowed p) Q := by
  refine state_bind fun _ => (modify fun h => h.congr ⟨rfl, rfl, rfl⟩ rfl).bind fun _ _ => ?_
  exact always (h _) fun _ h => h.congr ⟨rfl, rfl, rfl⟩ rfl

theorem attempt {p : Parse (Option α)} (h : Keeps c s p) : Keeps c s (attempt p) := fun hs => by
  have hr := h hs
  simp only [Parse.attempt]
  rcases hp : p c s with ⟨e | a, s'⟩ <;> rw [hp] at hr
  · dsimp only
    split
    · exact hr
    · exact ⟨hr.1, trivial⟩
  · exact hr

def RoundPost (I : σ → Prop) (Q : α → Prop) : Round σ α → Prop
  | .again x => I x
  | .done a => Q a

theorem repeatBounded {I : σ → Prop} {round : σ → Parse (Round σ α)} {n : Nat} {x : σ} (hx : I x)
    (h : ∀ x s', I x → Keeps c s' (round x) (RoundPost I Q)) :
    Keeps c s (repeatBounded n round x) Q := by
  induction n generalizing x s with
  | zero => exact fail rfl
  | succ n ih =>
    refine (h x s hx).bindWith fun step s' hq => ?_
    cases step with
    | again y => exact ih hq
    | done a => exact pure fun _ => hq

theorem repeatWith (I : σ → Prop) {round : σ → Parse (Round σ α)} {x : σ} (hx : I x)
    (h : ∀ x s', I x → Keeps c s' (round x) (RoundPost I Q)) : Keeps c s (repeatFrom x round) Q :=
  repeatBounded hx h

theorem repeatFrom {round : σ → Parse (Round σ α)} {x : σ} (h : ∀ x s', Keeps c s' (round x)) :
    Keeps c s (repeatFrom x round) :=
  repeatWith (fun _ => True) trivial fun x s' _ => (h x s').mono fun step _ =>
    by cases step <;> trivial

end Keeps

end Parse

end EcmaFront
