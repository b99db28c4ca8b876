import EcmaFront.Proofs.Scanning

/-!
Tokens read one after another. Whoever reads them says of each in which mode the code is, and
whether a slash would begin a regular expression there.
-/

set_option autoImplicit false

namespace EcmaFront

/-- Division, also when it assigns: what a regular expression may begin with. -/
def TokenKind.isSlash (kind : TokenKind) : Bool := kind == .slash || kind == .slashEqual

theorem TokenKind.isSolid_of_isSlash {kind : TokenKind} (h : kind.isSlash = true) :
    kind.isSolid = true := by
  simp only [isSlash, Bool.or_eq_true, beq_iff_eq] at h
  obtain rfl | rfl := h <;> rfl

/-- How a token is asked for. -/
structure Request where
  strict : Bool
  /-- A slash is read on as a regular expression. -/
  regexp : Bool
  deriving DecidableEq, Repr

/-- What is seen of a token: beside itself, whether a line terminator came before it, and why it is
none. -/
structure Sighting where
  token : Token
  newline : Bool
  fault : Option LexFault
  deriving DecidableEq, Repr

def Sighting.extent (t : Sighting) : Extent := t.token.extent

/-- Both tell a reader the same, wherever their texts stand. -/
structure Sighting.Agree (t u : Sighting) : Prop where
  kind : u.token.kind = t.token.kind
  value : u.token.value = t.token.value
  line : u.extent.line = t.extent.line
  newline : u.newline = t.newline
  fault : u.fault = t.fault

theorem Sighting.Agree.eq {t u : Sighting} (h : t.Agree u) (he : u.extent = t.extent) : t = u := by
  obtain ⟨⟨kind, value, extent⟩, newline, fault⟩ := t
  obtain ⟨hk, hv, -, hn, hf⟩ := h
  cases he
  cases hk
  cases hv
  cases hn
  cases hf
  rfl

namespace Lexer

def read (l : Lexer) (r : Request) : Token × Lexer :=
  let (token, l) := l.next r.strict
  if r.regexp && token.kind.isSlash then l.regexp token
    (if token.kind == .slashEqual then "=" else "")
  else (token, l)

def sighting (x : Token × Lexer) : Sighting := ⟨x.1, x.2.standing.newline, x.2.fault⟩

theorem read_eq_next {l : Lexer} {r : Request}
    (h : ¬(r.regexp && (l.next r.strict).1.kind.isSlash) = true) :
    l.read r = l.next r.strict := if_neg h

theorem read_eq_regexp {l : Lexer} {r : Request}
    (h : (r.regexp && (l.next r.strict).1.kind.isSlash) = true) :
    l.read r = (l.next r.strict).2.regexp (l.next r.strict).1
      (if (l.next r.strict).1.kind == .slashEqual then "=" else "") := if_pos h

theorem regexp_ne_eof (l : Lexer) (t : Token) (start : String) :
    (l.regexp t start).1.kind ≠ .eof := by
  have hk {i : Nat} {found : TokenKind × TokenValue} (h : (l.view.regexp start i).1 = .ok found) :
      found.1 ≠ .eof := by
    unfold View.regexp at h
    split at h <;> cases h
    nofun
  simp only [regexp]
  split
  · next hf => exact hk hf
  · next fault _ =>
    intro he
    have := fault.kind_isError
    rw [show fault.kind = .eof from he] at this
    cases this

theorem le_regexp_stop (l : Lexer) (strict : Bool) (start : String) :
    (l.next strict).1.extent.stop ≤
    ((l.next strict).2.regexp (l.next strict).1 start).1.extent.stop := by
  rw [regexp_stop, (l.next_advances strict).stop]
  exact (regexp_advances _ _ _).2.2

theorem read_advances (l : Lexer) (r : Request) : l.Advances (l.read r).1 (l.read r).2 := by
  have hn := l.next_advances r.strict
  by_cases h : (r.regexp && (l.next r.strict).1.kind.isSlash) = true
  · have hs := TokenKind.isSolid_of_isSlash (Bool.and_eq_true_iff.1 h).2
    have hlt := hn.solid hs
    rw [read_eq_regexp h]
    generalize (if (l.next r.strict).1.kind == .slashEqual then "=" else "") = start
    have hle := le_regexp_stop l r.strict start
    obtain ⟨hv, hst, -⟩ := regexp_advances (l.next r.strict).2 (l.next r.strict).1 start
    refine ⟨hv.trans hn.view, regexp_stop _ _ _, hst ▸ hn.start, by omega, fun _ => ?_,
      fun he => absurd he (regexp_ne_eof _ _ _), fun _ => by omega⟩
    rw [hst]
    exact hn.inside (TokenKind.ne_eof_of_isSolid hs)
  · rw [read_eq_next h]
    exact hn

@[simp] theorem view_read (l : Lexer) (r : Request) : (l.read r).2.view = l.view :=
  (l.read_advances r).view

def tokens (l : Lexer) : List Request → List Sighting
  | [] => []
  | r :: requests => sighting (l.read r) :: (l.read r).2.tokens requests

theorem tokens_ordered {l : Lexer} {requests : List Request} {t : Sighting}
    (h : t ∈ l.tokens requests) :
    t.extent.start ≤ t.extent.stop := by
  induction requests generalizing l with
  | nil => cases h
  | cons r requests ih =>
    obtain h | ⟨_, h⟩ := h
    · exact (l.read_advances r).ordered
    · exact ih h

end Lexer

end EcmaFront
