import Mathlib.Logic.ExistsUnique
import EcmaFront.Tree.Node
import EcmaFront.Proofs.Nonterminal

/-!
How a tree lies in its source: the span of each node is about those inside it, and a list of
statements shares out the tokens that it was read from.
-/

set_option autoImplicit false

namespace EcmaFront

def Token.Within (t : Token) (s : Span) : Prop :=
  s.start.offset ≤ t.extent.start ∧ t.extent.stop ≤ s.stop.offset

/-- The statements stand one behind the other, each from a token to a token, and every token belongs
to exactly one of them. -/
structure SharedOut (ts : List Token) (ss : List Stmt) : Prop where
  nonempty : ∀ a ∈ ss, a.span.start.offset < a.span.stop.offset
  ordered : ss.Pairwise fun a b => a.span.stop.offset ≤ b.span.start.offset
  begins : ∀ a ∈ ss, ∃ t ∈ ts, t.extent.start = a.span.start.offset
  ends : ∀ a ∈ ss, ∃ t ∈ ts, t.extent.stop = a.span.stop.offset
  owner : ∀ t ∈ ts, ∃! a, a ∈ ss ∧ t.Within a.span

namespace SharedOut

variable {ts us : List Token} {a : Stmt} {ss : List Stmt}

theorem nil : SharedOut [] [] := ⟨by simp, .nil, by simp, by simp, by simp⟩

theorem cons (h : SharedOut us ss) (ho : ∀ t ∈ ts, t.extent.start < t.extent.stop ∧ t.Within a.span)
    (hb : ∃ t ∈ ts, t.extent.start = a.span.start.offset)
    (he : ∃ t ∈ ts, t.extent.stop = a.span.stop.offset)
    (hu : ∀ t ∈ us, t.extent.start < t.extent.stop ∧ a.span.stop.offset ≤ t.extent.start) :
    SharedOut (ts ++ us) (a :: ss) := by
  have hs : ∀ b ∈ ss, a.span.stop.offset ≤ b.span.start.offset := fun b hb => by
    obtain ⟨t, ht, hs⟩ := h.begins b hb
    exact hs ▸ (hu t ht).2
  constructor
  case nonempty =>
    refine List.forall_mem_cons.2 ⟨?_, h.nonempty⟩
    obtain ⟨t, ht, -⟩ := hb
    obtain ⟨ho, hw⟩ := ho t ht
    exact Nat.lt_of_le_of_lt hw.1 (Nat.lt_of_lt_of_le ho hw.2)
  case ordered => exact .cons hs h.ordered
  case begins =>
    intro b hm
    obtain rfl | hm := List.mem_cons.1 hm
    · obtain ⟨t, ht, hb⟩ := hb
      exact ⟨t, List.mem_append_left _ ht, hb⟩
    · obtain ⟨t, ht, hb⟩ := h.begins b hm
      exact ⟨t, List.mem_append_right _ ht, hb⟩
  case ends =>
    intro b hm
    obtain rfl | hm := List.mem_cons.1 hm
    · obtain ⟨t, ht, he⟩ := he
      exact ⟨t, List.mem_append_left _ ht, he⟩
    · obtain ⟨t, ht, he⟩ := h.ends b hm
      exact ⟨t, List.mem_append_right _ ht, he⟩
  case owner =>
    intro t hm
    obtain ht | ht := List.mem_append.1 hm
    · obtain ⟨ho, hw⟩ := ho t ht
      refine ⟨a, ⟨List.mem_cons_self .., hw⟩, fun b hb => ?_⟩
      obtain ⟨hb, hw'⟩ := hb
      obtain rfl | hb := List.mem_cons.1 hb
      · rfl
      -- The token begins before the statement, so it is not inside.
      · have hl := hs b hb
        have := hw.2
        have := hw'.1
        omega
    · obtain ⟨ho, hl⟩ := hu t ht
      obtain ⟨b, ⟨hb, hw⟩, hn⟩ := h.owner t ht
      refine ⟨b, ⟨List.mem_cons_of_mem _ hb, hw⟩, fun c hc => ?_⟩
      obtain ⟨hc, hw'⟩ := hc
      obtain rfl | hc := List.mem_cons.1 hc
      · have := hw'.2
        omega
      · exact hn c ⟨hc, hw'⟩

end SharedOut

/-- Among the tokens are two braces at the ends of the span, and the statements share out those
between. -/
def Braced (ts : List Token) (span : Span) (ss : List Stmt) : Prop :=
  ∃ before left between right after, ts = before ++ left :: (between ++ right :: after) ∧
    left.kind = .leftBrace ∧ left.extent.start = span.start.offset ∧
    right.kind = .rightBrace ∧ right.extent.stop = span.stop.offset ∧ SharedOut between ss

/-- Among the tokens are the word that the clause begins with and the colon in front of its
statements, and these share out the tokens from there to the end of the clause. -/
def SwitchClause.Spelled (ts : List Token) (c : SwitchClause Expr Stmt) : Prop :=
  ∃ before word test colon between after,
    ts = before ++ word :: (test ++ colon :: (between ++ after)) ∧
    word.kind = (if c.test.isSome then .kwCase else .kwDefault) ∧
    word.extent.start = c.span.start.offset ∧
    colon.kind = .colon ∧ (∀ t ∈ (colon :: between).getLast?, t.extent.stop = c.span.stop.offset) ∧
    SharedOut between c.body

/-- The node is the regular expression that the token writes. -/
def Node.IsRegexp (t : Token) : Node → Prop
  | .expression (.regexp span p flags) => t.kind = .regexp ∧ t.regexpParts = (p, flags) ∧
    t.extent.start = span.start.offset ∧ t.extent.stop = span.stop.offset
  | _ => False

/-- The tokens are there that the node stands for by itself. -/
def Node.Spelled (ts : List Token) : Node → Prop
  | .statement (.block b) => Braced ts b.span b.body
  | .body span ss => Braced ts span ss
  | .clause c => c.Spelled ts
  | .expression (.regexp span p flags) =>
    ∃ t ∈ ts, (Node.expression (.regexp span p flags)).IsRegexp t
  | _ => True

/-- An object that was made by `new`, or its target. -/
def Expr.isNew : Expr → Bool
  | .construct _ _ _ | .newTarget _ => true
  | _ => false

/-- The first node is a member of the second one, an object that was made by `new`. -/
def Node.IsMemberOfNew : Node → Node → Prop
  | .expression (.member _ object _), m | .expression (.index _ object _), m =>
    m = .expression object ∧ object.isNew = true
  | _, _ => False

/-- How a node lies among the tokens of the source. A node begins before those inside it, except
that a member of an object that was made by `new` may begin behind the beginning of that object. -/
structure Node.Laid (ts : List Token) (n : Node) : Prop where
  nonempty : n.span.start.offset < n.span.stop.offset
  start : ∀ m ∈ n.children, n.span.start.offset ≤ m.span.start.offset ∨ n.IsMemberOfNew m
  stop : ∀ m ∈ n.children, m.span.stop.offset ≤ n.span.stop.offset
  spelled : n.Spelled ts

variable {ts : List Token}

theorem Braced.within {span : Span} {ss : List Stmt} (h : Braced ts span ss) (us vs : List Token) :
    Braced (us ++ ts ++ vs) span ss := by
  obtain ⟨before, left, between, right, after, rfl, h⟩ := h
  exact ⟨us ++ before, left, between, right, after ++ vs, by simp, h⟩

theorem SwitchClause.Spelled.within {c : SwitchClause Expr Stmt} (h : c.Spelled ts)
    (us vs : List Token) :
    c.Spelled (us ++ ts ++ vs) := by
  obtain ⟨before, word, test, colon, between, after, rfl, h⟩ := h
  exact ⟨us ++ before, word, test, colon, between, after ++ vs, by simp, h⟩

theorem Node.Spelled.within {n : Node} (h : n.Spelled ts) (us vs : List Token) :
    n.Spelled (us ++ ts ++ vs) := by
  unfold Spelled at h ⊢
  split
  · exact Braced.within h us vs
  · exact Braced.within h us vs
  · exact SwitchClause.Spelled.within h us vs
  · obtain ⟨t, ht, h⟩ := h
    exact ⟨t, by simp [ht], h⟩
  · trivial

theorem Node.Laid.within {n : Node} (h : n.Laid ts) (us vs : List Token) :
    n.Laid (us ++ ts ++ vs) :=
  ⟨h.nonempty, h.start, h.stop, h.spelled.within us vs⟩

end EcmaFront
