import EcmaFront.Proofs.Cutting
import EcmaFront.Proofs.Passing

/-!
Progress of the lexer, over whatever units a buffer holds. A token that stands for something takes a
unit at least, and begins where the last one ended or behind white space, line terminators and
complete comments. So a view holds at most as many of them as it has units, and the lexer comes to
its end or to an error.
-/

set_option autoImplicit false

namespace EcmaFront

namespace View

variable {v : View} {i j n : Nat}

/-- A block comment goes on from one offset to another, over its first closing mark. -/
inductive Commented (v : View) : Nat → Nat → Prop where
  | closed {i : Nat} (hs : v.code i = 0x2A) (hc : v.code (i + 1) = 0x2F) : v.Commented i (i + 2)
  | char {i j : Nat} (hi : i < v.limit) (hc : ¬(v.code i = 0x2A ∧ v.code (i + 1) = 0x2F))
    (h : v.Commented (v.after i) j) : v.Commented i j

/-- From one offset to another there is white space, there are line terminators and complete
comments, and nothing else. -/
inductive Blank (v : View) : Nat → Nat → Prop where
  | nothing {i : Nat} : v.Blank i i
  | space {i j : Nat} (hi : i < v.limit) (hc : (v.code i).isWhitespace = true ∨
    (v.code i).isLineTerminator = true)
    (h : v.Blank (v.after i) j) : v.Blank i j
  | lineComment {i j k : Nat} (hs : v.code i = 0x2F) (hc : v.code (i + 1) = 0x2F) (hl : v.Clear i j)
    (he : v.limit ≤ j ∨ (v.code j).isLineTerminator = true) (h : v.Blank j k) : v.Blank i k
  | blockComment {i j k : Nat} (hs : v.code i = 0x2F) (hc : v.code (i + 1) = 0x2A)
    (hb : v.Commented (i + 2) j)
    (h : v.Blank j k) : v.Blank i k

theorem lineCommentEnd_ends (hn : v.Enough n i) :
    v.limit ≤ v.lineCommentEnd n i ∨ (v.code (v.lineCommentEnd n i)).isLineTerminator = true := by
  induction n generalizing i with
  | zero => exact absurd rfl hn.ne_zero
  | succ n ih =>
    rw [lineCommentEnd]
    split
    · next he => simpa [isEnd] using he
    · next he =>
      rw [Bool.or_eq_true, not_or] at he
      exact ih (hn.step (lt_limit_of_isEnd he.1) (v.lt_after i))

theorem afterLine_induction {motive : Nat → Prop} {p : Place}
    (step : ∀ i, i < v.limit → (v.code i).isLineTerminator = true → motive (v.after i) → motive i)
    (hi : p.offset < v.limit) (hc : (v.code p.offset).isLineTerminator = true)
    (h : motive (v.afterLine p).offset) :
    motive p.offset := by
  refine step p.offset hi hc ?_
  simp only [afterLine] at h
  split at h
  · next hx =>
    rw [Bool.and_eq_true, beq_iff_eq, beq_iff_eq] at hx
    have hl : p.offset + 1 < v.limit := lt_limit (by rw [hx.2]; decide)
    rw [after_of_isAscii (by rw [hx.1]; decide)]
    refine step (p.offset + 1) hl (by rw [hx.2]; rfl) ?_
    rwa [after_of_isAscii (by rw [hx.2]; decide)]
  · exact h

theorem blockComment_closed {p : Place} {newline : Bool}
    (h : (v.blockComment n p newline).closed = true) :
    v.Commented p.offset (v.blockComment n p newline).place.offset := by
  induction n generalizing p newline with
  | zero => cases h
  | succ n ih =>
    rw [blockComment] at h ⊢
    split at h
    · cases h
    next he =>
    rw [if_neg he]
    split at h
    · next hc =>
      rw [if_pos hc]
      rw [Bool.and_eq_true, beq_iff_eq, beq_iff_eq] at hc
      exact .closed hc.1 hc.2
    next hc =>
    rw [if_neg hc]
    rw [Bool.and_eq_true, beq_iff_eq, beq_iff_eq] at hc
    have hi := lt_limit_of_isEnd he
    split at h
    · next hl =>
      rw [if_pos hl]
      refine afterLine_induction (motive := (v.Commented · _))
        (fun i hi hl hx => .char hi (fun hs => ?_) hx) hi hl
        (ih h)
      rw [hs.1] at hl
      cases hl
    · next hl =>
      rw [if_neg hl]
      exact .char hi hc (ih h)

theorem triviaFrom_blank {p : Place} {newline : Bool}
    (h : (v.triviaFrom n p newline).unclosed = none) :
    v.Blank p.offset (v.triviaFrom n p newline).place.offset := by
  induction n generalizing p newline with
  | zero => exact .nothing
  | succ n ih =>
    simp only [triviaFrom] at h ⊢
    split
    · exact .nothing
    next he =>
    rw [if_neg he] at h
    have hi := lt_limit_of_isEnd he
    split
    · next hc =>
      rw [if_pos hc] at h
      exact afterLine_induction (motive := (v.Blank · _))
        (fun i hi hc hx => .space hi (.inr hc) hx) hi hc (ih h)
    next hl =>
    rw [if_neg hl] at h
    split
    · next hc =>
      rw [if_pos hc] at h
      exact .space hi (.inl hc) (ih h)
    next hw =>
    rw [if_neg hw] at h
    split
    · next hc =>
      rw [if_pos hc] at h
      rw [Bool.and_eq_true, beq_iff_eq, beq_iff_eq] at hc
      exact .lineComment hc.1 hc.2 (Clear.here.lineCommentEnd _)
        (lineCommentEnd_ends (.steps v _)) (ih h)
    next hc =>
    rw [if_neg hc] at h
    split
    · next hc =>
      rw [if_pos hc] at h
      rw [Bool.and_eq_true, beq_iff_eq, beq_iff_eq] at hc
      split at h
      · next hx =>
        rw [if_pos hx]
        exact .blockComment hc.1 hc.2 (blockComment_closed hx) (ih h)
      · cases h
    · exact .nothing

end View

def Source.lastStop (s : Source) (tokens : List Sighting) : Nat :=
  (tokens.getLast?.map (·.extent.stop)).getD s.start

namespace Lexer

variable {l : Lexer} {requests : List Request} {before after : List Sighting} {t : Sighting}

theorem next_blank {strict : Bool} (h : (l.next strict).1.kind.isSolid = true) :
    l.view.Blank l.standing.offset (l.next strict).1.extent.start := by
  obtain ⟨kind, value, q, hu, -, -, hn⟩ := next_of_isSolid h
  rw [hn]
  exact View.triviaFrom_blank hu

theorem read_blank {r : Request} (h : (l.read r).1.kind.isSolid = true) :
    l.view.Blank l.standing.offset (l.read r).1.extent.start := by
  have hb := next_blank (isSolid_next_of_read h)
  by_cases hs : (r.regexp && (l.next r.strict).1.kind.isSlash) = true
  · rw [read_eq_regexp hs, (regexp_advances _ _ _).2.1]
    exact hb
  · rwa [read_eq_next hs]

theorem tokens_eq_append (h : l.tokens requests = before ++ t :: after) :
    ∃ first r, l.tokens first = before ∧ sighting ((l.after first).read r) = t := by
  induction before generalizing l requests with
  | nil =>
    cases requests with
    | nil => cases h
    | cons r requests => exact ⟨[], r, rfl, (List.cons.inj h).1⟩
  | cons u before ih =>
    cases requests with
    | nil => cases h
    | cons r requests =>
      obtain ⟨hu, h⟩ := List.cons.inj h
      obtain ⟨first, r', hf, ht⟩ := ih h
      exact ⟨r :: first, r', by rw [tokens, hu, hf], ht⟩

theorem lastStop_tokens (s : Source) (first : List Request) :
    s.lastStop ((ofSource s).tokens first) = ((ofSource s).after first).standing.offset := by
  rw [Source.lastStop]
  cases hl : ((ofSource s).tokens first).getLast? with
  | some t => exact stop_of_getLast? hl
  | none =>
    cases first with
    | nil => rfl
    | cons r first => cases List.getLast?_eq_none_iff.1 hl

theorem exists_not_isSolid (h : l.view.limit - l.standing.offset < requests.length) :
    ∃ k ≤ l.view.limit - l.standing.offset, ∃ t,
    (l.tokens requests)[k]? = some t ∧ t.token.kind.isSolid = false := by
  induction requests generalizing l with
  | nil => cases h
  | cons r requests ih =>
    cases hs : (l.read r).1.kind.isSolid with
    | false => exact ⟨0, Nat.zero_le _, _, rfl, hs⟩
    | true =>
      -- The token took a unit, so there is one less for the others.
      have ha := l.read_advances r
      have hi := ha.inside (TokenKind.ne_eof_of_isSolid hs)
      have hlt := ha.solid hs
      have hstart := ha.start
      have hstop := ha.stop
      have hv := ha.view
      rw [List.length_cons] at h
      obtain ⟨k, hk, t, ht, hn⟩ := ih (l := (l.read r).2) (by rw [hv]; omega)
      rw [hv] at hk
      exact ⟨k + 1, by omega, t, ht, hn⟩

/-- Tokens of a source, however its units are encoded and whichever mode each is read in, take a
unit at least and have nothing but blanks between them; and one of as many as there are units, or
the next, is the end or an error. -/
theorem tokens_progress (s : Source) (requests : List Request) :
    (∀ before t after, (ofSource s).tokens requests = before ++ t :: after →
      t.token.kind.isSolid = true →
      s.lastStop before ≤ t.extent.start ∧ t.extent.start < t.extent.stop ∧
        s.view.Blank (s.lastStop before) t.extent.start) ∧
    (s.size < requests.length →
      ∃ k ≤ s.size, ∃ t, ((ofSource s).tokens requests)[k]? = some t ∧
      t.token.kind.isSolid = false) := by
  refine ⟨fun before t after h hs => ?_, fun h => exists_not_isSolid (l := ofSource s) h⟩
  obtain ⟨first, r, rfl, rfl⟩ := tokens_eq_append h
  rw [lastStop_tokens]
  have ha := ((ofSource s).after first).read_advances r
  have hb := read_blank hs
  rw [view_after] at hb
  exact ⟨ha.start, ha.solid hs, hb⟩

/-- Between two names there are a space of three units and a comment with a unit in it that leads
nothing. -/
theorem tokens_progress_malformed :
    (View.mk (.utf8 #[0x61, 0xE2, 0x80, 0x83, 0x2F, 0x2A, 0xFF, 0x20, 0x2A, 0x2F, 0x62]) 11).Blank 1
      10 ∧
      ∃ k ≤ 11, ∃ t, ((ofSource ⟨.utf8 #[0x61, 0xE2, 0x80, 0x83, 0x2F, 0x2A, 0xFF, 0x20, 0x2A, 0x2F,
        0x62], "", 1, 0,
        11⟩).tokens (List.replicate 12 ⟨true, false⟩))[k]? = some t ∧
        t.token.kind.isSolid = false := by
  constructor
  · have names := tokens_progress
      ⟨.utf8 #[0x61, 0xE2, 0x80, 0x83, 0x2F, 0x2A, 0xFF, 0x20, 0x2A, 0x2F, 0x62], "", 1, 0, 11⟩
      [⟨false, false⟩, ⟨true, false⟩]
    exact (names.1 [⟨⟨.identifier, .text "a", ⟨1, 0, 0, 1⟩⟩, false, none⟩]
      ⟨⟨.identifier, .text "b", ⟨1, 0, 10, 11⟩⟩, false, none⟩ [] (by decide +kernel) rfl).2.2
  · exact (tokens_progress
      ⟨.utf8 #[0x61, 0xE2, 0x80, 0x83, 0x2F, 0x2A, 0xFF, 0x20, 0x2A, 0x2F, 0x62], "", 1, 0, 11⟩
      _).2 (by decide)

end Lexer

end EcmaFront
