import EcmaFront.Proofs.LineTracking
import EcmaFront.Proofs.Confinement

/-!
Where the tokens of a text are, the texts that are none among them. Each begins inside the view, on
the line that the lines which end before it make, and a comment that is never closed begins with its
own first characters. A line number has 32 bits; nothing but the number is lost where it runs over.
-/

set_option autoImplicit false

namespace EcmaFront

theorem nextLine_iterate {n line : Nat} (h : line + n < 0x100000000) :
    nextLine^[n] line = line + n := by
  induction n with
  | zero => rfl
  | succ n ih =>
    rw [Function.iterate_succ_apply', ih (Nat.lt_of_succ_lt h)]
    exact Nat.mod_eq_of_lt h

namespace Source

/-- A place of a text as a lexer comes to it from the start of its view. -/
def Counts (s : Source) (text : List Char) (p : Place) : Prop :=
  ∃ passed, s.Stands text passed { p with line := s.startLine + passed.length } ∧
    p.line = nextLine^[passed.length] s.startLine

namespace Counts

variable {s : Source} {text : List Char} {p q : Place}

theorem start (s : Source) (text : List Char) : s.Counts text ⟨s.start, s.startLine, s.start⟩ :=
  ⟨[], .start s text, rfl⟩

theorem clear (h : s.Counts text p) (ht : s.Spells text) {i : Nat} (hi : s.view.Clear p.offset i) :
    s.Counts text { p with offset := i } :=
  let ⟨passed, hs, hl⟩ := h
  ⟨passed, hs.clear ht hi, hl⟩

theorem afterLine (h : s.Counts text p) (ht : s.Spells text) (hp : p.offset < s.stop)
    (hc : (s.view.code p.offset).isLineTerminator = true) : s.Counts text (s.view.afterLine p) := by
  obtain ⟨passed, hs, hl⟩ := h
  obtain ⟨k, hk, ho, hb⟩ := hs.lineBreak ht hp hc
  refine ⟨passed ++ [(p.offset, (s.view.afterLine p).offset)], ?_, ?_⟩
  · refine ⟨⟨k, hk, ho, ?_⟩, fun b hm => ?_, rfl, ?_⟩
    · rw [hb, List.append_assoc]
      rfl
    · obtain hm | hm := List.mem_append.1 hm
      · exact Nat.le_trans (hs.ended b hm) (Nat.le_of_lt (s.view.lt_afterLine p))
      · rw [List.mem_singleton.1 hm]
    · simp [View.afterLine, lineBehind]
  · rw [List.length_append, List.length_singleton, Function.iterate_succ_apply', ← hl]
    rfl

theorem passes (h : s.Counts text p) (ht : s.Spells text) {newline : Bool}
    (hq : s.view.Passes p q newline) :
    s.Counts text q := by
  induction hq with
  | here => exact h
  | along _ hc ih => exact ih.clear ht hc
  | line _ hlt hc ih => exact ih.afterLine ht hlt hc

end Counts

end Source

namespace View

variable {v : View}

theorem Passes.unclosed {p q : Place} {newline : Bool} {n : Nat} {e : Extent}
    (h : v.Passes p q newline) (he : (v.triviaFrom n q newline).unclosed = some e) :
    (∃ newline, v.Passes p ⟨e.start, e.line, e.lineStart⟩ newline) ∧
      v.code e.start = 0x2F ∧ v.code (e.start + 1) = 0x2A := by
  induction n generalizing q newline with
  | zero => cases he
  | succ n ih =>
    simp only [View.triviaFrom] at he
    split at he
    · cases he
    next hend =>
    have hq := lt_limit_of_isEnd hend
    split at he
    · next hc => exact ih (h.line hq hc) he
    next hc =>
    split at he
    · exact ih (h.along (.after .here hq (by simpa using hc))) he
    split at he
    · exact ih (h.along (Clear.here.lineCommentEnd _)) he
    split at he
    · next hs =>
      split at he
      · exact ih ((h.along (Clear.here.succ_two hs (by decide) (by decide))).blockComment _) he
      · cases he
        rw [Bool.and_eq_true, beq_iff_eq, beq_iff_eq] at hs
        exact ⟨⟨_, h⟩, hs⟩
    · cases he

/-! What is wrong with a word, a numeral or a string is not a comment. -/

theorem wordFrom_ne_comment {strict escaped : Bool} {n i : Nat} {name : List Char} :
    (v.wordFrom strict n i name escaped).1 ≠ .error .unterminatedComment := by
  induction n generalizing i name escaped with
  | zero => rintro ⟨⟩
  | succ n ih =>
    simp only [wordFrom]
    split
    · split
      · rintro ⟨⟩
      split
      · generalize (if name.isEmpty then _ else _) = fits
        cases fits
        · rintro ⟨⟩
        · exact ih
      · rintro ⟨⟩
    split
    · exact ih
    · unfold wordKind
      repeat' split
      all_goals rintro ⟨⟩

theorem numeral_ne_comment {strict : Bool} {i : Nat} :
    (v.numeral strict i).1 ≠ .error .unterminatedComment := by
  have endNumeral (x : Option Binary64 × Nat) :
      (v.endNumeral x).1 ≠ .error .unterminatedComment := by
    obtain ⟨_ | value, j⟩ := x
    · rintro ⟨⟩
    · simp only [View.endNumeral]
      split <;> rintro ⟨⟩
  simp only [numeral]
  repeat' split
  all_goals first | exact endNumeral _ | rintro ⟨⟩

theorem escape_ne_comment {strict : Bool} {i : Nat} :
    (v.escape strict i).1 ≠ .error .unterminatedComment := by
  simp only [escape]
  repeat' split
  all_goals rintro ⟨⟩

theorem stringFrom_ne_comment {quote : CodePoint} {strict : Bool} {n : Nat} {p : Place}
    {chars : List Char} :
    (v.stringFrom quote strict n p chars).1 ≠ .error .unterminatedComment := by
  induction n generalizing p chars with
  | zero => rintro ⟨⟩
  | succ n ih =>
    simp only [stringFrom]
    split
    · rintro ⟨⟩
    split
    · rintro ⟨⟩
    split
    · exact ih
    split
    · rintro ⟨⟩
    split
    · exact ih
    split
    · exact ih
    · next hx =>
      have hf := @escape_ne_comment v strict (p.offset + 1)
      rw [hx] at hf
      simpa using hf

theorem token_ne_comment {strict : Bool} {p : Place} :
    (v.token strict p).1 ≠ .error .unterminatedComment := by
  simp only [token]
  split
  · rintro ⟨⟩
  split
  · exact wordFrom_ne_comment
  split
  · exact numeral_ne_comment
  split
  · exact stringFrom_ne_comment
  split <;> rintro ⟨⟩

end View

/-- The token is at a place of the text, and so is a comment that is never closed, which begins
there. -/
structure Sighting.Placed (t : Sighting) (s : Source) (text : List Char) : Prop where
  counts : s.Counts text t.token.place
  comment : t.fault = some .unterminatedComment →
    s.view.code t.extent.start = 0x2F ∧ s.view.code (t.extent.start + 1) = 0x2A

namespace Lexer

variable {s : Source} {text : List Char} {l : Lexer}

theorem next_placed (ht : s.Spells text) (hv : l.view = s.view) (h : s.Counts text l.place)
    (strict : Bool) :
    (sighting (l.next strict)).Placed s text := by
  have hp : s.Counts text (l.view.trivia l.place).place := by
    rw [hv]
    exact h.passes ht (.trivia s.view l.place)
  have hn := @View.token_ne_comment l.view strict (l.view.trivia l.place).place
  simp only [next]
  split
  · next extent hu =>
    rw [hv] at hu
    obtain ⟨⟨_, he⟩, hcode⟩ := View.Passes.here.unclosed hu
    exact ⟨h.passes ht he, fun _ => hcode⟩
  · split
    · exact ⟨hp, by rintro ⟨⟩⟩
    · next fault hx =>
      refine ⟨hp, fun hf => absurd ?_ hn⟩
      rw [hx]
      exact congrArg Except.error (Option.some.inj hf)

theorem regexp_ne_comment (l : Lexer) (t : Token) (start : String) :
    (l.regexp t start).2.fault ≠ some .unterminatedComment := by
  simp only [regexp]
  split
  · rintro ⟨⟩
  · next hf =>
    unfold View.regexp at hf
    split at hf
    · cases hf
      rintro ⟨⟩
    · cases hf

theorem read_placed (ht : s.Spells text) (hv : l.view = s.view) (h : s.Counts text l.place)
    (r : Request) :
    (sighting (l.read r)).Placed s text ∧ s.Counts text (l.read r).2.place := by
  have hplaced := next_placed ht hv h r.strict
  obtain ⟨⟨_, hp⟩, -⟩ := l.next_passes r.strict
  have hnext := h.passes ht (hv ▸ hp)
  by_cases hr : (r.regexp && (l.next r.strict).1.kind.isSlash) = true
  · obtain ⟨hp, hplace, -⟩ := (l.next r.strict).2.regexp_passes (l.next r.strict).1
      (if (l.next r.strict).1.kind == .slashEqual then "=" else "")
    rw [(l.next_advances r.strict).view.trans hv] at hp
    rw [read_eq_regexp hr]
    refine ⟨⟨?_, fun hf => absurd hf (regexp_ne_comment _ _ _)⟩, hnext.passes ht hp⟩
    show s.Counts text (Lexer.regexp _ _ _).1.place
    rw [hplace]
    exact hplaced.counts
  · rw [read_eq_next hr]
    exact ⟨hplaced, hnext⟩

theorem tokens_placed (ht : s.Spells text) (requests : List Request) :
    ∀ t ∈ (ofSource s).tokens requests, t.Placed s text := by
  have placed (l : Lexer) (hv : l.view = s.view) (h : s.Counts text l.place) :
      ∀ t ∈ l.tokens requests, t.Placed s text := by
    induction requests generalizing l with
    | nil => exact List.forall_mem_nil _
    | cons r requests ih =>
      obtain ⟨hplaced, hc⟩ := read_placed ht hv h r
      exact List.forall_mem_cons.2 ⟨hplaced, ih _ ((view_read l r).trans hv) hc⟩
  exact placed (ofSource s) rfl (.start s text)

end Lexer

end EcmaFront
