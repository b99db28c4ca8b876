import EcmaFront.Proofs.Passing
import EcmaFront.Proofs.Spelling

/-!
The line of every token, read off the text: how many lines end before the token, and where the last
of them does. It stays right however tokens are read, regular expressions read on, and the lexer
sent back to where it stood.
-/

set_option autoImplicit false

namespace EcmaFront

/-- Where the lines of a text that begins at `i` end: the extents of its line terminators. A
carriage return and a line feed are one. -/
def Encoding.lineBreaks (e : Encoding) : Nat → List Char → List (Nat × Nat)
  | _, [] => []
  | i, '\r' :: '\n' :: text => (i, i + 2) :: e.lineBreaks (i + 2) text
  | i, c :: text =>
    let stop := i + e.width c.toNat
    if CodePoint.isLineTerminator c.toNat then (i, stop) :: e.lineBreaks stop text
      else e.lineBreaks stop text

namespace Encoding

variable (e : Encoding) {i : Nat} {text : List Char}

theorem lineBreaks_forward {b : Nat × Nat} (h : b ∈ e.lineBreaks i text) : i ≤ b.1 ∧ b.1 < b.2 := by
  fun_induction lineBreaks e i text with
  | case1 => cases h
  | case2 i text ih =>
    obtain _ | ⟨_, h⟩ := h
    · exact ⟨Nat.le_refl i, Nat.lt_add_of_pos_right Nat.two_pos⟩
    · exact ⟨Nat.le_trans (Nat.le_add_right i 2) (ih h).1, (ih h).2⟩
  | case3 i c text _ stop hc ih =>
    have hw : i < stop := Nat.lt_add_of_pos_right (e.width_pos _)
    obtain _ | ⟨_, h⟩ := h
    · exact ⟨Nat.le_refl i, hw⟩
    · exact ⟨Nat.le_trans (Nat.le_of_lt hw) (ih h).1, (ih h).2⟩
  | case4 i c text _ stop hc ih => exact ⟨Nat.le_trans (Nat.le_add_right i _) (ih h).1, (ih h).2⟩

theorem lineBreaks_of_clear {c : Char} (hc : CodePoint.isLineTerminator c.toNat = false) :
    e.lineBreaks i (c :: text) = e.lineBreaks (i + e.width c.toNat) text := by
  rw [lineBreaks]
  · simp only [hc, Bool.false_eq_true, if_false]
  · rintro _ rfl
    cases hc

theorem lineBreaks_of_line {c : Char} (hc : CodePoint.isLineTerminator c.toNat = true)
    (hn : c = '\r' → text.head? ≠ some '\n') :
    e.lineBreaks i (c :: text) =
    (i, i + e.width c.toNat) :: e.lineBreaks (i + e.width c.toNat) text := by
  rw [lineBreaks]
  · simp only [hc, if_true]
  · rintro text rfl rfl
    exact hn rfl rfl

end Encoding

namespace Source

def lineBreaks (s : Source) (text : List Char) : List (Nat × Nat) :=
  s.buffer.encoding.lineBreaks s.start text

def lineBreaksBefore (s : Source) (text : List Char) (i : Nat) : List (Nat × Nat) :=
  (s.lineBreaks text).filter (·.2 ≤ i)

/-- Where the line begins that comes behind line terminators. -/
def lineBehind (s : Source) (passed : List (Nat × Nat)) : Nat :=
  (passed.getLast?.map Prod.snd).getD s.start

theorem Spells.viewCode_succ {s : Source} {text : List Char} (ht : s.Spells text) {k : Nat}
    (hk : k < text.length) (hc : text[k].toNat < 0x80) :
    s.buffer.encoding.offset text (k + 1) = s.buffer.encoding.offset text k + 1 ∧
      s.view.code (s.start + s.buffer.encoding.offset text k + 1) =
      (text[k + 1]?.map Char.toNat).getD 0 := by
  have ho : s.buffer.encoding.offset text (k + 1) = s.buffer.encoding.offset text k + 1 := by
    rw [s.buffer.encoding.offset_succ hk, Encoding.width_of_lt _ hc]
  have hv := ht.viewCode hk
  rw [ho] at hv
  exact ⟨ho, hv⟩

/-- At a place of a text a character begins, or the text ends; some line terminators end before it
and are counted, and the others are those of the text from there on. -/
structure Stands (s : Source) (text : List Char) (passed : List (Nat × Nat)) (p : Place) :
    Prop where
  character : ∃ k ≤ text.length, p.offset = s.start + s.buffer.encoding.offset text k ∧
    s.lineBreaks text = passed ++ s.buffer.encoding.lineBreaks p.offset (text.drop k)
  ended : ∀ b ∈ passed, b.2 ≤ p.offset
  line : p.line = s.startLine + passed.length
  lineStart : p.lineStart = s.lineBehind passed

namespace Stands

variable {s : Source} {text : List Char} {passed : List (Nat × Nat)} {p q : Place}

theorem start (s : Source) (text : List Char) : s.Stands text [] ⟨s.start, s.startLine, s.start⟩ :=
  ⟨⟨0, Nat.zero_le _, rfl, rfl⟩, nofun, rfl, rfl⟩

theorem le_limit (h : s.Stands text passed p) (ht : s.Spells text) : p.offset ≤ s.stop := by
  obtain ⟨k, hk, ho, -⟩ := h.character
  rw [ho, ht.stop]
  exact Nat.add_le_add_left (s.buffer.encoding.offset_mono hk (Nat.le_refl _)) _

theorem character_of_lt (h : s.Stands text passed p) (ht : s.Spells text) (hp : p.offset < s.stop) :
    ∃ k, ∃ hk : k < text.length, p.offset = s.start + s.buffer.encoding.offset text k ∧
      s.view.code p.offset = text[k].toNat ∧
      s.lineBreaks text = passed ++ s.buffer.encoding.lineBreaks p.offset
        (text[k] :: text.drop (k + 1)) := by
  obtain ⟨k, hk, ho, hb⟩ := h.character
  obtain rfl | hk := Nat.eq_or_lt_of_le hk
  · rw [ho, ht.stop] at hp
    exact absurd hp (Nat.lt_irrefl _)
  · refine ⟨k, hk, ho, ?_, ?_⟩
    · rw [ho, ht.viewCode (Nat.le_of_lt hk), List.getElem?_eq_getElem hk]
      rfl
    · rwa [← List.drop_eq_getElem_cons hk]

theorem clear (h : s.Stands text passed p) (ht : s.Spells text) {i : Nat}
    (hi : s.view.Clear p.offset i) :
    s.Stands text passed { p with offset := i } := by
  induction hi with
  | here => exact h
  | after hi hl hc ih =>
    obtain ⟨k, hk, ho, hv, hb⟩ := ih.character_of_lt ht hl
    dsimp only at ho hv hb
    rw [hv] at hc
    have ha := ht.after hk
    rw [← ho] at ha
    have hended (b : Nat × Nat) (hm : b ∈ passed) : b.2 ≤ s.view.after _ :=
      Nat.le_trans (ih.ended b hm) (Nat.le_of_lt (View.lt_after _ _))
    refine ⟨⟨k + 1, hk, ha, ?_⟩, hended, ih.line, ih.lineStart⟩
    rw [hb, Encoding.lineBreaks_of_clear _ hc, View.after, hv]
    rfl

theorem lineBreak (h : s.Stands text passed p) (ht : s.Spells text) (hp : p.offset < s.stop)
    (hc : (s.view.code p.offset).isLineTerminator = true) :
    ∃ k ≤ text.length, (s.view.afterLine p).offset = s.start + s.buffer.encoding.offset text k ∧
      s.lineBreaks text = passed ++ (p.offset, (s.view.afterLine p).offset) ::
        s.buffer.encoding.lineBreaks (s.view.afterLine p).offset (text.drop k) := by
  obtain ⟨k, hk, ho, hv, hb⟩ := h.character_of_lt ht hp
  rw [hv] at hc
  have hreturn (hr : text[k] = '\r') :
      s.buffer.encoding.offset text (k + 1) = s.buffer.encoding.offset text k + 1 ∧
      s.view.code (p.offset + 1) = (text[k + 1]?.map Char.toNat).getD 0 := by
    rw [ho]
    exact ht.viewCode_succ hk (by rw [hr]; decide)
  rw [View.afterLine]
  dsimp only
  split
  · next hcr =>
    rw [Bool.and_eq_true, beq_iff_eq, beq_iff_eq, hv] at hcr
    have hr : text[k] = '\r' := Char.toNat_inj.1 hcr.1
    obtain ⟨ho₁, hv₁⟩ := hreturn hr
    rw [hcr.2] at hv₁
    have hk₁ : k + 1 < text.length := by
      by_contra hk₁
      rw [List.getElem?_eq_none (Nat.not_lt.1 hk₁)] at hv₁
      cases hv₁
    rw [List.getElem?_eq_getElem hk₁] at hv₁
    have hn : text[k + 1] = '\n' := Char.toNat_inj.1 hv₁.symm
    have ho₂ := (ht.viewCode_succ hk₁ (by rw [hn]; decide)).1
    refine ⟨k + 2, hk₁, by rw [ho₂, ho₁, ho, Nat.add_assoc], ?_⟩
    rw [hb, hr, List.drop_eq_getElem_cons hk₁, hn, Encoding.lineBreaks]
  · next hcr =>
    have hstop : s.view.after p.offset = p.offset + s.buffer.encoding.width text[k].toNat := by
      rw [View.after, hv]
      rfl
    refine ⟨k + 1, hk, ho ▸ ht.after hk, ?_⟩
    rw [hb, hstop, Encoding.lineBreaks_of_line _ hc]
    -- A line feed behind a carriage return would have been read with it.
    intro hr hn
    rw [List.head?_drop] at hn
    rw [(hreturn hr).2, hn, hv, hr] at hcr
    exact hcr rfl

theorem afterLine (h : s.Stands text passed p) (ht : s.Spells text)
    (hl : s.startLine + (s.lineBreaks text).length < 0x100000000) (hp : p.offset < s.stop)
    (hc : (s.view.code p.offset).isLineTerminator = true) :
    s.Stands text (passed ++ [(p.offset, (s.view.afterLine p).offset)]) (s.view.afterLine p) := by
  obtain ⟨k, hk, ho, hb⟩ := h.lineBreak ht hp hc
  refine ⟨⟨k, hk, ho, by rw [hb, List.append_assoc]; rfl⟩, fun b hb => ?_, ?_, ?_⟩
  · obtain hb | hb := List.mem_append.1 hb
    · exact Nat.le_trans (h.ended b hb) (Nat.le_of_lt (s.view.lt_afterLine p))
    · rw [List.mem_singleton.1 hb]
  · rw [hb, List.length_append, List.length_cons] at hl
    rw [List.length_append, List.length_singleton, View.afterLine, nextLine, h.line,
      Nat.mod_eq_of_lt (by omega), Nat.add_assoc]
  · simp [View.afterLine, lineBehind]

theorem passes (h : s.Stands text passed p) (ht : s.Spells text)
    (hl : s.startLine + (s.lineBreaks text).length < 0x100000000) {newline : Bool}
    (hq : s.view.Passes p q newline) :
    ∃ ended, s.Stands text (passed ++ ended) q ∧ (newline = true ↔ ended ≠ []) := by
  induction hq with
  | here => exact ⟨[], by rwa [List.append_nil], by simp⟩
  | along _ hc ih =>
    obtain ⟨ended, hs, hn⟩ := ih
    exact ⟨ended, hs.clear ht hc, hn⟩
  | @line q _ _ hlt hc ih =>
    obtain ⟨ended, hs, -⟩ := ih
    have ha := hs.afterLine ht hl hlt hc
    rw [List.append_assoc] at ha
    exact ⟨ended ++ [(q.offset, (s.view.afterLine q).offset)], ha, by simp⟩

theorem lineBreaksBefore_eq (h : s.Stands text passed p) :
    s.lineBreaksBefore text p.offset = passed := by
  obtain ⟨k, -, -, hb⟩ := h.character
  rw [lineBreaksBefore, hb, List.filter_append,
    List.filter_eq_self.2 fun b hb => decide_eq_true (h.ended b hb),
    List.filter_eq_nil_iff.2 fun b hb => ?_, List.append_nil]
  have hf := Encoding.lineBreaks_forward _ hb
  simp only [decide_eq_true_eq, Nat.not_le]
  exact Nat.lt_of_le_of_lt hf.1 hf.2

theorem lineStart_le (h : s.Stands text passed p) : p.lineStart ≤ p.offset := by
  rw [h.lineStart, lineBehind]
  cases hp : passed.getLast? with
  | none =>
    obtain ⟨k, -, ho, -⟩ := h.character
    rw [ho]
    exact Nat.le_add_right _ _
  | some b => exact h.ended b (List.mem_of_getLast? hp)

theorem passed_iff {ended : List (Nat × Nat)} (h : s.Stands text passed p)
    (hq : s.Stands text (passed ++ ended) q) :
    ended ≠ [] ↔ ∃ b ∈ s.lineBreaks text, p.offset ≤ b.1 ∧ b.2 ≤ q.offset := by
  obtain ⟨k, -, -, hp⟩ := h.character
  obtain ⟨m, -, -, hb⟩ := hq.character
  have hrest : s.buffer.encoding.lineBreaks p.offset (text.drop k) =
      ended ++ s.buffer.encoding.lineBreaks q.offset (text.drop m) := by
    rw [hp, List.append_assoc] at hb
    exact List.append_cancel_left hb
  constructor
  · intro hn
    obtain ⟨b, hb⟩ := List.exists_mem_of_ne_nil ended hn
    have hf := s.buffer.encoding.lineBreaks_forward (hrest ▸ List.mem_append_left _ hb)
    exact ⟨b, hp ▸ List.mem_append_right _ (hrest ▸ List.mem_append_left _ hb), hf.1,
      hq.ended b (List.mem_append_right _ hb)⟩
  · rintro ⟨b, hm, hb₁, hb₂⟩ rfl
    have hm : b ∈ s.lineBreaksBefore text q.offset := List.mem_filter.2 ⟨hm, decide_eq_true hb₂⟩
    rw [hq.lineBreaksBefore_eq, List.append_nil] at hm
    have hf : b.1 < b.2 := by
      have hmem : b ∈ s.lineBreaks text := hp ▸ List.mem_append_left _ hm
      exact (Encoding.lineBreaks_forward _ hmem).2
    have he := h.ended b hm
    omega

end Stands

/-- The line of a token and where that line begins are as the text has them, with columns of the
token's ends in it; so is whether a line ended between the token and the one before it. -/
structure Tracks (s : Source) (text : List Char) (t : Token) (standing : Standing) : Prop where
  line : t.extent.line = s.startLine + (s.lineBreaksBefore text t.extent.start).length
  lineStart : t.extent.lineStart = s.lineBehind (s.lineBreaksBefore text t.extent.start)
  begins : t.extent.lineStart ≤ t.extent.start
  columns : t.extent.columns? =
    some (t.extent.start - t.extent.lineStart, t.extent.stop - t.extent.lineStart)
  newline : standing.newline = true ↔
    ∃ b ∈ s.lineBreaks text, standing.lastStop ≤ b.1 ∧ b.2 ≤ t.extent.start

theorem Tracks.of_stands {s : Source} {text : List Char} {passed ended : List (Nat × Nat)}
    {p : Place} {t : Token} {standing : Standing} (h : s.Stands text passed p)
    (ht : s.Stands text (passed ++ ended) t.place) (hn : standing.newline = true ↔ ended ≠ [])
    (hl : standing.lastStop = p.offset) (ho : t.extent.start ≤ t.extent.stop) :
    s.Tracks text t standing := by
  have hb : s.lineBreaksBefore text t.extent.start = passed ++ ended := ht.lineBreaksBefore_eq
  have hs : t.extent.lineStart ≤ t.extent.start := ht.lineStart_le
  refine ⟨hb ▸ ht.line, hb ▸ ht.lineStart, hs, if_pos ⟨hs, Nat.le_trans hs ho⟩, ?_⟩
  rw [hl]
  exact hn.trans (h.passed_iff ht)

theorem Tracks.congr {s : Source} {text : List Char} {t u : Token} {standing standing' : Standing}
    (h : s.Tracks text t standing) (hp : u.place = t.place)
    (hn : standing'.newline = standing.newline) (hl : standing'.lastStop = standing.lastStop)
    (ho : u.extent.start ≤ u.extent.stop) :
    s.Tracks text u standing' := by
  obtain ⟨⟩ := u
  simp only [Token.place, Place.mk.injEq] at hp
  obtain ⟨hp, hline, hstart⟩ := hp
  refine ⟨?_, ?_, ?_, ?_, ?_⟩
  · rw [hline, hp, h.line]
  · rw [hstart, hp, h.lineStart]
  · rw [hstart, hp]
    exact h.begins
  · have hs := h.begins
    rw [← hp, ← hstart] at hs
    exact if_pos ⟨hs, Nat.le_trans hs ho⟩
  · rw [hn, hl, hp]
    exact h.newline

end Source

namespace Lexer

/-- What is returned behind a token: the next token, or a slash read on as a regular expression. -/
inductive Returns : Token × Lexer → Token × Lexer → Prop where
  | next (x : Token × Lexer) (strict : Bool) : Returns x (x.2.next strict)
  | regexp {x : Token × Lexer} (hk : x.1.kind.isSlash = true) (start : String) :
    Returns x (x.2.regexp x.1 start)

/-- A lexer as it is handled, with the token returned last. Where it stands behind a token can be
kept, and it can go back to wherever it was kept, as often as one likes. -/
inductive Handled (s : Source) : Token × Lexer → List (Token × Standing) → Prop where
  | start {t : Token} (ht : t.kind.isSlash = false) : Handled s (t, .ofSource s) []
  | returned {x y : Token × Lexer} {kept : List (Token × Standing)} (h : Handled s x kept)
    (hy : Returns x y) :
    Handled s y kept
  | keep {x : Token × Lexer} {kept : List (Token × Standing)} (h : Handled s x kept) :
    Handled s x ((x.1, x.2.standing) :: kept)
  | goBack {x : Token × Lexer} {kept : List (Token × Standing)} {t : Token} {standing : Standing}
    (h : Handled s x kept) (hk : (t, standing) ∈ kept) : Handled s (t, x.2.goTo standing) kept

end Lexer

/-- A lexer stands at a place of the text, and the token before it is tracked if it may be read
on. -/
structure Standing.OnTrack (s : Source) (text : List Char) (t : Token) (standing : Standing) :
    Prop where
  stands : ∃ passed, s.Stands text passed ⟨standing.offset, standing.line, standing.lineStart⟩
  slash : t.kind.isSlash = true → s.Tracks text t standing ∧ t.extent.start ≤ standing.offset

namespace Lexer

variable {s : Source} {text : List Char} {x y : Token × Lexer}

theorem Returns.onTrack (hy : Returns x y) (ht : s.Spells text)
    (hl : s.startLine + (s.lineBreaks text).length < 0x100000000) (hv : x.2.view = s.view)
    (h : x.2.standing.OnTrack s text x.1) :
    y.2.view = s.view ∧ y.2.standing.OnTrack s text y.1 ∧
      (y.2.fault ≠ some .unterminatedComment → s.Tracks text y.1 y.2.standing) := by
  obtain ⟨passed, hs⟩ := h.stands
  cases hy with
  | next strict =>
    have ha := x.2.next_advances strict
    obtain ⟨⟨_, hp⟩, hlast, htoken⟩ := x.2.next_passes strict
    rw [hv] at hp htoken
    have tracks (hf : (x.2.next strict).2.fault ≠ some .unterminatedComment) :
        s.Tracks text (x.2.next strict).1 (x.2.next strict).2.standing := by
      obtain ⟨ended, hq, hn⟩ := hs.passes ht hl (htoken hf)
      exact .of_stands hs hq hn hlast ha.ordered
    obtain ⟨ended, hq, -⟩ := hs.passes ht hl hp
    refine ⟨ha.view.trans hv, { stands := ⟨_, hq⟩, slash := fun hk => ?_ }, tracks⟩
    refine ⟨tracks ?_, ha.stop ▸ ha.ordered⟩
    rw [fault_next_of_isSolid (TokenKind.isSolid_of_isSlash hk)]
    exact (Option.some_ne_none _).symm
  | regexp hk start =>
    obtain ⟨htracks, hle⟩ := h.slash hk
    obtain ⟨hview, -, hforth⟩ := regexp_advances x.2 x.1 start
    obtain ⟨hp, hplace, hnewline, hlast⟩ := x.2.regexp_passes x.1 start
    rw [hv] at hp
    obtain ⟨ended, hq, -⟩ := hs.passes ht hl hp
    have hstart : (x.2.regexp x.1 start).1.extent.start = x.1.extent.start :=
      congrArg Place.offset hplace
    have hstop : (x.2.regexp x.1 start).1.extent.start ≤ (x.2.regexp x.1 start).2.standing.offset :=
      hstart ▸ Nat.le_trans hle hforth
    have tracks := htracks.congr hplace hnewline hlast (regexp_stop .. ▸ hstop)
    have hx : (x.2.regexp x.1 start).2.standing.OnTrack s text (x.2.regexp x.1 start).1 := {
      stands := ⟨_, hq⟩
      slash := fun _ => ⟨tracks, hstop⟩ }
    exact ⟨hview.trans hv, hx, fun _ => tracks⟩

theorem Handled.onTrack {kept : List (Token × Standing)} (h : Handled s x kept) (ht : s.Spells text)
    (hl : s.startLine + (s.lineBreaks text).length < 0x100000000) :
    x.2.view = s.view ∧ x.2.standing.OnTrack s text x.1 ∧ ∀ k ∈ kept, k.2.OnTrack s text k.1 := by
  induction h with
  | start hk =>
    refine ⟨rfl, ⟨⟨_, .start s text⟩, fun hs => ?_⟩, List.forall_mem_nil _⟩
    rw [hk] at hs
    cases hs
  | returned _ hy ih =>
    obtain ⟨hv, hx, hk⟩ := ih
    obtain ⟨hv, hx, -⟩ := hy.onTrack ht hl hv hx
    exact ⟨hv, hx, hk⟩
  | keep _ ih => exact ⟨ih.1, ih.2.1, List.forall_mem_cons.2 ⟨ih.2.1, ih.2.2⟩⟩
  | @goBack x _ t standing _ hk ih =>
    obtain ⟨hv, -, hkept⟩ := ih
    have hs := hkept _ hk
    obtain ⟨passed, hp⟩ := hs.stands
    have hg : (x.2.goTo standing).standing = standing := by
      rw [goTo, hv, show min standing.offset s.view.limit = standing.offset from Nat.min_eq_left
        (hp.le_limit ht)]
    refine ⟨hv, ?_, hkept⟩
    rw [hg]
    exact hs

/-- Every token has its line, and knows whether a line ended before it, however it was come to. A
comment that is never closed is told of where it begins, but it is passed to its end. -/
theorem lines_are_tracked {kept : List (Token × Standing)} (ht : s.Spells text)
    (hl : s.startLine + (s.lineBreaks text).length < 0x100000000) (hx : Handled s x kept)
    (hy : Returns x y) (hf : y.2.fault ≠ some .unterminatedComment) :
    s.Tracks text y.1 y.2.standing := by
  obtain ⟨hv, ho, -⟩ := hx.onTrack ht hl
  exact (hy.onTrack ht hl hv ho).2.2 hf

/-- The slash token of the second line is read on twice; what comes behind it is on the third
line. -/
theorem lines_are_tracked_after_going_back :
    ∃ x kept y, Handled (.ofString "x\r\n/=/\ny" "") x kept ∧ Returns x y ∧
      y.2.fault ≠ some .unterminatedComment ∧ y.1.extent.line = 3 ∧ y.2.standing.newline = true ∧
      Source.Tracks (.ofString "x\r\n/=/\ny" "") "x\r\n/=/\ny".toList y.1 y.2.standing := by
  have first : Handled (.ofString "x\r\n/=/\ny" "")
      (⟨.eof, .none, ⟨1, 0, 0, 0⟩⟩, .ofSource (.ofString "x\r\n/=/\ny" "")) [] := .start rfl
  have slash := ((first.returned (.next _ false)).returned (.next _ false)).keep
  have back := (slash.returned (.regexp (by decide +kernel) "=")).goBack (List.mem_singleton_self _)
  have behind := back.returned (.regexp (by decide +kernel) "=")
  exact ⟨_, _, _, behind, .next _ false, by decide +kernel, by decide +kernel, by decide +kernel,
    lines_are_tracked (Source.spells_utf8 _ "" 1) (by decide +kernel) behind (.next _ false)
    (by decide +kernel)⟩

end Lexer

end EcmaFront
