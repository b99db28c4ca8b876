import EcmaFront.Proofs.Passing
import EcmaFront.Proofs.ShownText

/-!
The spellings of a name. Each character of it may be written as itself or as a Unicode escape. A
name that is an identifier where it is written plainly is one in every spelling, unless it is a word
that strict code reserves: such a word is an identifier of sloppy code, but not with an escape in
it.
-/

set_option autoImplicit false

namespace EcmaFront

/-- What may be written behind a backslash for a character of a name. -/
inductive NameEscape (c : Char) : List Char → Prop where
  | plane {digits : List Char} (hl : digits.length = 4) (h : Numeral 16 digits c.toNat) :
    NameEscape c ('u' :: digits)
  | braced {digits : List Char} (hn : digits ≠ []) (h : Numeral 16 digits c.toNat) :
    NameEscape c ('u' :: '\x7b' :: digits ++ ['\x7d'])

/-- What may be written for a name, and whether there is an escape in it. -/
inductive NameSpelling : Bool → List Char → List Char → Prop where
  | empty : NameSpelling false [] []
  | itself {escaped : Bool} {c : Char} {name written : List Char}
    (h : NameSpelling escaped name written) :
    NameSpelling escaped (c :: name) (c :: written)
  | escaped {escaped : Bool} {c : Char} {name mark written : List Char} (hm : NameEscape c mark)
    (h : NameSpelling escaped name written) : NameSpelling true (c :: name)
    ('\\' :: mark ++ written)

theorem nameSpelling_false_iff {name written : List Char} :
    NameSpelling false name written ↔ written = name := by
  constructor
  · intro h
    generalize he : false = escaped at h
    induction h with
    | empty => rfl
    | itself _ ih => rw [ih he]
    | escaped => cases he
  · rintro rfl
    induction written with
    | nil => exact .empty
    | cons c written ih => exact .itself ih

def NameEnds (rest : List Char) : Prop :=
  ∀ c ∈ rest.head?, c ≠ '\\' ∧ CodePoint.isIdentifierPart c.toNat = false

theorem not_isIdentifierPart_backslash : CodePoint.isIdentifierPart '\\'.toNat = false := by decide

namespace CodePoint

theorem not_isWhitespace_of_isIdentifierStart {code : CodePoint}
    (h : code.isIdentifierStart = true) :
    code.isWhitespace = false := by
  by_contra hc
  simp only [Bool.not_eq_false, isWhitespace, Bool.or_eq_true, Bool.and_eq_true, beq_iff_eq,
    decide_eq_true_eq] at hc
  -- The spaces of general punctuation are a range, all others stand alone.
  by_cases hr : 0x2000 ≤ code ∧ code ≤ 0x200A
  · obtain ⟨hl, hh⟩ := hr
    interval_cases code <;> exact absurd h (by decide +kernel)
  · simp only [hr, or_false, or_assoc] at hc
    obtain rfl | rfl | rfl | rfl | rfl | rfl | rfl | rfl | rfl | rfl := hc
    all_goals exact absurd h (by decide +kernel)

theorem toChar_ne_backslash {code : CodePoint} (h : code.isIdentifierPart = true) :
    code.toChar ≠ '\\' := fun hc => by
  rw [eq_of_toChar hc (by decide), not_isIdentifierPart_backslash] at h
  cases h

end CodePoint

namespace View

variable {v : View} {strict escaped : Bool} {i j n : Nat} {c : Char} {name written rest : List Char}
  {kind : TokenKind} {value : TokenValue} {p q : Place}

theorem unicodeEscape_of_nameEscape {mark : List Char} (hm : NameEscape c mark)
    (h : v.Shows i (mark ++ rest)) :
    v.unicodeEscape i = (some c.toNat, i + mark.length) ∧ ∀ d ∈ mark, d.toNat < 0x80 := by
  cases hm with
  | plane hl hd =>
    rw [unicodeEscape_of_four hl hd h, List.length_cons, hl]
    exact ⟨rfl, List.forall_mem_cons.2 ⟨by decide, hd.ascii (Nat.le_refl 16)⟩⟩
  | @braced digits hn hd =>
    rw [List.append_assoc] at h
    rw [unicodeEscape_of_braced hn hd (Nat.le_of_lt_succ (CodePoint.toNat_lt c)) h,
      List.length_append, List.length_cons, List.length_cons, List.length_singleton]
    refine ⟨congrArg (Prod.mk _) (by omega),
      List.forall_mem_append.2 ⟨?_, List.forall_mem_singleton.2 (by decide)⟩⟩
    exact List.forall_mem_cons.2
      ⟨by decide, List.forall_mem_cons.2 ⟨by decide, hd.ascii (Nat.le_refl 16)⟩⟩

theorem wordFrom_of_spelling (strict : Bool) (read : List Char)
    (hw : NameSpelling escaped name written)
    (hr : NameEnds rest) (hp : ∀ c ∈ name, CodePoint.isIdentifierPart c.toNat = true)
    (h : v.Shows i (written ++ rest)) (hn : v.Enough n i)
    (hs : read = [] → ∀ c ∈ name.head?, CodePoint.isIdentifierStart c.toNat = true)
      (before : Bool) :
    v.wordFrom strict n i read before =
      ((wordKind strict (before || escaped) (String.ofList (read.reverse ++ name))).map
        (·, .text (String.ofList (read.reverse ++ name))), i + v.buffer.encoding.span written) := by
  induction hw generalizing i n read before with
  | empty =>
    obtain ⟨n, rfl⟩ := Nat.exists_eq_succ_of_ne_zero hn.ne_zero
    have hc : v.code i ≠ 0x5C ∧ (v.code i).isIdentifierPart = false := by
      rw [Shows.code (show v.Shows i rest from h)]
      cases rest with
      | nil => exact ⟨by decide, by decide⟩
      | cons c rest => exact ⟨fun hx => (hr c rfl).1 (Char.toNat_inj.1 hx), (hr c rfl).2⟩
    simp only [wordFrom, beq_iff_eq, hc, Bool.false_eq_true, if_false,
      List.append_nil, Bool.or_false]
    rfl
  | @itself escaped c name written hw ih =>
    obtain ⟨n, rfl⟩ := Nat.exists_eq_succ_of_ne_zero hn.ne_zero
    have hc := hp c (.head _)
    have hb : c.toNat ≠ 0x5C := fun hx => by
      rw [show c = '\\' from Char.toNat_inj.1 hx, not_isIdentifierPart_backslash] at hc
      cases hc
    have hl := ih (c :: read) (fun d hd => hp d (.tail _ hd)) h.2.2 (hn.step h.1 (v.lt_after i))
      (fun hx => absurd hx (List.cons_ne_nil c read)) before
    simp only [wordFrom, h.2.1, beq_iff_eq, hb, hc, if_false, if_true, CodePoint.toChar_toNat]
    rw [hl, List.reverse_cons, List.append_assoc, h.after_span]
    rfl
  | @escaped escaped c name mark written hm hw ih =>
    obtain ⟨n, rfl⟩ := Nat.exists_eq_succ_of_ne_zero hn.ne_zero
    rw [List.append_assoc] at h
    have hu : v.Shows (i + 1) (mark ++ (written ++ rest)) := h.next (by decide)
    obtain ⟨hx, ha⟩ := unicodeEscape_of_nameEscape hm hu
    have hm' : v.code (i + 1) = 0x75 := by cases hm <;> exact hu.2.1
    have hf : (if read.isEmpty then CodePoint.isIdentifierStart c.toNat else
        CodePoint.isIdentifierPart c.toNat) =
        true := by
      cases read with
      | nil => exact hs rfl c rfl
      | cons => exact hp c (.head _)
    have hspan : v.buffer.encoding.span mark = mark.length := v.buffer.encoding.span_of_ascii ha
    have hu' : v.Shows (i + 1 + mark.length) (written ++ rest) := hspan ▸ hu.append
    have hl := ih (c :: read) (fun d hd => hp d (.tail _ hd)) hu' (hn.step h.1 (by omega))
      (fun hx => absurd hx (List.cons_ne_nil c read)) true
    simp only [wordFrom, h.2.1, hm', hx, hf, CodePoint.toChar_toNat]
    show v.wordFrom strict n (i + 1 + mark.length) (c :: read) true = _
    rw [hl, List.reverse_cons, List.append_assoc, Bool.true_or, Bool.or_true, Encoding.span_append,
      Encoding.span_cons,
      hspan, v.buffer.encoding.width_of_lt (by decide), ← Nat.add_assoc, ← Nat.add_assoc]
    rfl

theorem wordFrom_step {read : List Char}
    (h : v.wordFrom strict (n + 1) i read escaped = (.ok (kind, value), j)) :
    (∃ code k escaped, CodePoint.isIdentifierPart code = true ∧
      (v.code i = 0x5C ∨ v.code i = code ∧ k = v.after i) ∧
      v.wordFrom strict n k (code.toChar :: read) escaped = (.ok (kind, value), j)) ∨
    (v.code i ≠ 0x5C ∧ (v.code i).isIdentifierPart = false) ∧
    value = .text (String.ofList read.reverse) ∧ j = i := by
  simp only [wordFrom] at h
  split at h
  · next hb =>
    split at h
    · cases h
    split at h
    · next decoded k _ =>
      generalize hf : (if read.isEmpty then decoded.isIdentifierStart else
        decoded.isIdentifierPart) = fits at h
      cases fits with
      | false => cases h
      | true =>
        refine .inl ⟨decoded, k, true, ?_, .inl (beq_iff_eq.1 hb), h⟩
        split at hf
        · exact CodePoint.isIdentifierPart_of_start hf
        · exact hf
    · cases h
  next hb =>
  split at h
  · next hp => exact .inl ⟨v.code i, v.after i, escaped, hp, .inr ⟨rfl, rfl⟩, h⟩
  · next hp =>
    generalize wordKind strict escaped (String.ofList read.reverse) = x at h
    cases x <;> cases h
    exact .inr ⟨⟨fun hx => hb (beq_iff_eq.2 hx), Bool.eq_false_iff.2 hp⟩, rfl, rfl⟩

theorem wordFrom_text {read : List Char}
    (h : v.wordFrom strict n i read escaped = (.ok (kind, value), j)) :
    ∃ more, value = .text (String.ofList (read.reverse ++ more)) := by
  induction n generalizing i read escaped with
  | zero => cases h
  | succ n ih =>
    obtain ⟨code, k, escaped, -, -, h⟩ | ⟨-, hv, -⟩ := wordFrom_step h
    · obtain ⟨more, hv⟩ := ih h
      rw [List.reverse_cons, List.append_assoc] at hv
      exact ⟨_, hv⟩
    · exact ⟨[], by rw [hv, List.append_nil]⟩

theorem plain_of_wordFrom (read : List Char) (h : v.Shows i (name ++ rest))
    (hw : v.wordFrom strict n i read escaped =
      (.ok (kind, .text (String.ofList (read.reverse ++ name))), i + v.buffer.encoding.span name)) :
    (∀ c ∈ name, CodePoint.isIdentifierPart c.toNat = true) ∧ NameEnds rest := by
  induction n generalizing i name read escaped with
  | zero => cases hw
  | succ n ih =>
    have text_inj {a b : List Char} (h : TokenValue.text (String.ofList a) =
        .text (String.ofList b)) : a = b :=
      String.ofList_inj.1 (TokenValue.text.inj h)
    obtain ⟨code, k, escaped, hp, hc, hx⟩ | ⟨hc, hv, -⟩ := wordFrom_step hw
    · obtain ⟨more, rfl⟩ : ∃ more, name = code.toChar :: more := by
        obtain ⟨more, hv⟩ := wordFrom_text hx
        replace hv := text_inj hv
        rw [List.reverse_cons, List.append_assoc, List.append_cancel_left_eq] at hv
        exact ⟨more, hv⟩
      have hi : v.code i = code.toChar.toNat := h.2.1
      -- A name has no backslash in it, where an escape would begin.
      obtain hc | ⟨hc, rfl⟩ := hc
      · exact absurd (Char.toNat_inj.1 (hi.symm.trans hc : _ = '\\'.toNat))
          (CodePoint.toChar_ne_backslash hp)
      · have hr := ih (code.toChar :: read) h.2.2 (by
          rw [hx, Shows.after_span h, List.reverse_cons, List.append_assoc]
          rfl)
        exact ⟨List.forall_mem_cons.2 ⟨hi ▸ hc ▸ hp, hr.1⟩, hr.2⟩
    · obtain rfl : name = [] := List.self_eq_append_right.1 (text_inj hv).symm
      refine ⟨nofun, fun c hr => ?_⟩
      rw [show v.code i = c.toNat by rw [Shows.code (show v.Shows i rest from h), hr]; rfl] at hc
      exact ⟨fun hx => hc.1 (by rw [hx]; rfl), hc.2⟩

theorem exists_start (h : v.Shows i (name ++ rest))
    (hp : ∀ c ∈ name, CodePoint.isIdentifierPart c.toNat = true) (hr : NameEnds rest)
    (hs : ((v.code i).isIdentifierStart || v.code i == 0x5C) = true) :
    ∃ c tail, name = c :: tail ∧ CodePoint.isIdentifierStart c.toNat = true := by
  rw [h.code, Bool.or_eq_true, beq_iff_eq] at hs
  cases name with
  | nil =>
    cases rest with
    | nil => exact absurd hs (by decide)
    | cons c rest =>
      obtain hs | hs := hs
      · cases (CodePoint.isIdentifierPart_of_start hs).symm.trans (hr c rfl).2
      · exact absurd (Char.toNat_inj.1 (show c.toNat = '\\'.toNat from hs)) (hr c rfl).1
  | cons c name =>
    refine ⟨c, name, rfl, hs.resolve_right fun hx => ?_⟩
    obtain rfl : c = '\\' := Char.toNat_inj.1 hx
    cases not_isIdentifierPart_backslash.symm.trans (hp _ (.head _))

theorem punctuator?_ne_identifier {c₀ c₁ c₂ c₃ : Char} {length : Nat} :
    punctuator? c₀ c₁ c₂ c₃ ≠ some (.identifier, length) := fun h => by
  unfold punctuator? at h
  split at h
  all_goals
    simp only [Option.some.injEq, doubled, assigning, reduceCtorEq] at h
    repeat' split at h
    all_goals cases h

theorem word_of_token (h : v.token strict p = (.ok (.identifier, value), q)) :
    ((v.code p.offset).isIdentifierStart || v.code p.offset == 0x5C) = true ∧
      v.word strict p.offset = (.ok (.identifier, value), q.offset) := by
  simp only [token] at h
  split at h
  · cases h
  split at h
  · next hs =>
    obtain ⟨hx, rfl⟩ := Prod.mk.injEq .. ▸ h
    exact ⟨hs, Prod.ext hx rfl⟩
  split at h
  · cases v.numeral_ok (congrArg Prod.fst h)
  split at h
  · cases v.stringFrom_ok (congrArg Prod.fst h)
  split at h
  · next hc =>
    cases h
    exact absurd hc punctuator?_ne_identifier
  · cases h

theorem token_of_word (strict : Bool) (hi : p.offset < v.limit)
    (hs : ((v.code p.offset).isIdentifierStart || v.code p.offset == 0x5C) = true) :
    v.trivia p = ⟨p, false, none⟩ ∧
      v.token strict p = ((v.word strict p.offset).1,
        { p with offset := (v.word strict p.offset).2 }) := by
  constructor
  · rw [Bool.or_eq_true, beq_iff_eq] at hs
    obtain hs | hs := hs
    · have hl := CodePoint.not_isLineTerminator_of_isIdentifierPart
        (CodePoint.isIdentifierPart_of_start hs)
      have hw := CodePoint.not_isWhitespace_of_isIdentifierStart hs
      refine trivia_of_code hi hl hw fun hx => ?_
      rw [hx] at hs
      cases hs
    · exact trivia_of_code hi (by rw [hs]; rfl) (by rw [hs]; rfl) (by rw [hs]; decide)
  · simp only [token, isEnd_eq_false hi, hs, Bool.false_eq_true, if_false, if_true]

end View

namespace Lexer

variable {s t : Source} {l m : Lexer} {strict escaped : Bool}
  {name written before before' rest : List Char}

/-- A text that is scanned as an identifier where it stands plainly: a name that no mode or not this
one reserves, and that does not go on. -/
structure IsName (strict : Bool) (name rest : List Char) : Prop where
  start : ∃ c tail, name = c :: tail ∧ CodePoint.isIdentifierStart c.toNat = true
  parts : ∀ c ∈ name, CodePoint.isIdentifierPart c.toNat = true
  ends : NameEnds rest
  kind : View.wordKind strict false (String.ofList name) = .ok .identifier

theorem Between.isName (hl : l.Between s before (name ++ rest))
    (hn : (l.next strict).1 =
      ⟨.identifier, .text (String.ofList name), ⟨l.standing.line, l.standing.lineStart,
      l.standing.offset, l.standing.offset + s.buffer.encoding.span name⟩⟩) : IsName
        strict name rest := by
  have hs := hl.shows
  obtain ⟨stop, hx, hstop⟩ : ∃ stop, l.view.token strict (l.view.trivia l.place).place =
      (.ok (.identifier, .text (String.ofList name)), stop) ∧
      stop.offset = l.standing.offset + l.view.buffer.encoding.span name ∧
      (l.view.trivia l.place).place.offset = l.standing.offset := by
    rw [show l.view.buffer = s.buffer from congrArg View.buffer hl.view]
    simp only [next] at hn
    split at hn
    · cases hn
    · generalize l.view.token strict (l.view.trivia l.place).place = x at hn ⊢
      obtain ⟨⟨fault⟩ | ⟨kind, value⟩, stop⟩ := x
      · obtain ⟨-, hv, -⟩ := Token.mk.injEq .. ▸ hn
        cases hv
      · simp only [Token.mk.injEq, Extent.mk.injEq] at hn
        obtain ⟨rfl, rfl, -, -, ho, hstop⟩ := hn
        exact ⟨stop, rfl, hstop, ho⟩
  obtain ⟨hstop, ho⟩ := hstop
  obtain ⟨hc, hw⟩ := View.word_of_token hx
  rw [ho] at hc hw
  rw [hstop] at hw
  obtain ⟨hp, hr⟩ := View.plain_of_wordFrom [] hs hw
  have start := View.exists_start hs hp hr hc
  refine ⟨start, hp, hr, ?_⟩
  have hk := View.wordFrom_of_spelling strict [] (nameSpelling_false_iff.2 rfl) hr hp hs
    (View.Enough.steps l.view l.standing.offset)
    (fun _ c hm => by
      obtain ⟨d, tail, rfl, hd⟩ := start
      cases hm
      exact hd) false
  rw [Bool.false_or, List.reverse_nil, List.nil_append] at hk
  replace hk := congrArg Prod.fst (hk.symm.trans hw)
  generalize View.wordKind strict false (String.ofList name) = x at hk ⊢
  cases x <;> cases hk
  rfl

theorem ofWord?_ne_identifier {word : String} :
    TokenKind.ofWord? word ≠ some .identifier := fun h => by
  unfold TokenKind.ofWord? at h
  split at h
  all_goals cases h

theorem strictReserved_of_plain {word : String} {kind : TokenKind}
    (h : View.wordKind strict false word = .ok .identifier)
    (hw : TokenKind.ofWord? word = some kind) :
    kind = .strictReserved := by
  simp only [View.wordKind, hw, Bool.false_eq_true, if_false] at h
  split at h
  · next hk => exact beq_iff_eq.1 (Bool.and_eq_true _ _ ▸ hk).1
  · cases h
    exact absurd hw ofWord?_ne_identifier

theorem wordKind_of_plain {word : String} (h : View.wordKind strict false word = .ok .identifier) :
    View.wordKind strict escaped word =
      if escaped = true ∧ TokenKind.ofWord? word = some .strictReserved then .error .escapedKeyword
      else .ok .identifier := by
  cases escaped with
  | false => simpa using h
  | true =>
    unfold View.wordKind
    cases hw : TokenKind.ofWord? word with
    | none => rfl
    | some kind =>
      obtain rfl := strictReserved_of_plain h hw
      rfl

/-- A name that is an identifier where it is written plainly is one however it is spelled, with the
same value and to its end; only a word that strict code reserves is none as soon as there is an
escape in it. -/
theorem next_spelled_name (hl : l.Between s before (name ++ rest))
    (hm : m.Between t before' (written ++ rest))
    (hn : (l.next strict).1 =
      ⟨.identifier, .text (String.ofList name), ⟨l.standing.line, l.standing.lineStart,
      l.standing.offset, l.standing.offset + s.buffer.encoding.span name⟩⟩)
    (hw : NameSpelling escaped name written) :
    let extent : Extent :=
  ⟨m.standing.line, m.standing.lineStart, m.standing.offset, (m.next strict).2.standing.offset⟩
    (m.next strict).2.Between t (before' ++ written) rest ∧
      if escaped = true ∧ TokenKind.ofWord? (String.ofList name) = some .strictReserved then
        (m.next strict).1 = ⟨.invalid, .none, extent⟩ ∧
        (m.next strict).2.fault = some .escapedKeyword
      else (m.next strict).1 = ⟨.identifier, .text (String.ofList name), extent⟩ ∧
      (m.next strict).2.fault = none := by
  obtain ⟨⟨c, tail, rfl, hc⟩, hp, hr, hk⟩ := hl.isName hn
  have hs := hm.shows
  have hf := View.wordFrom_of_spelling strict [] hw hr hp hs
    (View.Enough.steps m.view m.standing.offset)
    (fun _ d hd => by cases hd; exact hc) false
  rw [Bool.false_or, List.reverse_nil, List.nil_append, wordKind_of_plain hk] at hf
  obtain ⟨hi, hstart⟩ : m.place.offset < m.view.limit ∧
      ((m.view.code m.place.offset).isIdentifierStart || m.view.code m.place.offset == 0x5C) =
      true := by
    cases hw with
    | itself => exact ⟨hs.1, by rw [show m.view.code m.place.offset = c.toNat from hs.2.1, hc]; rfl⟩
    | escaped => exact ⟨hs.1, by rw [show m.view.code m.place.offset = 0x5C from hs.2.1]; rfl⟩
  obtain ⟨ht, hx⟩ := View.token_of_word strict hi hstart
  rw [View.word, show m.place.offset = m.standing.offset from rfl, hf] at hx
  split at hx
  · next he =>
    obtain ⟨htoken, hoffset, hfault⟩ := next_of_fault ht hx
    refine ⟨hm.pass (view_next ..) hoffset, ?_⟩
    rw [if_pos he, htoken, hoffset]
    exact ⟨rfl, hfault⟩
  · next he =>
    obtain ⟨htoken, hoffset, hfault⟩ := next_of_token ht hx
    refine ⟨hm.pass (view_next ..) hoffset, ?_⟩
    rw [if_neg he, htoken, hoffset]
    exact ⟨rfl, hfault⟩

/-- Both forms of an escape in one name, and a word that only strict code reserves. -/
theorem next_spelled_name_yield :
    ((ofText ['\\', 'u', '0', '0', '6', '1', 'b', '\\', 'u', '\x7b', '6', '3', '\x7d']).next
      true).1 =
      ⟨.identifier, .text (String.ofList ['a', 'b', 'c']), ⟨1, 0, 0, 13⟩⟩ ∧
    ((ofText ['y', 'i', '\\', 'u', '0', '0', '6', '5', 'l', 'd']).next false).1 =
    ⟨.invalid, .none, ⟨1, 0, 0, 10⟩⟩ := by
  have ended (text : List Char) :
      (ofText text).Between (.ofBuffer (.ofString (String.ofList text)) "" 1) []
      (text ++ []) := by
    rw [List.append_nil]
    exact between_ofText text
  constructor
  · have first : NameEscape 'a' ['u', '0', '0', '6', '1'] :=
      .plane rfl ⟨[0, 0, 6, 1], by decide, by decide⟩
    have last : NameEscape 'c' ('u' :: '\x7b' :: ['6', '3'] ++ ['\x7d']) :=
      .braced nofun ⟨[6, 3], by decide, by decide⟩
    have spelling : NameSpelling true ['a', 'b', 'c']
        ['\\', 'u', '0', '0', '6', '1', 'b', '\\', 'u', '\x7b', '6', '3', '\x7d'] :=
      .escaped first (.itself (.escaped last .empty))
    obtain ⟨hb, h⟩ := next_spelled_name (ended ['a', 'b', 'c']) (ended _)
      (show (next _ true).1 = _ by decide +kernel) spelling
    rw [if_neg (by decide +kernel), hb.offset] at h
    exact h.1
  · have middle : NameEscape 'e' ['u', '0', '0', '6', '5'] :=
      .plane rfl ⟨[0, 0, 6, 5], by decide, by decide⟩
    have spelling : NameSpelling true ['y', 'i', 'e', 'l', 'd'] ['y', 'i', '\\', 'u', '0', '0', '6',
        '5', 'l', 'd'] :=
      .itself (.itself (.escaped middle (.itself (.itself .empty))))
    obtain ⟨hb, h⟩ := next_spelled_name (ended ['y', 'i', 'e', 'l', 'd']) (ended _)
      (show (next _ false).1 = _ by decide +kernel) spelling
    rw [if_pos (by decide +kernel), hb.offset] at h
    exact h.1

end Lexer

end EcmaFront
