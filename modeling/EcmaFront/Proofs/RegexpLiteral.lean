import EcmaFront.Proofs.Passing
import EcmaFront.Proofs.ShownText
import Mathlib.Data.List.TakeWhile

/-!
The grammar of regular expression literals, and that a slash token is read on as one just when the
text goes on with a body and a closing slash. What is read is then the text of the literal; without
a closing slash all of the line is passed, and nothing of the next one.
-/

set_option autoImplicit false

namespace EcmaFront

namespace RegexpLiteral

/-- What may stand between the brackets of a class. -/
inductive Members : List Char → Prop where
  | empty : Members []
  | plain {c : Char} {members : List Char} (hc : c ∉ [']', '\\'])
    (ht : CodePoint.isLineTerminator c.toNat = false)
    (h : Members members) : Members (c :: members)
  | escaped {c : Char} {members : List Char} (ht : CodePoint.isLineTerminator c.toNat = false)
    (h : Members members) :
    Members ('\\' :: c :: members)

/-- What may stand before the closing slash. -/
inductive Body : List Char → Prop where
  | empty : Body []
  | plain {c : Char} {body : List Char} (hc : c ∉ ['/', '\\', '['])
    (ht : CodePoint.isLineTerminator c.toNat = false)
    (h : Body body) : Body (c :: body)
  | escaped {c : Char} {body : List Char} (ht : CodePoint.isLineTerminator c.toNat = false)
    (h : Body body) :
    Body ('\\' :: c :: body)
  | bracketed {members body : List Char} (hm : Members members) (h : Body body) :
    Body ('[' :: (members ++ ']' :: body))

/-- The rest of a body, from inside of a class or from outside. -/
def Rest : Bool → List Char → Prop
  | false, text => Body text
  | true, text => ∃ members body, Members members ∧ Body body ∧ text = members ++ ']' :: body

def within (inClass : Bool) (c : Char) : Bool :=
  if c = '[' then true else if c = ']' then false else inClass

variable {c d : Char} {inClass : Bool} {body rest text : List Char}

theorem Rest.head (h : Rest inClass (c :: body)) : CodePoint.isLineTerminator c.toNat = false ∧
    (c = '/' → inClass = true) ∧
    (c = '\\' → ∃ d more, body = d :: more ∧ CodePoint.isLineTerminator d.toNat = false) := by
  cases inClass with
  | false =>
    cases h with
    | plain hc ht => exact ⟨ht, by rintro rfl; simp at hc, by rintro rfl; simp at hc⟩
    | escaped ht => exact ⟨by decide, by decide, fun _ => ⟨_, _, rfl, ht⟩⟩
    | bracketed => exact ⟨by decide, by decide, fun hx => absurd hx (by decide)⟩
  | true =>
    obtain ⟨members, body, hm, -, hx⟩ := h
    cases hm with
    | empty =>
      cases hx
      exact ⟨by decide, by decide, fun hx => absurd hx (by decide)⟩
    | plain hc ht =>
      cases hx
      exact ⟨ht, fun _ => rfl, by rintro rfl; simp at hc⟩
    | escaped ht =>
      cases hx
      exact ⟨by decide, by decide, fun _ => ⟨_, _, rfl, ht⟩⟩

theorem rest_escape (ht : CodePoint.isLineTerminator c.toNat = false) :
    Rest inClass ('\\' :: c :: body) ↔ Rest inClass body := by
  cases inClass with
  | false =>
    refine ⟨fun h => ?_, fun h => .escaped ht h⟩
    generalize hx : '\\' :: c :: body = text at h
    cases h with
    | empty => cases hx
    | plain hc =>
      cases hx
      simp at hc
    | escaped _ h =>
      cases hx
      exact h
    | bracketed => exact absurd (List.cons.inj hx).1 (by decide)
  | true =>
    constructor
    · rintro ⟨members, body, hm, hb, hx⟩
      cases hm with
      | empty => cases hx
      | plain hc =>
        obtain ⟨rfl, -⟩ := List.cons.inj hx
        simp at hc
      | escaped _ hm =>
        cases hx
        exact ⟨_, _, hm, hb, rfl⟩
    · rintro ⟨members, body, hm, hb, rfl⟩
      exact ⟨_, _, .escaped ht hm, hb, rfl⟩

theorem rest_cons (hb : c ≠ '\\') (hs : c = '/' → inClass = true)
    (ht : CodePoint.isLineTerminator c.toNat = false) :
    Rest inClass (c :: body) ↔ Rest (within inClass c) body := by
  cases inClass with
  | false =>
    have hs : c ≠ '/' := fun hc => Bool.noConfusion (hs hc)
    by_cases ho : c = '['
    · subst ho
      constructor
      · intro h
        cases h with
        | plain hc => simp at hc
        | bracketed hm h => exact ⟨_, _, hm, h, rfl⟩
      · rintro ⟨members, body, hm, h, rfl⟩
        exact .bracketed hm h
    · rw [within, if_neg ho, ite_self]
      refine ⟨fun h => ?_, fun h => .plain (by simp [hb, hs, ho]) ht h⟩
      cases h with
      | plain _ _ h => exact h
      | escaped => exact absurd rfl hb
      | bracketed => exact absurd rfl ho
  | true =>
    by_cases hc : c = ']'
    · subst hc
      refine ⟨?_, fun h => ⟨[], body, .empty, h, rfl⟩⟩
      rintro ⟨members, body, hm, h, hx⟩
      cases hm with
      | empty =>
        cases hx
        exact h
      | plain hc =>
        cases hx
        simp at hc
      | escaped => cases hx
    · rw [within, if_neg hc, ite_self]
      constructor
      · rintro ⟨members, body, hm, h, hx⟩
        cases hm with
        | empty =>
          cases hx
          exact absurd rfl hc
        | plain _ _ hm =>
          cases hx
          exact ⟨_, _, hm, h, rfl⟩
        | escaped =>
          cases hx
          exact absurd rfl hb
      · rintro ⟨members, body, hm, h, rfl⟩
        exact ⟨_, _, .plain (by simp [hb, hc]) ht hm, h, rfl⟩

/-- A text goes on with the rest of a body and its closing slash. -/
structure Closes (inClass : Bool) (text body rest : List Char) : Prop where
  part : Rest inClass body
  text_eq : text = body ++ '/' :: rest

theorem closes_escape (ht : CodePoint.isLineTerminator d.toNat = false) :
    Closes inClass ('\\' :: d :: text) body rest ↔
      ∃ more, body = '\\' :: d :: more ∧ Closes inClass text more rest := by
  constructor
  · rintro ⟨hb, hx⟩
    match body, hb, hx with
    | c :: [], hb, hx =>
      cases hx
      obtain ⟨_, _, hx, -⟩ := hb.head.2.2 rfl
      cases hx
    | c :: d :: more, hb, hx =>
      cases hx
      exact ⟨more, rfl, (rest_escape ht).1 hb, rfl⟩
  · rintro ⟨more, rfl, hb, rfl⟩
    exact ⟨(rest_escape ht).2 hb, rfl⟩

theorem closes_cons (hb : c ≠ '\\') (hs : c = '/' → inClass = true)
    (ht : CodePoint.isLineTerminator c.toNat = false) :
    Closes inClass (c :: text) body rest ↔ ∃ more, body = c :: more ∧
    Closes (within inClass c) text more rest := by
  constructor
  · rintro ⟨hr, hx⟩
    cases body with
    | nil =>
      cases hx
      rw [hs rfl] at hr
      obtain ⟨members, body, -, -, hx⟩ := hr
      cases members <;> cases hx
    | cons c more =>
      cases hx
      exact ⟨more, rfl, (rest_cons hb hs ht).1 hr, rfl⟩
  · rintro ⟨more, rfl, hr, rfl⟩
    exact ⟨(rest_cons hb hs ht).2 hr, rfl⟩

def onLine (c : Char) : Bool := !CodePoint.isLineTerminator c.toNat

def isPart (c : Char) : Bool := CodePoint.isIdentifierPart c.toNat

theorem takeWhile_onLine_eq_nil (ht : ∀ c ∈ text.head?, onLine c = false) :
    text.takeWhile onLine = [] := by
  cases text with
  | nil => rfl
  | cons c text => exact List.takeWhile_cons_of_neg (Bool.eq_false_iff.1 (ht c rfl))

theorem exists_onLine (ht : ¬∀ c ∈ text.head?, onLine c = false) :
    ∃ c more, text = c :: more ∧ onLine c = true := by
  cases text with
  | nil => exact absurd nofun ht
  | cons c text => exact ⟨c, text, rfl, by simpa using ht⟩

theorem not_closes_of_line (ht : ∀ c ∈ text.head?, onLine c = false) :
    ¬Closes inClass text body rest := by
  rintro ⟨hr, rfl⟩
  cases body with
  | nil => exact absurd (ht '/' rfl) (by decide)
  | cons c body =>
    have hc := ht c rfl
    rw [onLine, hr.head.1] at hc
    cases hc

theorem not_closes_of_backslash (ht : ∀ c ∈ text.head?, onLine c = false) :
    ¬Closes inClass ('\\' :: text) body rest := by
  rintro ⟨hr, hx⟩
  cases body with
  | nil => cases hx
  | cons c body =>
    cases hx
    obtain ⟨d, more, rfl, hd⟩ := hr.head.2.2 rfl
    have hc := ht d rfl
    rw [onLine, hd] at hc
    cases hc

end RegexpLiteral

namespace View

open RegexpLiteral

variable {v : View} {i n : Nat} {c : Char} {text : List Char}

theorem beq_toNat (c d : Char) : (c.toNat == d.toNat) = decide (c = d) := by
  rw [Bool.eq_iff_iff, beq_iff_eq, decide_eq_true_eq, Char.toNat_inj]

theorem lineEnds_iff (h : v.Shows i text) :
    (v.isEnd i || (v.code i).isLineTerminator) = true ↔ ∀ c ∈ text.head?, onLine c = false := by
  cases text with
  | nil => exact iff_of_true (Bool.or_eq_true_iff.2 (.inl (decide_eq_true h))) nofun
  | cons c text =>
    rw [h.isEnd, h.2.1]
    simp [onLine]

theorem regexpBody_cons (h : v.Shows i (c :: text)) (hc : onLine c = true) (inClass : Bool)
    (read : List Char) :
    v.regexpBody (n + 1) i inClass read =
      if c = '/' ∧ inClass = false then (some read.reverse, i + 1)
      else if c = '\\' then
        if v.isEnd (i + 1) || (v.code (i + 1)).isLineTerminator then (none, i + 1)
        else v.regexpBody n (v.after (i + 1)) inClass ((v.code (i + 1)).toChar :: c :: read)
      else v.regexpBody n (v.after i) (within inClass c) (c :: read) := by
  have hstop : (v.isEnd i || CodePoint.isLineTerminator c.toNat) = false := by
    rw [h.isEnd, Bool.false_or]
    simpa [onLine] using hc
  have slash : (c.toNat == 0x2F) = decide (c = '/') := beq_toNat c '/'
  have backslash : (c.toNat == 0x5C) = decide (c = '\\') := beq_toNat c '\\'
  have opening : (c.toNat == 0x5B) = decide (c = '[') := beq_toNat c '['
  have closing : (c.toNat == 0x5D) = decide (c = ']') := beq_toNat c ']'
  simp only [regexpBody, h.2.1, hstop, slash, backslash, opening, closing,
    Bool.false_eq_true, if_false,
    Bool.and_eq_true, decide_eq_true_eq, Bool.not_eq_true', CodePoint.toChar_toNat, within]

theorem regexpBody_of_shows (h : v.Shows i text) (hn : v.Enough n i) (inClass : Bool)
    (read : List Char) :
    (∃ body rest, Closes inClass text body rest ∧ v.regexpBody n i inClass read =
      (some (read.reverse ++ body), i + v.buffer.encoding.span (body ++ ['/']))) ∨
    (∀ body rest, ¬Closes inClass text body rest) ∧
      v.regexpBody n i inClass read =
      (none, i + v.buffer.encoding.span (text.takeWhile onLine)) := by
  -- Two characters are read where there is a backslash, so the induction is on the steps and not on
  -- the text.
  induction n generalizing i text inClass read with
  | zero => exact absurd rfl hn.ne_zero
  | succ n ih =>
    by_cases hx : ∀ c ∈ text.head?, onLine c = false
    · refine .inr ⟨fun _ _ => not_closes_of_line hx, ?_⟩
      simp only [regexpBody, (lineEnds_iff h).2 hx, if_true]
      rw [takeWhile_onLine_eq_nil hx]
      rfl
    obtain ⟨c, text, rfl, hc⟩ := exists_onLine hx
    rw [regexpBody_cons h hc, List.takeWhile_cons_of_pos hc]
    split
    · next hs =>
      obtain ⟨rfl, rfl⟩ := hs
      refine .inl ⟨[], text, ⟨.empty, rfl⟩, ?_⟩
      rw [List.append_nil, List.nil_append,
        Encoding.span_of_ascii _ (List.forall_mem_singleton.2 (by decide))]
      rfl
    next hs =>
    have hs : c = '/' → inClass = true :=
      fun hc => Bool.eq_true_of_not_eq_false fun hx => hs ⟨hc, hx⟩
    split
    · next hb =>
      subst hb
      have ht : v.Shows (i + 1) text := h.next (by decide)
      have hspan (more : List Char) :
          i + 1 + v.buffer.encoding.span more = i + v.buffer.encoding.span ('\\' :: more) := by
        rw [← h.after_span more, after, Buffer.width, h.2.1,
          v.buffer.encoding.width_of_lt (by decide)]
      split
      · next hx =>
        have hx := (lineEnds_iff ht).1 hx
        refine .inr ⟨fun _ _ => not_closes_of_backslash hx, ?_⟩
        rw [← hspan, takeWhile_onLine_eq_nil hx]
        rfl
      · next hx =>
        obtain ⟨d, text, rfl, hd⟩ := exists_onLine (mt (lineEnds_iff ht).2 hx)
        have htd : CodePoint.isLineTerminator d.toNat = false := by simpa [onLine] using hd
        rw [ht.2.1, CodePoint.toChar_toNat, List.takeWhile_cons_of_pos hd]
        have hj : i < v.after (i + 1) := Nat.lt_trans (Nat.lt_succ_self i) (v.lt_after _)
        obtain ⟨body, rest, hm, hr⟩ | ⟨hm, hr⟩ :=
          ih ht.2.2 (hn.step h.1 hj) inClass (d :: '\\' :: read)
        · refine .inl ⟨'\\' :: d :: body, rest, (closes_escape htd).2 ⟨body, rfl, hm⟩, ?_⟩
          rw [hr, ht.after_span, hspan]
          simp
        · refine .inr ⟨fun body rest hx => ?_, ?_⟩
          · obtain ⟨more, -, hx⟩ := (closes_escape htd).1 hx
            exact hm _ _ hx
          · rw [hr, ht.after_span, hspan]
    · next hb =>
      have ht : CodePoint.isLineTerminator c.toNat = false := by simpa [onLine] using hc
      obtain ⟨body, rest, hm, hr⟩ | ⟨hm, hr⟩ :=
        ih h.2.2 (hn.step h.1 (v.lt_after i)) (within inClass c) (c :: read)
      · refine .inl ⟨c :: body, rest, (closes_cons hb hs ht).2 ⟨body, rfl, hm⟩, ?_⟩
        rw [hr, h.after_span]
        simp
      · refine .inr ⟨fun body rest hx => ?_, ?_⟩
        · obtain ⟨more, -, hx⟩ := (closes_cons hb hs ht).1 hx
          exact hm _ _ hx
        · rw [hr, h.after_span]

theorem nameCharsFrom_of_shows (h : v.Shows i text) (hn : v.Enough n i) (read : List Char) :
    v.nameCharsFrom n i read =
      (read.reverse ++ text.takeWhile isPart,
        i + v.buffer.encoding.span (text.takeWhile isPart)) := by
  induction text generalizing i n read with
  | nil =>
    obtain ⟨n, rfl⟩ := Nat.exists_eq_succ_of_ne_zero hn.ne_zero
    have hc : (v.code i).isIdentifierPart = false := by rw [h.code]; decide
    simp only [nameCharsFrom, hc, Bool.false_eq_true, if_false, List.takeWhile_nil, List.append_nil]
    rfl
  | cons c text ih =>
    obtain ⟨n, rfl⟩ := Nat.exists_eq_succ_of_ne_zero hn.ne_zero
    rw [nameCharsFrom, h.2.1, CodePoint.toChar_toNat, List.takeWhile_cons, isPart]
    split
    · rw [ih h.2.2 (hn.step h.1 (v.lt_after i)), h.after_span, List.reverse_cons, List.append_assoc]
      rfl
    · rw [List.append_nil]
      rfl

theorem regexp_of_shows (h : v.Shows i text) (start : List Char) :
    (∃ body rest, Closes false text body rest ∧ v.regexp (String.ofList start) i =
      (.ok (.regexp, .regexp (String.ofList (start ++ body))
        (String.ofList (rest.takeWhile isPart))),
        i + v.buffer.encoding.span (body ++ '/' :: rest.takeWhile isPart))) ∨
    (∀ body rest, ¬Closes false text body rest) ∧ v.regexp (String.ofList start) i =
      (.error .unterminatedRegexp, i + v.buffer.encoding.span (text.takeWhile onLine)) := by
  rw [regexp, String.toList_ofList]
  obtain ⟨body, rest, ⟨hb, rfl⟩, hr⟩ | ⟨hn, hr⟩ :=
    regexpBody_of_shows h (.steps v i) false start.reverse
  · refine .inl ⟨body, rest, ⟨hb, rfl⟩, ?_⟩
    have hf := nameCharsFrom_of_shows (Shows.append (List.append_cons .. ▸ h)) (.steps v _) []
    simp only [hr, hf, List.reverse_reverse, List.reverse_nil, List.nil_append]
    rw [Nat.add_assoc, ← Encoding.span_append, ← List.append_cons]
  · refine .inr ⟨hn, ?_⟩
    rw [hr]

end View

namespace Lexer

open RegexpLiteral

variable {s : Source} {l : Lexer} {slash before text : List Char}

theorem regexp_of_ok {start : String} {kind : TokenKind} {value : TokenValue} {j : Nat}
    (token : Token) (hx : l.view.regexp start l.standing.offset = (.ok (kind, value), j)) :
    (l.regexp token start).1 =
      ⟨kind, value, { token.extent with stop := (l.regexp token start).2.standing.offset }⟩ ∧
      (l.regexp token start).2.standing.offset = j ∧ (l.regexp token start).2.view = l.view := by
  rw [regexp, hx]
  exact ⟨rfl, rfl, rfl⟩

theorem regexp_of_fault {start : String} {fault : LexFault} {j : Nat} (token : Token)
    (hx : l.view.regexp start l.standing.offset = (.error fault, j)) :
    (l.regexp token start).1 =
      ⟨fault.kind, .none, { token.extent with stop := (l.regexp token start).2.standing.offset }⟩ ∧
      (l.regexp token start).2.standing.offset = j ∧ (l.regexp token start).2.view = l.view := by
  rw [regexp, hx]
  exact ⟨rfl, rfl, rfl⟩

/-- A slash token is read on as a regular expression literal just when a body and a closing slash
follow it. What is read is then the text of the literal, with all flags that stand there. Otherwise
the rest of the line is passed. -/
theorem regexp_literal (hs : slash ∈ [['/'], ['/', '=']]) (hl : l.Between s (before ++ slash) text)
    (token : Token) :
    let read := l.regexp token (String.ofList slash.tail)
    let extent : Extent := { token.extent with stop := read.2.standing.offset }
    (read.1.kind = .regexp ↔ ∃ body rest, Body body ∧ text = body ++ '/' :: rest) ∧
    (read.1.kind = .regexp → ∃ body flags after, Body body ∧
      text = body ++ '/' :: (flags ++ after) ∧
      (∀ c ∈ flags, CodePoint.isIdentifierPart c.toNat = true) ∧
      (∀ c ∈ after.head?, CodePoint.isIdentifierPart c.toNat = false) ∧
      read.1 = ⟨.regexp, .regexp (String.ofList (slash.tail ++ body)) (String.ofList flags),
        extent⟩ ∧
      read.2.Between s (before ++ ('/' :: (slash.tail ++ body) ++ '/' :: flags)) after) ∧
    (read.1.kind ≠ .regexp → read.1 = ⟨.unterminated, .none, extent⟩ ∧
      ∃ passed after, text = passed ++ after ∧
      (∀ c ∈ passed, CodePoint.isLineTerminator c.toNat = false) ∧
        (∀ c ∈ after.head?, CodePoint.isLineTerminator c.toNat = true) ∧
        read.2.Between s (before ++ slash ++ passed) after) := by
  intro read extent
  have hslash : slash = '/' :: slash.tail := by
    simp only [List.mem_cons, List.not_mem_nil, or_false] at hs
    obtain rfl | rfl := hs <;> rfl
  obtain ⟨body, rest, ⟨hb, rfl⟩, hr⟩ | ⟨hn, hr⟩ := View.regexp_of_shows hl.shows slash.tail
  · obtain ⟨htoken, hoffset, hview⟩ := regexp_of_ok token hr
    have hk := congrArg Token.kind htoken
    have hm : read.2.Between s (before ++ slash ++ (body ++ '/' :: rest.takeWhile isPart))
        (rest.dropWhile isPart) := by
      refine Between.pass ?_ hview hoffset
      rwa [List.append_assoc, List.cons_append, List.takeWhile_append_dropWhile]
    refine ⟨iff_of_true hk ⟨body, rest, hb, rfl⟩, fun _ => ?_, fun hn => absurd hk hn⟩
    refine ⟨body, rest.takeWhile isPart, rest.dropWhile isPart,
      hb, by rw [List.takeWhile_append_dropWhile],
      fun c hc => (List.mem_takeWhile_imp hc : isPart c = true), fun c hc => ?_, htoken, ?_⟩
    · have hd := List.head?_dropWhile_not isPart rest
      rw [hc] at hd
      exact hd
    · rw [hslash] at hm
      simpa using hm
  · obtain ⟨htoken, hoffset, hview⟩ := regexp_of_fault token hr
    have hk := congrArg Token.kind htoken
    have hne : read.1.kind ≠ .regexp := by
      rw [hk]
      nofun
    refine ⟨iff_of_false hne fun ⟨body, rest, hb, hx⟩ => hn body rest ⟨hb, hx⟩,
      fun hx => absurd hx hne, fun _ => ?_⟩
    refine ⟨htoken, text.takeWhile onLine, text.dropWhile onLine,
      List.takeWhile_append_dropWhile.symm, fun c hc => ?_,
      fun c hc => ?_, Between.pass ?_ hview hoffset⟩
    · simpa [onLine] using List.mem_takeWhile_imp hc
    · have hd := List.head?_dropWhile_not onLine text
      rw [hc] at hd
      simpa [onLine] using hd
    · rwa [List.takeWhile_append_dropWhile]

/-- A slash in a class and one behind a backslash are of the body. -/
theorem regexp_literal_slashes :
    (((ofText ['/', '=', '[', '/', ']', '\\', '/', '/', 'g']).next false).2.regexp
      ((ofText ['/', '=', '[', '/', ']', '\\', '/', '/', 'g']).next false).1
        (String.ofList ['='])).1.kind =
        .regexp := by
  have start : (ofText ['/', '=', '[', '/', ']', '\\', '/', '/', 'g']).Between
      (.ofBuffer (.ofString (String.ofList ['/', '=', '[', '/', ']', '\\', '/', '/', 'g'])) "" 1) []
      (['/', '='] ++ ['[', '/', ']', '\\', '/', '/', 'g']) := between_ofText _
  have hl := start.pass (view_next _ false) (by decide +kernel)
  have body : Body ('[' :: (['/'] ++ ']' :: ['\\', '/'])) :=
    .bracketed (.plain (by decide) (by decide) .empty) (.escaped (by decide) .empty)
  exact (regexp_literal (show ['/', '='] ∈ _ by decide) hl _).1.2 ⟨_, ['g'], body, rfl⟩

end Lexer

end EcmaFront
