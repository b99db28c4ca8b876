import EcmaFront.Proofs.Passing
import EcmaFront.Proofs.ShownText
import Mathlib.Data.List.TakeWhile

/-!
The grammar of numeric literals, and that the longest literal that stands there is the one that is
read, or none is when a name, a digit or a backslash touches it.
-/

set_option autoImplicit false

namespace EcmaFront

/-! The longest text of a language that another text begins with. -/

/-- A text begins with a text of the language, and with none that is longer. -/
structure Longest (language : List Char → Prop) (text found rest : List Char) : Prop where
  text_eq : text = found ++ rest
  mem : language found
  longest : ∀ m, m <+: text → language m → m.length ≤ found.length

/-- Characters of a class, and a text of the language behind them. -/
def Behind (p : Char → Bool) (language : List Char → Prop) (text : List Char) : Prop :=
  ∃ run tail, text = run ++ tail ∧ (∀ c ∈ run, p c = true) ∧ language tail

section Longest

variable {p : Char → Bool} {language wider : List Char → Prop}
  {text found rest run tail : List Char}

theorem prefix_takeWhile (h : run <+: text) (hr : ∀ c ∈ run, p c = true) :
    run <+: text.takeWhile p := by
  obtain ⟨more, rfl⟩ := h
  rw [List.takeWhile_append_of_pos hr]
  exact List.prefix_append ..

theorem eq_takeWhile {c : Char} (h : run ++ c :: tail <+: text) (hr : ∀ c ∈ run, p c = true)
    (hc : p c = false) :
    run = text.takeWhile p ∧ c :: tail <+: text.dropWhile p := by
  obtain ⟨more, rfl⟩ := h
  rw [List.append_assoc, List.takeWhile_append_of_pos hr, List.dropWhile_append_of_pos hr,
    List.cons_append, List.takeWhile_cons_of_neg (Bool.eq_false_iff.1 hc),
    List.dropWhile_cons_of_neg (Bool.eq_false_iff.1 hc), List.append_nil]
  exact ⟨rfl, List.prefix_append (c :: tail) more⟩

theorem Longest.behind (h : Longest language (text.dropWhile p) found rest)
    (hp : ∀ tail, language tail → ∀ c ∈ tail.head?, p c = false) :
    Longest (Behind p language) text (text.takeWhile p ++ found) rest where
  text_eq := by rw [List.append_assoc, ← h.text_eq, List.takeWhile_append_dropWhile]
  mem := ⟨_, _, rfl, fun _ hc => List.mem_takeWhile_imp hc, h.mem⟩
  longest := by
    rintro _ hm ⟨run, tail, rfl, hr, ht⟩
    rw [List.length_append, List.length_append]
    cases tail with
    | nil =>
      rw [List.append_nil] at hm
      exact Nat.le_trans (prefix_takeWhile hm hr).length_le (Nat.le_add_right ..)
    | cons c tail =>
      obtain ⟨hrun, htail⟩ := eq_takeWhile hm hr (hp _ ht c rfl)
      exact Nat.add_le_add (Nat.le_of_eq (congrArg List.length hrun)) (h.longest _ htail ht)

theorem Longest.unique {found' rest' : List Char} (h : Longest language text found rest)
    (h' : Longest language text found' rest') : found = found' ∧ rest = rest' := by
  have hp : found <+: text := ⟨rest, h.text_eq.symm⟩
  have hp' : found' <+: text := ⟨rest', h'.text_eq.symm⟩
  have hl := Nat.le_antisymm (h'.longest found hp h.mem) (h.longest found' hp' h'.mem)
  exact List.append_inj (h.text_eq.symm.trans h'.text_eq) hl

theorem Longest.widen (h : Longest language text found rest) (hf : wider found)
    (hw : ∀ m, m <+: text → wider m → language m) : Longest wider text found rest :=
  ⟨h.text_eq, hf, fun m hm hl => h.longest m hm (hw m hm hl)⟩

end Longest

/-! The grammar. -/

namespace NumericLiteral

def Digits (radix : Nat) (text : List Char) : Prop := ∀ d ∈ text, ∃ n, Digit radix d n

inductive Exponent : List Char → Prop where
  | absent : Exponent []
  | present {letter : Char} {sign digits : List Char} (hl : letter ∈ ['e', 'E'])
    (hs : sign ∈ [[], ['+'], ['-']])
    (hn : digits ≠ []) (hd : Digits 10 digits) : Exponent (letter :: (sign ++ digits))

/-- What may follow the integer digits of a decimal literal. -/
inductive Tail : List Char → Prop where
  | whole {exponent : List Char} (he : Exponent exponent) : Tail exponent
  | fraction {digits exponent : List Char} (hd : Digits 10 digits) (he : Exponent exponent) :
    Tail ('.' :: (digits ++ exponent))

def radices : List (Char × Nat) := [('x', 16), ('X', 16), ('o', 8), ('O', 8), ('b', 2), ('B', 2)]

end NumericLiteral

open NumericLiteral in
/-- The numeric literals of strict or of sloppy code. -/
inductive NumericLiteral (strict : Bool) : List Char → Prop where
  | decimal {digits tail : List Char} (hn : digits ≠ []) (hd : Digits 10 digits)
    (hz : digits.head? = some '0' → digits = ['0']) (ht : Tail tail) : NumericLiteral strict
    (digits ++ tail)
  | point {digits exponent : List Char} (hn : digits ≠ []) (hd : Digits 10 digits)
    (he : Exponent exponent) :
    NumericLiteral strict ('.' :: (digits ++ exponent))
  | radix {letter : Char} {radix : Nat} {digits : List Char} (hm : (letter, radix) ∈ radices)
    (hn : digits ≠ [])
    (hd : Digits radix digits) : NumericLiteral strict ('0' :: letter :: digits)
  | octal {digits : List Char} (hs : strict = false) (hn : digits ≠ []) (hd : Digits 8 digits) :
    NumericLiteral strict ('0' :: digits)
  | leadingZero {digits tail : List Char} (hs : strict = false) (hd : Digits 10 digits)
    (h : '8' ∈ digits ∨ '9' ∈ digits) (ht : Tail tail) : NumericLiteral strict
    ('0' :: (digits ++ tail))

namespace NumericLiteral

/-- What no numeric literal may be followed by begins here. -/
def Touched (rest : List Char) : Prop :=
  ∃ c ∈ rest.head?, CodePoint.isIdentifierStart c.toNat = true ∨ (∃ n, Digit 10 c n) ∨ c = '\\'

def isDigit (radix : Nat) (d : Char) : Bool := (CodePoint.digit? radix d.toNat).isSome

variable {radix n : Nat} {strict : Bool} {c letter : Char}
  {text found rest digits sign m : List Char}

theorem isDigit_iff (hr : radix ≤ 16) : isDigit radix c = true ↔ ∃ n, Digit radix c n := by
  rw [isDigit, Option.isSome_iff_exists]
  exact exists_congr fun n => digit?_iff hr

theorem isDigit_zero : isDigit 10 '0' = true := by decide

theorem digits_iff (hr : radix ≤ 16) : Digits radix text ↔ ∀ d ∈ text, isDigit radix d = true :=
  forall₂_congr fun _ _ => (isDigit_iff hr).symm

theorem digit_octal (h : Digit 10 c n) (h8 : c ≠ '8') (h9 : c ≠ '9') : Digit 8 c n := by
  obtain ⟨hn, h⟩ := h
  refine ⟨?_, h⟩
  by_contra hx
  obtain rfl | rfl : n = 8 ∨ n = 9 := by omega
  · exact h8 (h.elim id id)
  · exact h9 (h.elim id id)

theorem digits_takeWhile (hr : radix ≤ 16) : Digits radix (text.takeWhile (isDigit radix)) :=
  (digits_iff hr).2 fun _ hd => List.mem_takeWhile_imp hd

theorem Digits.mono {radix' : Nat} (h : Digits radix text) (hr : radix ≤ radix') :
    Digits radix' text := fun d hd =>
  (h d hd).imp fun _ hn => ⟨Nat.lt_of_lt_of_le hn.1 hr, hn.2⟩

theorem radix_le (h : (letter, radix) ∈ radices) : radix ≤ 16 := by
  have hr : ∀ named ∈ radices, named.2 ≤ 16 := by decide
  exact hr _ h

theorem radix_ascii (h : (letter, radix) ∈ radices) : letter.toNat < 0x80 := by
  have hr : ∀ named ∈ radices, named.1.toNat < 0x80 := by decide
  exact hr _ h

theorem radix_letter (h : (letter, radix) ∈ radices) :
    CodePoint.isIdentifierStart letter.toNat = true ∧ isDigit 10 letter = false ∧
    letter ∉ ['.', 'e', 'E'] := by
  have hr : ∀ named ∈ radices, CodePoint.isIdentifierStart named.1.toNat = true ∧
      isDigit 10 named.1 = false ∧
      named.1 ∉ ['.', 'e', 'E'] := by decide
  exact hr _ h

theorem radix_unique {radix' : Nat} (h : (letter, radix) ∈ radices)
    (h' : (letter, radix') ∈ radices) :
    radix = radix' := by
  have hr : ∀ named ∈ radices, ∀ named' ∈ radices, named.1 = named'.1 →
      named.2 = named'.2 := by decide
  exact hr _ h _ h' rfl

/-! What the parts begin with. -/

theorem Exponent.head (h : Exponent text) : ∀ c ∈ text.head?, c ∈ ['e', 'E'] := by
  cases h with
  | absent => exact nofun
  | present hl => rintro _ ⟨⟩; exact hl

theorem Tail.head (h : Tail text) : ∀ c ∈ text.head?, c ∈ ['.', 'e', 'E'] := by
  cases h with
  | whole he => exact fun c hc => .tail _ (he.head c hc)
  | fraction => rintro _ ⟨⟩; exact .head _

theorem exponent_letter (h : c ∈ ['e', 'E']) :
    c.toNat < 0x80 ∧ CodePoint.isIdentifierStart c.toNat = true := by
  obtain rfl | rfl := List.mem_pair.1 h
  all_goals decide

theorem not_isDigit_of_mem (h : c ∈ ['.', 'e', 'E']) : isDigit 10 c = false := by
  obtain rfl | h := List.mem_cons.1 h
  · rfl
  · obtain rfl | rfl := List.mem_pair.1 h
    all_goals rfl

/-! The longest exponent and the longest tail. -/

theorem longest_exponent_nil (h : ∀ c ∈ text.head?, c ∉ ['e', 'E']) :
    Longest Exponent text [] text where
  text_eq := rfl
  mem := .absent
  longest := by
    rintro m ⟨more, rfl⟩ hm
    cases m with
    | nil => exact Nat.le_refl 0
    | cons c m => exact absurd (hm.head c rfl) (h c rfl)

theorem not_isDigit_sign (h : c ∈ ['+', '-']) : isDigit 10 c = false := by
  obtain rfl | rfl := List.mem_pair.1 h
  all_goals rfl

theorem sign_unique {sign' more : List Char} (hs : sign ∈ [[], ['+'], ['-']])
    (hs' : sign' ∈ [[], ['+'], ['-']]) (hu : sign = [] → ∀ c ∈ text.head?, c ∉ ['+', '-'])
    (hm : ∃ c ∈ more.head?, c ∉ ['+', '-']) (h : sign' ++ more <+: sign ++ text) :
    sign' = sign ∧ more <+: text := by
  obtain ⟨c, hc, hm⟩ := hm
  cases more with
  | nil => cases hc
  | cons d more =>
    cases hc
    cases text
    all_goals
      simp only [List.mem_cons, List.not_mem_nil, or_false, not_or] at hs hs' hm
      obtain rfl | rfl | rfl := hs
      all_goals obtain rfl | rfl | rfl := hs'
      all_goals simp_all [eq_comm]

theorem exponent_bounded (hs : sign ∈ [[], ['+'], ['-']])
    (hu : sign = [] → ∀ c ∈ text.head?, c ∉ ['+', '-']) (hm : m <+: letter :: (sign ++ text))
    (he : Exponent m) :
    m = [] ∨ ∃ digits, digits ≠ [] ∧ m = letter :: (sign ++ digits) ∧
    digits <+: text.takeWhile (isDigit 10) := by
  cases he with
  | absent => exact .inl rfl
  | @present letter sign' digits hl hs' hn hd =>
    have hd := (digits_iff (by decide)).1 hd
    have hsign : ∃ c ∈ digits.head?, c ∉ ['+', '-'] := by
      obtain ⟨d, digits, rfl⟩ := List.exists_cons_of_ne_nil hn
      exact ⟨d, rfl, fun hx => by cases (not_isDigit_sign hx).symm.trans (hd d (.head _))⟩
    obtain ⟨rfl, hp⟩ := List.cons_prefix_cons.1 hm
    obtain ⟨rfl, hds⟩ := sign_unique hs hs' hu hsign hp
    exact .inr ⟨digits, hn, rfl, prefix_takeWhile hds hd⟩

theorem longest_exponent_of_none (hs : sign ∈ [[], ['+'], ['-']])
    (hu : sign = [] → ∀ c ∈ text.head?, c ∉ ['+', '-']) (hd : text.takeWhile (isDigit 10) = []) :
    Longest Exponent (letter :: (sign ++ text)) [] (letter :: (sign ++ text)) where
  text_eq := rfl
  mem := .absent
  longest := fun m hm he => by
    obtain rfl | ⟨digits, hn, -, hp⟩ := exponent_bounded hs hu hm he
    · exact Nat.le_refl 0
    · rw [hd] at hp
      exact absurd (List.prefix_nil.1 hp) hn

theorem longest_exponent_of_digits (hl : letter ∈ ['e', 'E']) (hs : sign ∈ [[], ['+'], ['-']])
    (hu : sign = [] → ∀ c ∈ text.head?, c ∉ ['+', '-']) (hd : text.takeWhile (isDigit 10) ≠ []) :
    Longest Exponent (letter :: (sign ++ text)) (letter :: (sign ++ text.takeWhile (isDigit 10)))
      (text.dropWhile (isDigit 10)) where
  text_eq := by rw [List.cons_append, List.append_assoc, List.takeWhile_append_dropWhile]
  mem := .present hl hs hd (digits_takeWhile (by decide))
  longest := fun m hm he => by
    obtain rfl | ⟨digits, -, rfl, hp⟩ := exponent_bounded hs hu hm he
    · exact Nat.zero_le _
    · simp only [List.length_cons, List.length_append, Nat.add_le_add_iff_left,
        Nat.add_le_add_iff_right, hp.length_le]

theorem longest_tail_of_whole (hp : ∀ c ∈ text.head?, c ≠ '.')
    (h : Longest Exponent text found rest) :
    Longest Tail text found rest :=
  h.widen (.whole h.mem) fun m hm ht => by
    cases ht with
    | whole he => exact he
    | fraction =>
      obtain ⟨more, rfl⟩ := hm
      exact absurd rfl (hp '.' rfl)

theorem longest_tail_of_point (h : Longest Exponent (text.dropWhile (isDigit 10)) found rest) :
    Longest Tail ('.' :: text) ('.' :: (text.takeWhile (isDigit 10) ++ found)) rest where
  text_eq := by
    rw [List.cons_append, List.append_assoc, ← h.text_eq, List.takeWhile_append_dropWhile]
  mem := .fraction (digits_takeWhile (by decide)) h.mem
  longest := fun m hm ht => by
    have hb := h.behind fun tail he c hc => not_isDigit_of_mem (.tail _ (he.head c hc))
    cases ht with
    | @whole m he =>
      cases m with
      | nil => exact Nat.zero_le _
      | cons c m =>
        obtain ⟨rfl, -⟩ := List.cons_prefix_cons.1 hm
        exact absurd (he.head _ rfl) (by decide)
    | fraction hd he =>
      have hd := (digits_iff (by decide)).1 hd
      exact Nat.succ_le_succ (hb.longest _ (List.cons_prefix_cons.1 hm).2 ⟨_, _, rfl, hd, he⟩)

/-! The longest literal. -/

theorem behind_or_radix (h : NumericLiteral strict text) : Behind (isDigit 10) Tail text ∨
    ∃ letter radix digits, (letter, radix) ∈ radices ∧ digits ≠ [] ∧ Digits radix digits ∧
      text = '0' :: letter :: digits := by
  cases h with
  | decimal _ hd _ ht => exact .inl ⟨_, _, rfl, (digits_iff (by decide)).1 hd, ht⟩
  | point _ hd he => exact .inl ⟨[], _, rfl, nofun, .fraction hd he⟩
  | radix hm hn hd => exact .inr ⟨_, _, _, hm, hn, hd, rfl⟩
  | octal _ _ hd =>
    have hd := (digits_iff (by decide)).1 (hd.mono (show 8 ≤ 10 by decide))
    exact .inl ⟨_, [], (List.append_nil _).symm,
      List.forall_mem_cons.2 ⟨isDigit_zero, hd⟩, .whole .absent⟩
  | leadingZero _ hd _ ht =>
    exact .inl ⟨'0' :: _, _, rfl,
      List.forall_mem_cons.2 ⟨isDigit_zero, (digits_iff (by decide)).1 hd⟩, ht⟩

theorem radix_bounded (hr : (letter, radix) ∈ radices) (hm : m <+: '0' :: letter :: text)
    (h : NumericLiteral strict m) :
    m.length ≤ 1 ∨ ∃ digits, digits ≠ [] ∧ m = '0' :: letter :: digits ∧
    digits <+: text.takeWhile (isDigit radix) := by
  obtain ⟨-, hd, hl⟩ := radix_letter hr
  obtain ⟨run, tail, rfl, hrun, ht⟩ | ⟨letter', radix', digits, hr', hn, hd', rfl⟩ :=
    behind_or_radix h
  -- Decimal digits end at the letter, and no tail begins with it.
  · have hz : ('0' :: letter :: text).takeWhile (isDigit 10) = ['0'] := by
      rw [List.takeWhile_cons_of_pos (by decide),
        List.takeWhile_cons_of_neg (Bool.eq_false_iff.1 hd)]
    cases tail with
    | nil =>
      rw [List.append_nil] at hm ⊢
      exact .inl (hz ▸ prefix_takeWhile hm hrun).length_le
    | cons c tail =>
      have hc := ht.head c rfl
      obtain ⟨rfl, -⟩ := hz ▸ eq_takeWhile hm hrun (not_isDigit_of_mem hc)
      obtain ⟨rfl, -⟩ := List.cons_prefix_cons.1 (List.cons_prefix_cons.1 hm).2
      exact absurd hc hl
  · obtain ⟨rfl, hp⟩ := List.cons_prefix_cons.1 (List.cons_prefix_cons.1 hm).2
    obtain rfl := radix_unique hr hr'
    exact .inr ⟨digits, hn, rfl, prefix_takeWhile hp ((digits_iff (radix_le hr)).1 hd')⟩

theorem zero : NumericLiteral strict ['0'] :=
  .decimal (List.cons_ne_nil '0' []) (List.forall_mem_singleton.2 ⟨0, by decide⟩) (fun _ => rfl)
    (.whole .absent)

theorem longest_zero_of_radix (hr : (letter, radix) ∈ radices)
    (hd : text.takeWhile (isDigit radix) = []) :
    Longest (NumericLiteral strict) ('0' :: letter :: text) ['0'] (letter :: text) where
  text_eq := rfl
  mem := zero
  longest := fun m hm h => by
    obtain hl | ⟨digits, hn, -, hp⟩ := radix_bounded hr hm h
    · exact hl
    · rw [hd] at hp
      exact absurd (List.prefix_nil.1 hp) hn

theorem longest_radix (hr : (letter, radix) ∈ radices) (hd : text.takeWhile (isDigit radix) ≠ []) :
    Longest (NumericLiteral strict) ('0' :: letter :: text)
      ('0' :: letter :: text.takeWhile (isDigit radix))
      (text.dropWhile (isDigit radix)) where
  text_eq := by rw [List.cons_append, List.cons_append, List.takeWhile_append_dropWhile]
  mem := .radix hr hd (digits_takeWhile (radix_le hr))
  longest := fun m hm h => by
    obtain hl | ⟨digits, -, rfl, hp⟩ := radix_bounded hr hm h
    · exact Nat.le_trans hl (Nat.succ_le_succ (Nat.zero_le _))
    · exact Nat.succ_le_succ (Nat.succ_le_succ hp.length_le)

theorem longest_behind
    (hr : ∀ letter radix more, (letter, radix) ∈ radices → text ≠ '0' :: letter :: more)
    (h : Longest Tail (text.dropWhile (isDigit 10)) found rest)
    (hl : NumericLiteral strict (text.takeWhile (isDigit 10) ++ found)) :
    Longest (NumericLiteral strict) text (text.takeWhile (isDigit 10) ++ found) rest :=
  (h.behind fun _ ht c hc => not_isDigit_of_mem (ht.head c hc)).widen hl fun m hm hl => by
    obtain hb | ⟨letter, radix, digits, hm', -, -, rfl⟩ := behind_or_radix hl
    · exact hb
    · obtain ⟨more, rfl⟩ := hm
      exact absurd rfl (hr letter radix _ hm')

/-- Where a zero has a digit behind it, a literal of strict code ends behind the zero, and one of
sloppy code behind the digits if they are all octal. -/
theorem zero_bounded (hz : text.takeWhile (isDigit 10) = '0' :: c :: digits)
    (ho : strict = true ∨ ('8' ∉ c :: digits ∧ '9' ∉ c :: digits)) (hm : m <+: text)
    (h : NumericLiteral strict m) :
    m.length ≤ 1 ∨ strict = false ∧ m <+: text.takeWhile (isDigit 10) := by
  obtain ⟨more, rfl⟩ : ∃ more, text = '0' :: c :: more := by
    rw [← List.takeWhile_append_dropWhile (p := isDigit 10) (l := text), hz]
    exact ⟨_, rfl⟩
  have hc : isDigit 10 c = true :=
    List.mem_takeWhile_imp (l := '0' :: c :: more) (hz ▸ .tail _ (.head _))
  cases h with
  | @decimal ds tail hn hd hz' ht =>
    have hd := (digits_iff (by decide)).1 hd
    obtain ⟨d, ds, rfl⟩ := List.exists_cons_of_ne_nil hn
    obtain ⟨rfl, -⟩ := List.cons_prefix_cons.1 hm
    rw [hz' rfl] at hm hd ⊢
    -- A tail would begin where the digit behind the zero stands.
    cases tail with
    | nil => exact .inl (Nat.le_refl 1)
    | cons t tail =>
      have hx := (eq_takeWhile hm hd (not_isDigit_of_mem (ht.head t rfl))).1
      rw [hz] at hx
      cases hx
  | point =>
    obtain ⟨hx, -⟩ := List.cons_prefix_cons.1 hm
    exact absurd hx (by decide)
  | radix hr =>
    obtain ⟨rfl, -⟩ := List.cons_prefix_cons.1 (List.cons_prefix_cons.1 hm).2
    cases hc.symm.trans (radix_letter hr).2.1
  | octal hs _ hd =>
    have hd := (digits_iff (by decide)).1 (hd.mono (show 8 ≤ 10 by decide))
    exact .inr ⟨hs, prefix_takeWhile hm (List.forall_mem_cons.2 ⟨isDigit_zero, hd⟩)⟩
  | @leadingZero ds tail hs hd hx =>
    have hd : ∀ d ∈ '0' :: ds, isDigit 10 d = true :=
      List.forall_mem_cons.2 ⟨isDigit_zero, (digits_iff (by decide)).1 hd⟩
    have hp := prefix_takeWhile ((List.prefix_append ('0' :: ds) tail).trans hm) hd
    rw [hz] at hp
    have hsub := (List.cons_prefix_cons.1 hp).2.subset
    obtain hs' | ⟨h8, h9⟩ := ho
    · cases hs.symm.trans hs'
    · exact (hx.elim (fun h => h8 (hsub h)) fun h => h9 (hsub h)).elim

theorem longest_zero (hz : text.takeWhile (isDigit 10) = '0' :: c :: digits) :
    Longest (NumericLiteral true) text ['0'] text.tail where
  text_eq := by
    rw [← List.takeWhile_append_dropWhile (p := isDigit 10) (l := text), hz]
    rfl
  mem := zero
  longest := fun m hm h => (zero_bounded hz (.inl rfl) hm h).resolve_right fun hx =>
    Bool.noConfusion hx.1

theorem longest_octal (hz : text.takeWhile (isDigit 10) = '0' :: c :: digits)
    (h8 : '8' ∉ c :: digits) (h9 : '9' ∉ c :: digits) :
    Longest (NumericLiteral false) text (text.takeWhile (isDigit 10))
      (text.dropWhile (isDigit 10)) where
  text_eq := List.takeWhile_append_dropWhile.symm
  mem := by
    rw [hz]
    refine .octal rfl nofun fun d hd => ?_
    have hr : Digits 10 ('0' :: c :: digits) := hz ▸ digits_takeWhile (by decide)
    exact (hr d (.tail _ hd)).imp fun n hn => digit_octal hn (fun hx => h8 (hx ▸ hd))
      fun hx => h9 (hx ▸ hd)
  longest := fun m hm h => by
    obtain hl | ⟨-, hp⟩ := zero_bounded hz (.inr ⟨h8, h9⟩) hm h
    · rw [hz]
      exact Nat.le_trans hl (Nat.succ_le_succ (Nat.zero_le _))
    · exact hp.length_le

/-- The texts that numeric literals are looked for at. -/
def Starts (text : List Char) : Prop :=
  ∃ d n more, Digit 10 d n ∧ (text = d :: more ∨ text = '.' :: d :: more)

theorem point_of_longest {d : Char} (hd : Digit 10 d n)
    (h : Longest Tail ('.' :: d :: text) found rest) :
    NumericLiteral strict found := by
  have hb : isDigit 10 d = true := (isDigit_iff (by decide)).2 ⟨n, hd⟩
  -- The point and the digit are a tail, so what is found is no shorter.
  have hl : 2 ≤ found.length :=
    h.longest ['.', d] ⟨text, rfl⟩ (.fraction (List.forall_mem_singleton.2 ⟨n, hd⟩) .absent)
  have he {exponent} (he : Exponent exponent) (hx : exponent <+: d :: text) : exponent = [] := by
    cases exponent with
    | nil => rfl
    | cons c exponent =>
      obtain ⟨rfl, -⟩ := List.cons_prefix_cons.1 hx
      cases hb.symm.trans (not_isDigit_of_mem (.tail _ (he.head c rfl)))
  have hp : found <+: '.' :: d :: text := ⟨rest, h.text_eq.symm⟩
  cases h.mem with
  | @whole exponent hx =>
    cases found with
    | nil => cases hl
    | cons c found =>
      obtain ⟨rfl, -⟩ := List.cons_prefix_cons.1 hp
      exact absurd (hx.head '.' rfl) (by decide)
  | @fraction digits exponent hds hx =>
    refine .point ?_ hds hx
    rintro rfl
    obtain rfl := he hx (List.cons_prefix_cons.1 hp).2
    exact absurd hl (by decide)

theorem decimal_of_longest (hs : Starts text)
    (hz : text.head? = some '0' → (text.takeWhile (isDigit 10)).length ≤ 1)
    (h : Longest Tail (text.dropWhile (isDigit 10)) found rest) :
    NumericLiteral strict (text.takeWhile (isDigit 10) ++ found) := by
  obtain ⟨d, n, more, hd, rfl | rfl⟩ := hs
  · have hb : isDigit 10 d = true := (isDigit_iff (by decide)).2 ⟨n, hd⟩
    refine .decimal (fun hx => ?_) (digits_takeWhile (by decide)) (fun hx => ?_) h.mem
    · rw [List.takeWhile_cons_of_pos hb] at hx
      cases hx
    · rw [List.takeWhile_cons_of_pos hb] at hx hz ⊢
      obtain rfl := Option.some.inj hx
      rw [List.eq_nil_of_length_eq_zero (Nat.le_zero.1 (Nat.le_of_succ_le_succ (hz rfl)))]
  · exact point_of_longest hd h

theorem all_octal_iff {ns : List Nat} (h : List.Forall₂ (Digit 10) digits ns) :
    ns.all (· < 8) = true ↔ '8' ∉ digits ∧ '9' ∉ digits := by
  induction h with
  | nil => exact ⟨fun _ => ⟨nofun, nofun⟩, fun _ => rfl⟩
  | @cons d n digits ns hd _ ih =>
    have hn : n < 8 ↔ '8' ≠ d ∧ '9' ≠ d := by
      refine ⟨fun hn => ?_, fun hx => (digit_octal hd hx.1.symm hx.2.symm).1⟩
      obtain ⟨-, hd⟩ := hd
      interval_cases n
      all_goals obtain rfl | rfl := hd
      all_goals decide
    rw [List.all_cons, Bool.and_eq_true, decide_eq_true_eq, hn, ih, List.mem_cons,
      List.mem_cons, not_or, not_or]
    exact and_and_and_comm

/-! Literals are in ASCII. -/

theorem Digits.ascii (hr : radix ≤ 16) (h : Digits radix text) :
    ∀ c ∈ text, c.toNat < 0x80 := fun c hc => by
  obtain ⟨n, hd⟩ := h c hc
  exact hd.lt hr

theorem Exponent.ascii (h : Exponent text) : ∀ c ∈ text, c.toNat < 0x80 := by
  cases h with
  | absent => exact nofun
  | @present letter sign digits hl hs _ hd =>
    have hsign : ∀ c ∈ sign, c.toNat < 0x80 := by
      simp only [List.mem_cons, List.not_mem_nil, or_false] at hs
      obtain rfl | rfl | rfl := hs
      · exact nofun
      all_goals exact List.forall_mem_singleton.2 (by decide)
    exact List.forall_mem_cons.2 ⟨(exponent_letter hl).1,
      List.forall_mem_append.2 ⟨hsign, hd.ascii (by decide)⟩⟩

theorem Tail.ascii (h : Tail text) : ∀ c ∈ text, c.toNat < 0x80 := by
  cases h with
  | whole he => exact he.ascii
  | fraction hd he =>
    exact List.forall_mem_cons.2
      ⟨by decide, List.forall_mem_append.2 ⟨hd.ascii (by decide), he.ascii⟩⟩

theorem ascii (h : NumericLiteral strict text) : ∀ c ∈ text, c.toNat < 0x80 := by
  obtain ⟨run, tail, rfl, hr, ht⟩ | ⟨letter, radix, digits, hm, -, hd, rfl⟩ := behind_or_radix h
  · have hr := (digits_iff (by decide)).2 hr
    exact List.forall_mem_append.2 ⟨hr.ascii (by decide), ht.ascii⟩
  · exact List.forall_mem_cons.2
      ⟨by decide, List.forall_mem_cons.2 ⟨radix_ascii hm, hd.ascii (radix_le hm)⟩⟩

end NumericLiteral

namespace View

open NumericLiteral

variable {v : View} {radix i n : Nat} {strict : Bool} {text : List Char}
  {language : List Char → Prop}

theorem digitsFrom_of_shows (hr : radix ≤ 16) (h : v.Shows i text) (hn : v.Enough n i)
    (read : List Nat) :
    ∃ ns, v.digitsFrom radix n i read =
    (ns.reverse ++ read, i + (text.takeWhile (isDigit radix)).length) ∧
      List.Forall₂ (Digit radix) (text.takeWhile (isDigit radix)) ns ∧
      v.Shows (i + (text.takeWhile (isDigit radix)).length) (text.dropWhile (isDigit radix)) := by
  induction text generalizing i n read with
  | nil =>
    obtain ⟨n, rfl⟩ := Nat.exists_eq_succ_of_ne_zero hn.ne_zero
    refine ⟨[], ?_, .nil, h⟩
    rw [digitsFrom, Shows.code h]
    rfl
  | cons c text ih =>
    obtain ⟨n, rfl⟩ := Nat.exists_eq_succ_of_ne_zero hn.ne_zero
    rw [digitsFrom, Shows.code h, List.takeWhile_cons, List.dropWhile_cons, isDigit]
    simp only [List.head?_cons, Option.map_some, Option.getD_some]
    cases hd : CodePoint.digit? radix c.toNat with
    | none => exact ⟨[], rfl, .nil, h⟩
    | some d =>
      have hd := (digit?_iff hr).1 hd
      obtain ⟨ns, hx, hf, hs⟩ :=
        ih (h.next (hd.lt hr)) (hn.step h.1 (Nat.lt_succ_self i)) (d :: read)
      refine ⟨d :: ns, ?_, .cons hd hf, ?_⟩
      · simp only [hx, List.reverse_cons, List.append_assoc, List.cons_append, List.nil_append,
          Option.isSome_some, if_true, List.length_cons, Nat.add_assoc, Nat.add_comm 1]
      · simpa only [Option.isSome_some, if_true, List.length_cons, Nat.add_assoc,
          Nat.add_comm 1] using hs

theorem digits_of_shows (hr : radix ≤ 16) (h : v.Shows i text) :
    ∃ ns, v.digits radix i = (ns, i + (text.takeWhile (isDigit radix)).length) ∧
      List.Forall₂ (Digit radix) (text.takeWhile (isDigit radix)) ns ∧
      v.Shows (i + (text.takeWhile (isDigit radix)).length) (text.dropWhile (isDigit radix)) := by
  obtain ⟨ns, hx, hf, hs⟩ := digitsFrom_of_shows hr h (.steps v i) []
  refine ⟨ns, ?_, hf, hs⟩
  rw [digits, hx, List.append_nil]
  simp only [List.reverse_reverse]

/-- What is read from an offset on is the longest text of a language; what has no value is
touched. -/
def Reads (language : List Char → Prop) (text : List Char) (i : Nat)
    (read : Option Binary64 × Nat) : Prop :=
  ∃ found rest, Longest language text found rest ∧ (read.1 = none → Touched rest) ∧
    (read.1 ≠ none → read.2 = i + found.length)

theorem Shows.eq_cons (h : v.Shows i text) (c : Char) (hc : v.code i = c.toNat) (h0 : 0 < c.toNat) :
    ∃ more, text = c :: more := by
  rw [h.code] at hc
  cases text with
  | nil => exact absurd hc h0.ne
  | cons d text => exact ⟨text, congrArg (· :: text) (Char.toNat_inj.1 hc)⟩

theorem isLetter_iff (lower upper : Char) (hu : upper.toNat + 0x20 = lower.toNat)
    (h0 : 0 < upper.toNat) (h : v.Shows i text) :
    v.isLetter i lower.toNat = true ↔ ∃ c ∈ text.head?, c ∈ [lower, upper] := by
  rw [isLetter, Bool.or_eq_true, beq_iff_eq, beq_iff_eq, Shows.code h]
  cases text with
  | nil =>
    simp only [List.head?_nil, Option.map_none, Option.getD_none, Option.mem_def, reduceCtorEq,
      false_and, exists_false, iff_false]
    show ¬(0 = lower.toNat ∨ 0x20 = lower.toNat)
    omega
  | cons c text =>
    simp only [List.head?_cons, Option.map_some, Option.getD_some, Option.mem_def,
      Option.some.injEq, exists_eq_left', List.mem_cons, List.not_mem_nil, or_false]
    rw [← hu, Nat.add_right_cancel_iff, hu, Char.toNat_inj, Char.toNat_inj]

theorem sign_of_shows (h : v.Shows i text) :
    ∃ sign more, text = sign ++ more ∧ sign ∈ [[], ['+'], ['-']] ∧
    (sign = [] → ∀ c ∈ more.head?, c ∉ ['+', '-']) ∧
    (if v.code i == 0x2D || v.code i == 0x2B then i + 1 else i) = i + sign.length ∧
    v.Shows (i + sign.length) more := by
  by_cases hs : ∃ c ∈ text.head?, c ∈ ['+', '-']
  · obtain ⟨c, hc, hs⟩ := hs
    cases text with
    | nil => cases hc
    | cons d text =>
      cases hc
      have hd : (v.code i == 0x2D || v.code i == 0x2B) = true ∧ c.toNat < 0x80 ∧
          [c] ∈ [[], ['+'], ['-']] := by
        rw [Shows.code h]
        simp only [List.mem_cons, List.not_mem_nil, or_false] at hs
        obtain rfl | rfl := hs
        all_goals exact ⟨rfl, by decide, by decide⟩
      exact ⟨[c], text, rfl, hd.2.2, nofun, if_pos hd.1, h.next hd.2.1⟩
  · refine ⟨[], text, rfl, .head _, fun _ c hc hx => hs ⟨c, hc, hx⟩, if_neg fun hx => ?_, h⟩
    rw [Shows.code h] at hx
    cases text with
    | nil => cases hx
    | cons c text =>
      simp only [List.head?_cons, Option.map_some, Option.getD_some, Bool.or_eq_true,
        beq_iff_eq] at hx
      have hx : c = '-' ∨ c = '+' := hx.imp Char.toNat_inj.1 Char.toNat_inj.1
      exact hs ⟨c, rfl, by simpa [or_comm] using hx⟩

/-- The exponent of a decimal literal, and the value that it gives. -/
def exponentTail (v : View) (value : Int → Binary64) (i : Nat) : Option Binary64 × Nat :=
  if !v.isLetter i 0x65 then (some (value 0), i)
  else
    let negative := v.code (i + 1) == 0x2D
    match v.digits 10 (if negative || v.code (i + 1) == 0x2B then i + 2 else i + 1) with
    | ([], i) => (none, i)
    | (exponent, i) =>
      let exponent := Int.ofNat (exponent.foldl (fun acc d => acc * 10 + d) 0)
      (some (value (if negative then -exponent else exponent)), i)

theorem decimalTail_eq (whole : List Nat) : v.decimalTail whole i =
    let point := if v.code i == 0x2E then v.digits 10 (i + 1) else ([], i)
    v.exponentTail (fun exponent => .ofDecimal (whole ++ point.1) (exponent - point.1.length))
      point.2 := rfl

theorem exponentTail_reads (value : Int → Binary64) (h : v.Shows i text) :
    Reads Exponent text i (v.exponentTail value i) := by
  have he : v.isLetter i 0x65 = true ↔ ∃ c ∈ text.head?, c ∈ ['e', 'E'] :=
    isLetter_iff 'e' 'E' rfl (by decide) h
  by_cases hl : ∃ c ∈ text.head?, c ∈ ['e', 'E']
  · have hc := he.2 hl
    obtain ⟨letter, hx, hl⟩ := hl
    obtain ⟨text, rfl⟩ : ∃ more, text = letter :: more := by
      cases text with
      | nil => cases hx
      | cons c text =>
        cases hx
        exact ⟨text, rfl⟩
    obtain ⟨hascii, hstart⟩ := exponent_letter hl
    obtain ⟨sign, more, rfl, hs, hu, hi, hm⟩ := sign_of_shows (h.next hascii)
    obtain ⟨ns, hd, hf, -⟩ := digits_of_shows (show 10 ≤ 16 by decide) hm
    rw [exponentTail, hc]
    simp only [Bool.not_true, Bool.false_eq_true, if_false]
    rw [show (if (v.code (i + 1) == 0x2D || v.code (i + 1) == 0x2B) = true then i + 2 else i + 1) =
      _ from hi, hd]
    cases ns with
    | nil =>
      have hd := List.forall₂_nil_right_iff.1 hf
      exact ⟨_, _, longest_exponent_of_none hs hu hd, fun _ => ⟨letter, rfl, .inl hstart⟩,
        fun hx => absurd rfl hx⟩
    | cons n ns =>
      refine ⟨_, _, longest_exponent_of_digits hl hs hu fun hx => ?_, nofun, fun _ => ?_⟩
      · rw [hx] at hf
        cases hf
      · simp only [List.length_cons, List.length_append]
        omega
  · refine ⟨[], text, longest_exponent_nil fun c hc hx => hl ⟨c, hc, hx⟩, ?_⟩
    rw [exponentTail, Bool.eq_false_iff.2 (mt he.1 hl)]
    exact ⟨nofun, fun _ => rfl⟩

theorem decimalTail_reads (whole : List Nat) (h : v.Shows i text) :
    Reads Tail text i (v.decimalTail whole i) := by
  rw [decimalTail_eq]
  by_cases hp : v.code i = 0x2E
  · obtain ⟨text, rfl⟩ := h.eq_cons '.' hp (by decide)
    obtain ⟨ns, hd, -, hm⟩ := digits_of_shows (show 10 ≤ 16 by decide) (h.next (by decide))
    rw [if_pos (beq_iff_eq.2 hp), hd]
    obtain ⟨found, rest, hl, ht, hs⟩ := exponentTail_reads _ hm
    refine ⟨_, _, longest_tail_of_point hl, ht, fun hx => (hs hx).trans ?_⟩
    simp only [List.length_cons, List.length_append]
    omega
  · rw [if_neg (mt beq_iff_eq.1 hp)]
    obtain ⟨found, rest, hl, ht, hs⟩ := exponentTail_reads _ h
    refine ⟨_, _, longest_tail_of_whole ?_ hl, ht, hs⟩
    rintro c hc rfl
    rw [Shows.code h, hc] at hp
    exact hp rfl

theorem radixLiteral_reads {letter : Char} (hr : (letter, radix) ∈ radices)
    (h : v.Shows i ('0' :: letter :: text)) :
    Reads (NumericLiteral strict) ('0' :: letter :: text) i (v.radixLiteral radix i) := by
  obtain ⟨hstart, -, -⟩ := radix_letter hr
  obtain ⟨ns, hd, hf, -⟩ :=
    digits_of_shows (radix_le hr) ((h.next (by decide)).next (radix_ascii hr))
  rw [radixLiteral, hd]
  cases ns with
  | nil =>
    have hd := List.forall₂_nil_right_iff.1 hf
    exact ⟨_, _, longest_zero_of_radix hr hd, fun _ => ⟨letter, rfl, .inl hstart⟩,
      fun hx => absurd rfl hx⟩
  | cons n ns =>
    refine ⟨_, _, longest_radix hr fun hx => ?_,
      fun hx => absurd hx (Option.some_ne_none _), fun _ => ?_⟩
    · rw [hx] at hf
      cases hf
    · simp only [List.length_cons]
      omega

/-- A numeric literal is read to the end of the longest one that stands there, or refused because it
is touched. -/
def Ends (strict : Bool) (text : List Char) (i : Nat) (scan : Scan) : Prop :=
  ∃ found rest, Longest (NumericLiteral strict) text found rest ∧
    (Touched rest → ∃ fault, scan.1 = .error fault ∧ fault.kind = .invalid) ∧
    (¬Touched rest → ∃ value, scan = (.ok (.number, .number value), i + found.length))

theorem touched_iff {rest : List Char} (h : v.Shows i rest) : Touched rest ↔
    ((v.code i).isIdentifierStart || v.code i == 0x5C || (v.code i).isDecimalDigit) = true := by
  rw [Touched, h.code]
  cases rest with
  | nil => simpa using (by decide)
  | cons c rest =>
    simp only [List.head?_cons, Option.map_some, Option.getD_some, Option.mem_def,
      Option.some.injEq, exists_eq_left', Bool.or_eq_true, beq_iff_eq, isDecimalDigit_iff, or_assoc]
    rw [show c.toNat = 0x5C ↔ c = '\\' from ⟨fun hc => Char.toNat_inj.1 hc, fun hc => hc ▸ rfl⟩]
    tauto

theorem endNumeral_ends {read : Option Binary64 × Nat} (h : v.Shows i text)
    (hr : Reads (NumericLiteral strict) text i read) : Ends strict text i (v.endNumeral read) := by
  obtain ⟨found, rest, hl, ht, hs⟩ := hr
  refine ⟨found, rest, hl, ?_⟩
  obtain ⟨_ | value, stop⟩ := read
  · exact ⟨fun _ => ⟨_, rfl, rfl⟩, fun hx => absurd (ht rfl) hx⟩
  · obtain rfl := hs nofun
    rw [hl.text_eq] at h
    have hrest := h.append
    rw [Encoding.span_of_ascii _ hl.mem.ascii] at hrest
    rw [touched_iff hrest, endNumeral]
    refine ⟨fun hx => ?_, fun hx => ?_⟩
    · rw [if_pos hx]
      exact ⟨_, rfl, rfl⟩
    · rw [if_neg hx]
      exact ⟨_, rfl⟩

theorem numeral_of_radix {letter : Char} (hr : (letter, radix) ∈ radices)
    (h : v.Shows i ('0' :: letter :: text)) :
    v.numeral strict i = v.endNumeral (v.radixLiteral radix i) := by
  have hz := h.code
  have hl := (h.next (by decide)).code
  simp only [radices, List.mem_cons, List.not_mem_nil, or_false, Prod.mk.injEq] at hr
  obtain ⟨rfl, rfl⟩ | ⟨rfl, rfl⟩ | ⟨rfl, rfl⟩ | ⟨rfl, rfl⟩ | ⟨rfl, rfl⟩ | ⟨rfl, rfl⟩ := hr
  all_goals
    rw [numeral]
    simp only [isLetter, hz, hl]
    rfl

theorem not_radix
    (hr : ¬∃ letter radix more, (letter, radix) ∈ radices ∧ text = '0' :: letter :: more)
    (h : v.Shows i text) (radix : Nat) (lower upper : Char) (hl : (lower, radix) ∈ radices)
    (hu : (upper, radix) ∈ radices) (hc : upper.toNat + 0x20 = lower.toNat) (h0 : 0 < upper.toNat) :
    (v.code i == 0x30 && v.isLetter (i + 1) lower.toNat) = false := by
  rw [Bool.and_eq_false_iff, or_iff_not_imp_left, Bool.not_eq_false, beq_iff_eq]
  intro hz
  obtain ⟨text, rfl⟩ := h.eq_cons '0' hz (by decide)
  rw [Bool.eq_false_iff, Ne, isLetter_iff lower upper hc h0 (h.next (by decide))]
  rintro ⟨c, hm, hcs⟩
  cases text with
  | nil => cases hm
  | cons d more =>
    cases hm
    rw [List.mem_pair] at hcs
    obtain rfl | rfl := hcs
    · exact hr ⟨_, _, _, hl, rfl⟩
    · exact hr ⟨_, _, _, hu, rfl⟩

theorem behind_reads (hr : ¬∃ letter radix more, (letter, radix) ∈ radices ∧
    text = '0' :: letter :: more)
    {j : Nat} (hj : j = i + (text.takeWhile (isDigit 10)).length) {read : Option Binary64 × Nat}
    (h : Reads Tail (text.dropWhile (isDigit 10)) j read)
    (hl : ∀ found rest, Longest Tail (text.dropWhile (isDigit 10)) found rest →
      NumericLiteral strict (text.takeWhile (isDigit 10) ++ found)) : Reads (NumericLiteral strict)
        text i read := by
  obtain ⟨found, rest, hm, ht, hs⟩ := h
  refine ⟨_, rest, longest_behind (fun letter radix more hm hx => hr ⟨letter, radix, more, hm, hx⟩)
    hm (hl _ _ hm), ht, fun hx => ?_⟩
  rw [hs hx, hj, List.length_append, Nat.add_assoc]

theorem exists_leading_zero (h : v.Shows i text) (hz : v.code i = 0x30)
    (hl : 1 < (text.takeWhile (isDigit 10)).length) :
    ∃ c digits, text.takeWhile (isDigit 10) = '0' :: c :: digits := by
  obtain ⟨text, rfl⟩ := h.eq_cons '0' hz (by decide)
  rw [List.takeWhile_cons_of_pos isDigit_zero] at hl ⊢
  obtain ⟨c, digits, hd⟩ := List.exists_cons_of_length_pos (Nat.lt_of_succ_lt_succ hl)
  exact ⟨c, digits, congrArg _ hd⟩

theorem leading_zero_ends {c : Char} {stop : Nat} {digits : List Char} {ns : List Nat}
    (strict : Bool)
    (hr : ¬∃ letter radix more, (letter, radix) ∈ radices ∧ text = '0' :: letter :: more)
    (h : v.Shows i text) (hz : text.takeWhile (isDigit 10) = '0' :: c :: digits)
    (hf : List.Forall₂ (Digit 10) ('0' :: c :: digits) ns)
    (hstop : stop = i + (text.takeWhile (isDigit 10)).length)
    (hm : v.Shows stop (text.dropWhile (isDigit 10))) :
    Ends strict text i (
      let octal := ns.all (· < 8)
      if strict then (.error (if octal then .strictOctalLiteral else .strictLeadingZero), stop)
      else if octal then v.endNumeral (some (Binary64.ofDigits 8 ns), stop)
      else v.endNumeral (v.decimalTail ns stop)) := by
  have hall := all_octal_iff hf
  have hrun : Digits 10 ('0' :: c :: digits) := hz ▸ digits_takeWhile (by decide)
  cases strict with
  | true =>
    refine ⟨_, _, longest_zero hz, fun _ => ⟨_, rfl, ?_⟩, fun hx => absurd ⟨c, ?_, ?_⟩ hx⟩
    · split <;> rfl
    · rw [← List.takeWhile_append_dropWhile (p := isDigit 10) (l := text), hz]
      rfl
    · exact .inr (.inl (hrun c (.tail _ (.head _))))
  | false =>
    simp only [Bool.false_eq_true, if_false]
    split
    · next hx =>
      obtain ⟨h8, h9⟩ := hall.1 hx
      exact endNumeral_ends h ⟨_, _, longest_octal hz (List.not_mem_of_not_mem_cons h8)
        (List.not_mem_of_not_mem_cons h9), nofun, fun _ => hstop⟩
    · next hx =>
      refine endNumeral_ends h (behind_reads hr hstop (decimalTail_reads ns hm)
        fun found rest hl => ?_)
      rw [hz]
      refine .leadingZero rfl (fun d hd => hrun d (.tail _ hd)) ?_ hl.mem
      rw [hall, not_and_or, not_not, not_not] at hx
      exact hx.imp (List.mem_of_ne_of_mem (by decide)) (List.mem_of_ne_of_mem (by decide))

theorem numeral_ends (strict : Bool) (h : v.Shows i text) (hs : Starts text) :
    Ends strict text i (v.numeral strict i) := by
  by_cases hr : ∃ letter radix more, (letter, radix) ∈ radices ∧ text = '0' :: letter :: more
  · obtain ⟨letter, radix, more, hr, rfl⟩ := hr
    rw [numeral_of_radix hr h]
    exact endNumeral_ends h (radixLiteral_reads hr h)
  have hx : (v.code i == 0x30 && v.isLetter (i + 1) 0x78) = false :=
    not_radix hr h 16 'x' 'X' (by decide) (by decide) rfl (by decide)
  have ho : (v.code i == 0x30 && v.isLetter (i + 1) 0x6F) = false :=
    not_radix hr h 8 'o' 'O' (by decide) (by decide) rfl (by decide)
  have hb : (v.code i == 0x30 && v.isLetter (i + 1) 0x62) = false :=
    not_radix hr h 2 'b' 'B' (by decide) (by decide) rfl (by decide)
  obtain ⟨ns, hd, hf, hm⟩ := digits_of_shows (show 10 ≤ 16 by decide) h
  simp only [numeral, hx, ho, hb, hd, Bool.false_eq_true, if_false]
  split
  · next hz =>
    rw [Bool.and_eq_true, beq_iff_eq, decide_eq_true_eq, ← hf.length_eq] at hz
    obtain ⟨c, digits, hz⟩ := exists_leading_zero h hz.1 hz.2
    exact leading_zero_ends strict hr h hz (hz ▸ hf) rfl hm
  · next hz =>
    rw [Bool.and_eq_true, beq_iff_eq, decide_eq_true_eq, ← hf.length_eq] at hz
    refine endNumeral_ends h (behind_reads hr rfl (decimalTail_reads ns hm) fun found rest hl => ?_)
    refine decimal_of_longest hs (fun hx => Nat.not_lt.1 fun hlen => hz ⟨?_, hlen⟩) hl
    rw [h.code, hx]
    rfl

theorem token_of_number {p : Place} (strict : Bool) (h : v.Shows p.offset text) (hs : Starts text) :
    v.trivia p = ⟨p, false, none⟩ ∧ v.token strict p =
      ((v.numeral strict p.offset).1, { p with offset := (v.numeral strict p.offset).2 }) := by
  obtain ⟨d, n, more, hd, hs⟩ := hs
  have hc := h.code
  obtain ⟨hi, hstart, hb, hnum, hl, hw, hslash⟩ : p.offset < v.limit ∧
      (v.code p.offset).isIdentifierStart = false ∧ v.code p.offset ≠ 0x5C ∧
      ((v.code p.offset).isDecimalDigit ||
        (v.code p.offset == 0x2E && (v.code (p.offset + 1)).isDecimalDigit)) = true ∧
      (v.code p.offset).isLineTerminator = false ∧ (v.code p.offset).isWhitespace = false ∧
        v.code p.offset ≠ 0x2F := by
    obtain rfl | rfl := hs
    · refine ⟨h.1, ?_⟩
      rw [hc, List.head?_cons, Option.map_some, Option.getD_some, isDecimalDigit_iff.2 ⟨n, hd⟩]
      obtain ⟨hn, hd⟩ := hd
      interval_cases n
      all_goals obtain rfl | rfl := hd
      all_goals exact ⟨rfl, by decide, rfl, rfl, rfl, by decide⟩
    · have hd' := (h.next (by decide)).code
      rw [hc, hd', List.head?_cons, List.head?_cons, Option.map_some, Option.map_some,
        Option.getD_some, Option.getD_some, isDecimalDigit_iff.2 ⟨n, hd⟩]
      exact ⟨h.1, rfl, by decide, rfl, rfl, rfl, by decide⟩
  refine ⟨trivia_of_code hi hl hw hslash, ?_⟩
  rw [token]
  simp only [isEnd_eq_false hi, hstart, beq_eq_false_iff_ne.2 hb, hnum, Bool.or_false,
    Bool.false_eq_true, if_false, if_true]

end View

namespace Lexer

open NumericLiteral View

variable {s : Source} {l : Lexer} {strict : Bool} {before text : List Char}

/-- Where a text begins with a decimal digit, or with a point and one, the longest numeric literal
that stands there is one token, unless a name, another digit or a backslash touches it: then it is
an error. -/
theorem next_number (hl : l.Between s before text) (hs : Starts text) :
    ∃ found rest, Longest (NumericLiteral strict) text found rest ∧
      (Touched rest → (l.next strict).1.kind = .invalid) ∧
      (¬Touched rest → (l.next strict).2.Between s (before ++ found) rest ∧
        ∃ value, (l.next strict).1 =
        ⟨.number, .number value, ⟨l.standing.line, l.standing.lineStart, l.standing.offset,
          l.standing.offset + found.length⟩⟩) := by
  have h : l.view.Shows l.place.offset text := hl.shows
  obtain ⟨ht, hx⟩ := token_of_number strict h hs
  obtain ⟨found, rest, hm, hbad, hgood⟩ := numeral_ends strict h hs
  refine ⟨found, rest, hm, fun htouch => ?_, fun htouch => ?_⟩
  · obtain ⟨fault, hf, hk⟩ := hbad htouch
    rw [hf] at hx
    rw [(next_of_fault ht hx).1, hk]
  · obtain ⟨value, hv⟩ := hgood htouch
    rw [hv] at hx
    obtain ⟨htoken, hoffset, -⟩ := next_of_token ht hx
    refine ⟨Between.pass (hm.text_eq ▸ hl) (view_next ..) ?_, value, htoken⟩
    rw [hoffset, Encoding.span_of_ascii _ hm.mem.ascii]
    rfl

/-- Behind a leading zero a literal of sloppy code goes on; one of strict code is the zero, and the
digit touches it. -/
theorem next_number_leading_zero :
    (∃ value, ((ofText ['0', '8', '.', '5', ';']).next false).1 =
      ⟨.number, .number value, ⟨1, 0, 0, 4⟩⟩) ∧
      ((ofText ['0', '8', '.', '5', ';']).next true).1.kind = .invalid := by
  have starts : Starts ['0', '8', '.', '5', ';'] := ⟨'0', 0, _, by decide, .inl rfl⟩
  have eight : NumericLiteral false ('0' :: (['8'] ++ '.' :: (['5'] ++ []))) :=
    .leadingZero rfl (List.forall_mem_singleton.2 ⟨8, by decide⟩) (.inl (.head _))
      (.fraction (List.forall_mem_singleton.2 ⟨5, by decide⟩) .absent)
  constructor
  · have found : Longest (NumericLiteral false) ['0', '8', '.', '5', ';']
        ['0', '8', '.', '5'] [';'] :=
      longest_behind (fun letter radix more hr hx => by cases hx; revert hr; simp [radices])
        (longest_tail_of_point (longest_exponent_nil (by rintro _ ⟨⟩; decide))) eight
    obtain ⟨_, _, hl, -, h⟩ := next_number (between_ofText _) starts
    obtain ⟨rfl, rfl⟩ := found.unique hl
    refine (h ?_).2
    rintro ⟨_, ⟨⟩, hc | hc | hc⟩
    · exact absurd hc (by decide)
    · exact absurd (isDecimalDigit_iff.2 hc) (by decide)
    · exact absurd hc (by decide)
  · have found : Longest (NumericLiteral true) ['0', '8', '.', '5', ';'] ['0'] ['8', '.', '5',
        ';'] := longest_zero rfl
    obtain ⟨_, _, hl, h, -⟩ := next_number (between_ofText _) starts
    obtain ⟨rfl, rfl⟩ := found.unique hl
    exact h ⟨'8', rfl, .inr (.inl ⟨8, by decide⟩)⟩

end Lexer

end EcmaFront
