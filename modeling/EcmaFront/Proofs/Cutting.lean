import EcmaFront.Proofs.Spelling
import EcmaFront.Proofs.Truncation

/-!
Tokens of a part of a source. A source that is cut from one token to another has the tokens from the
one to the other, whatever stood before and behind them.
-/

set_option autoImplicit false

namespace EcmaFront

namespace Lexer

theorem next_of_isSolid {l : Lexer} {strict : Bool} (h : (l.next strict).1.kind.isSolid = true) :
    ∃ kind value q, (l.view.trivia l.place).unclosed = none ∧
      l.view.token strict (l.view.trivia l.place).place = (.ok (kind, value), q) ∧
      (l.view.trivia l.place).place.offset < q.offset ∧
      l.next strict = (⟨kind, value,
        ⟨(l.view.trivia l.place).place.line, (l.view.trivia l.place).place.lineStart,
        (l.view.trivia l.place).place.offset, q.offset⟩⟩,
        l.arrive q (l.view.trivia l.place).newline none) := by
  have hs := (l.next_advances strict).solid h
  simp only [next] at h hs ⊢
  cases hu : (l.view.trivia l.place).unclosed with
  | some extent =>
    simp only [hu] at h
    cases h
  | none =>
    simp only [hu] at h hs ⊢
    generalize l.view.token strict (l.view.trivia l.place).place = x at h hs ⊢
    obtain ⟨fault | ⟨kind, value⟩, q⟩ := x
    · have h : fault.kind.isSolid = true := h
      rw [TokenKind.isSolid_of_isError fault.kind_isError] at h
      cases h
    · exact ⟨kind, value, q, trivial, rfl, hs, rfl⟩

def upTo (l : Lexer) (cut : Nat) : Lexer := { l with view := l.view.upTo cut }

variable {l : Lexer} {cut : Nat}

theorem next_upTo (hc : cut ≤ l.view.limit) {strict : Bool}
    (hk : (l.next strict).1.kind.isSolid = true) (hj : (l.next strict).1.extent.stop ≤ cut) :
    (l.upTo cut).next strict = ((l.next strict).1, (l.next strict).2.upTo cut) := by
  obtain ⟨kind, value, q, hu, ht, hl, hn⟩ := next_of_isSolid hk
  rw [hn] at hj ⊢
  have hj : q.offset ≤ cut := hj
  have hu' := View.trivia_upTo hc hu (Nat.lt_of_lt_of_le hl hj)
  have ht' := View.token_upTo hc ht hl hj
  have hp : (l.upTo cut).place = l.place := rfl
  have hv : (l.upTo cut).view = l.view.upTo cut := rfl
  simp only [next, hv, hp, hu', hu, ht']
  rfl

theorem regexp_upTo (hc : cut ≤ l.view.limit) {t : Token} {start : String}
    (hk : (l.regexp t start).1.kind.isSolid = true) (hj : (l.regexp t start).1.extent.stop ≤ cut) :
    (l.upTo cut).regexp t start = ((l.regexp t start).1, (l.regexp t start).2.upTo cut) := by
  have hv : (l.upTo cut).view = l.view.upTo cut := rfl
  have hs : (l.upTo cut).standing = l.standing := rfl
  cases hx : l.view.regexp start l.standing.offset with
  | mk found j =>
  simp only [regexp, hx, hv, hs] at hk hj ⊢
  cases found with
  | error fault =>
    have hk : fault.kind.isSolid = true := hk
    rw [TokenKind.isSolid_of_isError fault.kind_isError] at hk
    cases hk
  | ok found =>
    rw [View.regexp_upTo hc hx hj]
    rfl

theorem read_upTo (hc : cut ≤ l.view.limit) {r : Request} (hk : (l.read r).1.kind.isSolid = true)
    (hj : (l.read r).1.extent.stop ≤ cut) :
    (l.upTo cut).read r = ((l.read r).1, (l.read r).2.upTo cut) := by
  by_cases h : (r.regexp && (l.next r.strict).1.kind.isSlash) = true
  · rw [read_eq_regexp h] at hk hj ⊢
    have hn := next_upTo hc (TokenKind.isSolid_of_isSlash (Bool.and_eq_true_iff.1 h).2)
      (Nat.le_trans (le_regexp_stop l r.strict _) hj)
    rw [read_eq_regexp (by rwa [hn]), hn]
    exact regexp_upTo (by rwa [view_next]) hk hj
  · rw [read_eq_next h] at hk hj ⊢
    have hn := next_upTo hc hk hj
    rw [read_eq_next (by rwa [hn]), hn]

def after (l : Lexer) : List Request → Lexer
  | [] => l
  | r :: requests => (l.read r).2.after requests

theorem tokens_append (l : Lexer) (first second : List Request) :
    l.tokens (first ++ second) = l.tokens first ++ (l.after first).tokens second := by
  induction first generalizing l with
  | nil => rfl
  | cons r first ih => rw [List.cons_append, tokens, tokens, after, ih, List.cons_append]

theorem length_tokens (l : Lexer) (requests : List Request) :
    (l.tokens requests).length = requests.length := by
  induction requests generalizing l with
  | nil => rfl
  | cons r requests ih => rw [tokens, List.length_cons, List.length_cons, ih]

theorem view_after (l : Lexer) (requests : List Request) : (l.after requests).view = l.view := by
  induction requests generalizing l with
  | nil => rfl
  | cons r requests ih => rw [after, ih, view_read]

theorem tokens_upTo {requests : List Request} (hc : cut ≤ l.view.limit)
    (h : ∀ t ∈ l.tokens requests, t.token.kind.isSolid = true ∧ t.extent.stop ≤ cut) :
    (l.upTo cut).tokens requests = l.tokens requests ∧
    (l.upTo cut).after requests = (l.after requests).upTo cut := by
  induction requests generalizing l with
  | nil => exact ⟨rfl, rfl⟩
  | cons r requests ih =>
    rw [tokens, List.forall_mem_cons] at h
    obtain ⟨ht, ha⟩ := ih (by rwa [view_read]) h.2
    simp only [tokens, after, read_upTo hc h.1.1 h.1.2, ht, ha, and_true]
    rfl

theorem tokens_forward (l : Lexer) (requests : List Request) :
    (∀ t ∈ l.tokens requests, l.standing.offset ≤ t.extent.start ∧
      t.extent.stop ≤ (l.after requests).standing.offset) ∧
      l.standing.offset ≤ (l.after requests).standing.offset := by
  induction requests generalizing l with
  | nil => exact ⟨fun t ht => absurd ht List.not_mem_nil, Nat.le_refl _⟩
  | cons r requests ih =>
    have ha := l.read_advances r
    obtain ⟨hi, hl⟩ := ih (l.read r).2
    have hs := ha.start
    have ho := ha.ordered
    have he := ha.stop
    refine ⟨fun t ht => ?_, ?_⟩
    · rw [tokens, List.mem_cons] at ht
      obtain rfl | ht := ht
      · exact ⟨hs, by rw [after]; show (l.read r).1.extent.stop ≤ _; omega⟩
      · exact ⟨Nat.le_trans (by omega) (hi t ht).1, (hi t ht).2⟩
    · rw [after]
      omega

theorem stop_of_getLast? {requests : List Request} {t : Sighting}
    (h : (l.tokens requests).getLast? = some t) :
    t.extent.stop = (l.after requests).standing.offset := by
  induction requests generalizing l with
  | nil => cases h
  | cons r requests ih =>
    cases requests with
    | nil =>
      cases h
      exact (l.read_advances r).stop
    | cons r' requests => exact ih (by rwa [tokens, tokens, List.getLast?_cons_cons] at h)

theorem read_of_isEnd (h : l.view.isEnd l.standing.offset = true) (r : Request) :
    (l.read r).1.kind = .eof := by
  have hn : (l.next r.strict).1.kind = .eof := by
    have ht : l.view.trivia l.place = ⟨l.place, false, none⟩ := l.view.trivia_of_isEnd h
    simp only [next, ht, View.token, show l.view.isEnd l.place.offset = true from h, if_true]
  rw [read_eq_next (by simp [hn, TokenKind.isSlash])]
  exact hn

def skip (l : Lexer) : Lexer :=
  let start := (l.view.trivia l.place).place
  { l with standing :=
    { l.standing with offset := start.offset, line := start.line, lineStart := start.lineStart } }

theorem next_skip {strict : Bool} (h : (l.next strict).1.kind.isSolid = true) :
    (l.skip.next strict).1 = (l.next strict).1 ∧ (l.skip.next strict).2.view = l.view ∧
      (l.skip.next strict).2.place = (l.next strict).2.place ∧
      l.skip.place = ⟨(l.next strict).1.extent.start, (l.next strict).1.extent.line,
        (l.next strict).1.extent.lineStart⟩ := by
  obtain ⟨kind, value, q, hu, ht, -, hn⟩ := next_of_isSolid h
  have hp : l.skip.place = (l.view.trivia l.place).place := rfl
  have hv : l.skip.view = l.view := rfl
  rw [hn]
  simp only [next, hv, hp, View.trivia_again hu, ht, true_and, and_true]
  exact ⟨rfl, rfl⟩

theorem regexp_congr {l m : Lexer} (hv : m.view = l.view) (hp : m.place = l.place) (t : Token)
    (start : String) :
    (m.regexp t start).1 = (l.regexp t start).1 ∧
    (m.regexp t start).2.place = (l.regexp t start).2.place ∧
      (⟨(l.regexp t start).1.extent.start, (l.regexp t start).1.extent.line,
        (l.regexp t start).1.extent.lineStart⟩ : Place) =
        ⟨t.extent.start, t.extent.line, t.extent.lineStart⟩ := by
  have ho : m.standing.offset = l.standing.offset := congrArg Place.offset hp
  have hl : m.standing.line = l.standing.line := congrArg Place.line hp
  have hs : m.standing.lineStart = l.standing.lineStart := congrArg Place.lineStart hp
  simp only [regexp, hv, ho]
  split
  · simp only [place, hl, hs, and_self]
  · simp only [place, hl, hs, and_self]

theorem isSolid_next_of_read {r : Request} (h : (l.read r).1.kind.isSolid = true) :
    (l.next r.strict).1.kind.isSolid = true := by
  by_cases hs : (r.regexp && (l.next r.strict).1.kind.isSlash) = true
  · exact TokenKind.isSolid_of_isSlash (Bool.and_eq_true_iff.1 hs).2
  · rwa [read_eq_next hs] at h

theorem read_skip {r : Request} (h : (l.read r).1.kind.isSolid = true) :
    (l.skip.read r).1 = (l.read r).1 ∧ (l.skip.read r).2.place = (l.read r).2.place ∧
      l.skip.place = ⟨(l.read r).1.extent.start, (l.read r).1.extent.line,
        (l.read r).1.extent.lineStart⟩ := by
  obtain ⟨ht, hv, hp, hs⟩ := next_skip (isSolid_next_of_read h)
  by_cases hr : (r.regexp && (l.next r.strict).1.kind.isSlash) = true
  · rw [read_eq_regexp hr, read_eq_regexp (by rwa [ht]), ht]
    obtain ⟨ht', hp', he⟩ :=
      regexp_congr (hv.trans (view_next l r.strict).symm) hp (l.next r.strict).1
      (if (l.next r.strict).1.kind == .slashEqual then "=" else "")
    exact ⟨ht', hp', hs.trans he.symm⟩
  · rw [read_eq_next hr, read_eq_next (by rwa [ht])]
    exact ⟨ht, hp, hs⟩

end Lexer

def View.Mirror.anyLine (v : View) : View.Mirror v v where
  pairs i j := j = i
  lines _ _ := True
  ofPairs _ := trivial
  isEnd := by
    rintro i _ rfl
    rfl
  code := by
    rintro i _ rfl
    rfl
  after := by
    rintro i _ rfl _
    rfl

theorem View.Mirror.lexersAfter {v w : View} (M : View.Mirror v w) {l m : Lexer} (h : M.Lexers l m)
    (requests : List Request) : M.Lexers (l.after requests) (m.after requests) := by
  induction requests generalizing l m with
  | nil => exact h
  | cons r requests ih => exact ih (M.read h r).lexers

/-- The same token, read in the same units. -/
structure Sighting.SameToken (t u : Sighting) : Prop where
  kind : u.token.kind = t.token.kind
  value : u.token.value = t.token.value
  line : u.extent.line = t.extent.line
  start : u.extent.start = t.extent.start
  stop : u.extent.stop = t.extent.stop

namespace Lexer

theorem tokens_of_place {l m : Lexer} (hv : m.view = l.view) {r : Request} (requests : List Request)
    (hk : (l.read r).1.kind.isSolid = true) (ho : m.standing.offset = (l.read r).1.extent.start)
    (hl : m.standing.line = (l.read r).1.extent.line) :
    List.Forall₂ Sighting.SameToken (l.tokens (r :: requests)) (m.tokens (r :: requests)) ∧
      (m.tokens (r :: requests)).tail.map Sighting.newline = (l.tokens (r :: requests)).tail.map
        Sighting.newline ∧
      (m.after (r :: requests)).standing.offset = (l.after (r :: requests)).standing.offset := by
  let M := View.Mirror.anyLine l.view
  obtain ⟨ht, hp, hs⟩ := read_skip hk
  have hm := M.read (show M.Lexers l.skip m from ⟨rfl, hv,
    ⟨ho.trans (congrArg Place.offset hs).symm,
    hl.trans (congrArg Place.line hs).symm, trivial⟩⟩) r
  have hx : M.Lexers (l.read r).2 (m.read r).2 :=
    ⟨view_read l r, (view_read m r).trans hv, hp ▸ hm.lexers.place⟩
  have hrest := M.tokens hx requests
  refine ⟨.cons ?_ (hrest.imp fun t u h => ?_), ?_, (M.lexersAfter hx requests).place.offset⟩
  · constructor
    · exact hm.agree.kind.trans (congrArg Token.kind ht)
    · exact hm.agree.value.trans (congrArg Token.value ht)
    · exact hm.agree.line.trans (congrArg (·.extent.line) ht)
    · exact hm.extent.start.trans (congrArg (·.extent.start) ht)
    · exact hm.extent.stop.trans (congrArg (·.extent.stop) ht)
  · exact ⟨h.1.kind, h.1.value, h.1.line, h.2.start, h.2.stop⟩
  · symm
    rw [← List.forall₂_eq_eq_eq, List.forall₂_map_left_iff, List.forall₂_map_right_iff]
    exact hrest.imp fun t u h => h.1.newline.symm

theorem tokens_upTo_last {l m : Lexer} (hv : m.view = l.view) {r : Request}
    {requests : List Request} (hk : ∀ t ∈ l.tokens (r :: requests), t.token.kind.isSolid = true)
    (ho : m.standing.offset = (l.read r).1.extent.start)
    (hl : m.standing.line = (l.read r).1.extent.line)
    (hc : (l.after (r :: requests)).standing.offset ≤ l.view.limit) (request : Request) :
    ∃ cut stop,
      (m.upTo (l.after (r :: requests)).standing.offset).tokens
        (r :: requests ++ [request]) = cut ++ [stop] ∧
      List.Forall₂ Sighting.SameToken (l.tokens (r :: requests)) cut ∧
      cut.tail.map Sighting.newline = (l.tokens (r :: requests)).tail.map Sighting.newline ∧
      stop.token.kind = .eof := by
  obtain ⟨hsame, hnewline, hafter⟩ :=
    tokens_of_place hv requests (hk _ (List.mem_cons_self ..)) ho hl
  have hall : ∀ t ∈ m.tokens (r :: requests),
      t.token.kind.isSolid = true ∧ t.extent.stop ≤ (l.after (r :: requests)).standing.offset := by
    intro u hu
    obtain ⟨⟨i, hi⟩, rfl⟩ := List.get_of_mem hu
    have h := hsame.get (hsame.length_eq ▸ hi) hi
    have ht := List.get_mem (l.tokens (r :: requests)) ⟨i, hsame.length_eq ▸ hi⟩
    rw [h.kind, h.stop]
    exact ⟨hk _ ht, ((tokens_forward l (r :: requests)).1 _ ht).2⟩
  obtain ⟨htokens, hrest⟩ := tokens_upTo (hv ▸ hc) hall
  generalize hl : (l.after (r :: requests)).standing.offset = last at *
  have hend : ((m.after (r :: requests)).upTo last).view.isEnd
      ((m.after (r :: requests)).upTo last).standing.offset =
      true := decide_eq_true (Nat.le_of_eq hafter.symm)
  refine ⟨_, sighting (((m.after (r :: requests)).upTo last).read request), ?_, hsame, hnewline,
    read_of_isEnd hend request⟩
  rw [tokens_append, htokens, hrest]
  rfl

theorem tokens_inside {s : Source} (hs : s.WellFormed) (requests : List Request) :
    ∀ t ∈ (ofSource s).tokens requests, t.extent.stop ≤ s.stop ∧ s.stop ≤ s.buffer.size := by
  intro t ht
  obtain ⟨text, hx⟩ := hs
  have hle : s.start ≤ s.stop := by
    rw [hx.stop]
    exact Nat.le_add_right _ _
  exact ⟨(tokens_reached ht).2.le_limit (Source.WellFormed.overhangsBy_zero ⟨text, hx⟩) hle,
    hx.inside⟩

/-- A source that is cut at the first and the last of some tokens has these tokens, and then
ends. -/
theorem tokens_narrow {s : Source} (hs : s.WellFormed) {pre requests post : List Request}
    {before run rest : List Sighting}
    (ht : (ofSource s).tokens (pre ++ requests ++ post) = before ++ run ++ rest)
    (hb : before.length = pre.length) (hr : run.length = requests.length)
    (hk : ∀ t ∈ run, t.token.kind.isSolid = true) {first last : Sighting}
    (hf : run.head? = some first) (hl : run.getLast? = some last) (request : Request) :
    ∃ cut stop,
      (ofSource (s.narrow first.extent.start last.extent.stop first.extent.line)).tokens
        (requests ++ [request]) =
        cut ++ [stop] ∧
      List.Forall₂ Sighting.SameToken run cut ∧
      cut.tail.map Sighting.newline = run.tail.map Sighting.newline ∧
      stop.token.kind = .eof := by
  have hall := tokens_inside hs (pre ++ requests ++ post)
  rw [ht] at hall
  rw [tokens_append, tokens_append] at ht
  obtain ⟨ht, -⟩ := List.append_inj ht (by
    rw [List.length_append, List.length_append, length_tokens, length_tokens, hb, hr])
  obtain ⟨-, rfl⟩ := List.append_inj ht (by rw [length_tokens, hb])
  have hv := view_after (ofSource s) pre
  generalize (ofSource s).after pre = l at hv hall hr hk hf hl ⊢
  have hv : l.view = s.view := hv
  cases requests with
  | nil => cases hf
  | cons r requests =>
  obtain rfl : sighting (l.read r) = first := Option.some.inj hf
  have hstop := stop_of_getLast? hl
  have hahead := (tokens_forward l (r :: requests)).1
  obtain ⟨hinside, hsize⟩ := hall last (by simp [List.mem_of_getLast? hl])
  have hfirst : (l.read r).1.extent.start ≤ last.extent.stop := by
    rw [hstop]
    exact Nat.le_trans (l.read_advances r).ordered (hahead _ (List.mem_cons_self ..)).2
  -- The cut is inside the source, so its bounds are those that were asked for.
  have hcut : ofSource (s.narrow (sighting (l.read r)).extent.start last.extent.stop
      (sighting (l.read r)).extent.line) =
      (ofSource ⟨s.buffer, s.url, (l.read r).1.extent.line, (l.read r).1.extent.start, s.stop⟩).upTo
        last.extent.stop := by
    rw [Source.narrow, Nat.min_eq_left (Nat.le_trans hinside hsize)]
    show ofSource ⟨s.buffer, s.url, _, min (l.read r).1.extent.start _, _⟩ = _
    rw [Nat.min_eq_left hfirst]
    rfl
  rw [hcut, hstop]
  exact tokens_upTo_last hv.symm hk rfl rfl (by rw [← hstop, hv]; exact hinside) request

theorem tokens_narrow_regexp :
    ∃ cut stop,
      (ofSource ((Source.ofString "(/=b/g)\n.c" "").narrow 1 9 1)).tokens
          ([⟨true, true⟩, ⟨true, true⟩, ⟨true, true⟩] ++ [⟨false, false⟩]) = cut ++ [stop] ∧
      List.Forall₂ Sighting.SameToken
        [⟨⟨.regexp, .regexp "=b" "g", ⟨1, 0, 1, 6⟩⟩, false, none⟩,
          ⟨⟨.rightParen, .none, ⟨1, 0, 6, 7⟩⟩, false, none⟩,
          ⟨⟨.dot, .none, ⟨2, 8, 8, 9⟩⟩, true, none⟩] cut ∧
      cut.tail.map Sighting.newline = [false, true] ∧ stop.token.kind = .eof :=
  @tokens_narrow (Source.ofString "(/=b/g)\n.c" "") ⟨_, Source.spells_utf8 "(/=b/g)\n.c" "" 1⟩
    [⟨false, false⟩]
    [⟨true, true⟩, ⟨true, true⟩, ⟨true, true⟩] [⟨false, false⟩]
    [⟨⟨.leftParen, .none, ⟨1, 0, 0, 1⟩⟩, false, none⟩] _
    [⟨⟨.identifier, .text "c", ⟨2, 8, 9, 10⟩⟩, false, none⟩] (by decide +kernel) rfl rfl (by decide)
    ⟨⟨.regexp, .regexp "=b" "g", ⟨1, 0, 1, 6⟩⟩, false, none⟩ ⟨⟨.dot, .none, ⟨2, 8, 8, 9⟩⟩,
      true, none⟩ rfl rfl
    ⟨false, false⟩

end Lexer

end EcmaFront
