import EcmaFront.Proofs.Consumption
import EcmaFront.Proofs.Layout
import EcmaFront.Proofs.Trail

/-!
Stretches of a text: the tokens consumed on the way, how many brackets they leave open, and the
nodes that they were taken for. Stretches are put together in the order of the text, and where a
node is made of what was read, it stands for what is in it.
-/

set_option autoImplicit false

namespace EcmaFront

namespace TokenKind

def opens : TokenKind → Bool
  | .leftParen | .leftBracket | .leftBrace => true
  | _ => false

def closes : TokenKind → Bool
  | .rightParen | .rightBracket | .rightBrace => true
  | _ => false

def isFlat (kind : TokenKind) : Bool := kind.isPlain && !kind.opens && !kind.closes

variable {kind : TokenKind}

theorem isPlain_of_isFlat (h : kind.isFlat = true) : kind.isPlain = true := by
  simp only [isFlat, Bool.and_eq_true] at h
  exact h.1.1

theorem isPlain_of_opens (h : kind.opens = true) : kind.isPlain = true := by
  revert h
  cases kind <;> decide

theorem isPlain_of_closes (h : kind.closes = true) : kind.isPlain = true := by
  revert h
  cases kind <;> decide

theorem closes_of_opens (h : kind.opens = true) : kind.closes = false := by
  revert h
  cases kind <;> decide

theorem ne_regexp_of_isPlain (h : kind.isPlain = true) : kind ≠ .regexp := by
  revert h
  cases kind <;> decide

end TokenKind

/-- How many brackets are open behind the tokens, if so many were before them. None is closed that
was not opened. -/
def climb : Nat → List Token → Option Nat
  | depth, [] => some depth
  | depth, t :: ts =>
    if t.kind.opens then climb (depth + 1) ts
    else if t.kind.closes then
      match depth with
      | 0 => none
      | depth + 1 => climb depth ts
    else climb depth ts

theorem climb_append (depth : Nat) (ts us : List Token) :
    climb depth (ts ++ us) = (climb depth ts).bind (climb · us) := by
  induction ts generalizing depth with
  | nil => rfl
  | cons t ts ih =>
    simp only [List.cons_append, climb]
    split
    · exact ih _
    split
    · cases depth with
      | zero => rfl
      | succ depth => exact ih _
    · exact ih _

theorem climb_add {depth depth' : Nat} {ts : List Token} (h : climb depth ts = some depth')
    (around : Nat) :
    climb (around + depth) ts = some (around + depth') := by
  induction ts generalizing depth with
  | nil => exact congrArg (fun d => some (around + d)) (Option.some.inj h)
  | cons t ts ih =>
    simp only [climb] at h ⊢
    split at h
    · next ho =>
      simp only [ho, if_true]
      exact ih h
    split at h
    · next ho hc =>
      simp only [hc, if_true]
      cases depth with
      | zero => cases h
      | succ depth =>
        simp only [ho]
        exact ih h
    · next ho hc =>
      simp only [ho, hc]
      exact ih h

theorem Lexer.kind_regexp {l : Lexer} {t : Token} {start : String}
    (h : (l.regexp t start).1.kind.isError = false) : (l.regexp t start).1.kind = .regexp := by
  simp only [regexp, View.regexp] at h ⊢
  generalize l.view.regexpBody _ _ _ _ = x at h ⊢
  obtain ⟨_ | body, i⟩ := x
  · cases h
  · rfl

namespace Sight

/-- Between two sights tokens are consumed, at least one if it is `solid`; `depth` more brackets are
open behind them than before; and they were taken for nodes. -/
structure Stretch (solid : Bool) (depth : Nat) (x : Sight) (ts : List Token) (ns : List Node)
    (y : Sight) : Prop where
  trail : x.Trail ts y
  solid : solid = true → ts ≠ []
  depth : climb 0 ts = some depth
  within : ∀ n ∈ ns, x.position ≤ n.span.start.offset ∧ n.span.stop.offset ≤ y.lastEnd.offset
  laid : ∀ n ∈ ns, ∀ m, n.Reaches m → m.Laid ts
  regexps : ∀ t ∈ ts, t.kind = .regexp → ∃ n ∈ ns, ∃ m, n.Reaches m ∧ m.IsRegexp t

theorem Again.trail {x y : Sight} (h : x.Again y) : x.Trail [] y := by
  induction h with
  | refl => exact .nil
  | reread _ ih => exact .reread ih ih.strict
  | lookAhead _ hk ih => exact .lookAhead ih hk

namespace Stretch

variable {solid solid' : Bool} {depth depth' : Nat} {x y z : Sight} {ts us : List Token}
  {ns ms : List Node} {n : Node}

theorem still (h : x.Trail [] y) : x.Stretch false 0 [] [] y :=
  ⟨h, nofun, rfl, by simp, by simp, by simp⟩

theorem refl (x : Sight) : x.Stretch false 0 [] [] x := still .nil

theorem forget (h : x.Stretch solid depth ts ns y) : x.Stretch false depth ts ns y :=
  { h with solid := nofun }

theorem flat {strict : Bool} (hk : x.token.kind.isFlat = true)
    (hs : x.strict = true → strict = true) :
    x.Stretch true 0 [x.token] [] (x.next strict) where
  trail := .next .nil hs (TokenKind.isPlain_of_isFlat hk)
  solid := by simp
  depth := by
    simp only [TokenKind.isFlat, Bool.and_eq_true, Bool.not_eq_true'] at hk
    simp [climb, hk]
  within := by simp
  laid := by simp
  regexps := by simp [TokenKind.ne_regexp_of_isPlain (TokenKind.isPlain_of_isFlat hk)]

theorem opening {strict : Bool} (hk : x.token.kind.opens = true)
    (hs : x.strict = true → strict = true) :
    x.Stretch true 1 [x.token] [] (x.next strict) where
  trail := .next .nil hs (TokenKind.isPlain_of_opens hk)
  solid := by simp
  depth := by simp [climb, hk]
  within := by simp
  laid := by simp
  regexps := by simp [TokenKind.ne_regexp_of_isPlain (TokenKind.isPlain_of_opens hk)]

theorem closing {strict : Bool} (h : x.Stretch solid (depth + 1) ts ns y) (hx : x.Ready)
    (hk : y.token.kind.closes = true) (hs : x.strict = true → strict = true) :
    x.Stretch true depth (ts ++ [y.token]) ns (y.next strict) where
  trail := .next h.trail hs (TokenKind.isPlain_of_closes hk)
  solid := by simp
  depth := by
    have ho : y.token.kind.opens = false := Bool.eq_false_iff.2 fun ho => by
      simp [TokenKind.closes_of_opens ho] at hk
    simp [climb_append, h.depth, climb, hk, ho]
  within n hn := by
    have hs := TokenKind.isSolid_of_isPlain (TokenKind.isPlain_of_closes hk)
    have hy := (h.trail.passes hx).ready.next hs strict
    have hl : y.lastEnd.offset ≤ y.token.extent.stop :=
      Nat.le_trans hy.behind (Nat.le_of_lt hy.ordered)
    exact ⟨(h.within n hn).1, Nat.le_trans (h.within n hn).2 hl⟩
  laid n hn m hm := by simpa using (h.laid n hn m hm).within [] [y.token]
  regexps t hm hr := by
    obtain hm | hm := List.mem_append.1 hm
    · exact h.regexps t hm hr
    · rw [List.mem_singleton.1 hm] at hr
      exact absurd hr (TokenKind.ne_regexp_of_isPlain (TokenKind.isPlain_of_closes hk))

theorem append (h : x.Stretch solid depth ts ns y) (hx : x.Ready)
    (h' : y.Stretch solid' depth' us ms z) :
    x.Stretch (solid || solid') (depth + depth') (ts ++ us) (ns ++ ms) z where
  trail := h.trail.trans h'.trail
  solid hb := by
    obtain hb | hb := (Bool.or_eq_true _ _).mp hb
    · simp [h.solid hb]
    · simp [h'.solid hb]
  depth := by simpa [climb_append, h.depth] using climb_add h'.depth depth
  within n hn := by
    have hp := h.trail.passes hx
    have hq := h'.trail.passes hp.ready
    obtain hn | hn := List.mem_append.1 hn
    · exact ⟨(h.within n hn).1, Nat.le_trans (h.within n hn).2 hq.lastEnd⟩
    · exact ⟨Nat.le_trans hp.position (h'.within n hn).1, (h'.within n hn).2⟩
  laid n hn m hm := by
    obtain hn | hn := List.mem_append.1 hn
    · simpa using (h.laid n hn m hm).within [] us
    · simpa using (h'.laid n hn m hm).within ts []
  regexps t ht hk := by
    obtain ht | ht := List.mem_append.1 ht
    · obtain ⟨n, hn, hm⟩ := h.regexps t ht hk
      exact ⟨n, List.mem_append_left _ hn, hm⟩
    · obtain ⟨n, hn, hm⟩ := h'.regexps t ht hk
      exact ⟨n, List.mem_append_right _ hn, hm⟩

theorem form (h : x.Stretch solid depth ts (ns ++ n.children) y)
    (hs : x.position ≤ n.span.start.offset) (he : n.span.stop.offset ≤ y.lastEnd.offset)
    (hl : n.Laid ts) : x.Stretch solid depth ts (ns ++ [n]) y where
  trail := h.trail
  solid := h.solid
  depth := h.depth
  within := List.forall_mem_append.2
    ⟨fun m hm => h.within m (List.mem_append_left _ hm), List.forall_mem_singleton.2 ⟨hs, he⟩⟩
  laid := by
    refine List.forall_mem_append.2
      ⟨fun m hm => h.laid m (List.mem_append_left _ hm), List.forall_mem_singleton.2 fun m hm => ?_⟩
    obtain rfl | ⟨k, hk, hm⟩ := Node.Reaches.iff.1 hm
    · exact hl
    · exact h.laid k (List.mem_append_right _ hk) m hm
  regexps t ht hk := by
    obtain ⟨k, hk, m, hm, hr⟩ := h.regexps t ht hk
    obtain hk | hk := List.mem_append.1 hk
    · exact ⟨k, List.mem_append_left _ hk, m, hm, hr⟩
    · exact ⟨n, by simp, m, .child hk hm, hr⟩

theorem node_behind (h : x.Stretch true depth ts (ns ++ n.children) y) (hx : x.Ready)
    (hn : n.span = ⟨x.token.extent.position, y.lastEnd⟩) (hp : n.Spelled ts) :
    x.Stretch true depth ts (ns ++ [n]) y := by
  have ht := h.trail.passes hx
  have hs : x.position = n.span.start.offset := by
    rw [hn]
    exact ht.position_eq (h.solid rfl)
  have he : n.span.stop.offset = y.lastEnd.offset := by rw [hn]
  refine h.form (Nat.le_of_eq hs) (Nat.le_of_eq he) ⟨?_, fun m hm => .inl ?_, fun m hm => ?_, hp⟩
  · rw [hn]
    exact ht.nonempty (h.solid rfl)
  · exact hs ▸ (h.within m (List.mem_append_right _ hm)).1
  · exact he ▸ (h.within m (List.mem_append_right _ hm)).2

theorem node (h : x.Stretch true depth ts n.children y) (hx : x.Ready)
    (hn : n.span = ⟨x.token.extent.position, y.lastEnd⟩) (hp : n.Spelled ts) :
    x.Stretch true depth ts [n] y :=
  show x.Stretch true depth ts ([] ++ [n]) y from node_behind h hx hn hp

theorem regexp {e : Expr} (hx : x.Ready) (hk : x.token.kind = .slash ∨ x.token.kind = .slashEqual)
    (he : x.regexp.token.kind.isError = false)
    (hr : e = .regexp ⟨x.token.extent.position, (x.regexp.next x.strict).lastEnd⟩
      x.regexp.token.regexpParts.1
      x.regexp.token.regexpParts.2) :
    x.Stretch true 0 [x.regexp.token] [.expression e] (x.regexp.next x.strict) := by
  have ht := hx.regexp hk
  have hp : x.regexp.token.kind = .regexp := Lexer.kind_regexp he
  have hi : (Node.expression e).IsRegexp x.regexp.token := by
    rw [hr]
    exact ⟨hp, rfl, ht.start, rfl⟩
  have hs : (Node.expression e).span =
      ⟨x.token.extent.position, (x.regexp.next x.strict).lastEnd⟩ := by rw [hr]; rfl
  have hn : (Node.expression e).children = [] := by rw [hr]; rfl
  have hl : (Node.expression e).Laid [x.regexp.token] := by
    refine ⟨?_, by simp [hn], by simp [hn], ?_⟩
    · rw [hs]
      exact Nat.lt_of_le_of_lt (Nat.le_of_eq ht.start.symm) ht.ordered
    · subst hr
      exact ⟨_, List.mem_singleton_self _, hi⟩
  exact {
    trail := .regexp .nil hk he
    solid := by simp
    depth := by simp [climb, hp, TokenKind.opens, TokenKind.closes]
    within := by
      rw [List.forall_mem_singleton, hs]
      exact ⟨Nat.min_le_left _ _, Nat.le_refl _⟩
    laid := by
      rw [List.forall_mem_singleton]
      intro m hm
      obtain rfl | ⟨k, hk, -⟩ := Node.Reaches.iff.1 hm
      · exact hl
      · simp [hn] at hk
    regexps := by
      rw [List.forall_mem_singleton]
      exact fun _ => ⟨_, List.mem_singleton_self _, _, .refl _, hi⟩ }

end Stretch

end Sight

end EcmaFront
