import EcmaFront.Proofs.Directive

/-!
Whether code is strict is said by the code around it and by its own directives. A directive is
recognized before it is known whether others follow; the list is then read again from its start, and
what was read in sloppy code is read in strict code as the same directives.
-/

set_option autoImplicit false

namespace EcmaFront

open Parse (Ends)
open Finding (items)

def ParseState.directive (s : ParseState) : Directive := ⟨s.next.spanFrom s.start, s.token.text⟩

theorem ParseState.isUseStrict_directive (s : ParseState) :
    s.directive.isUseStrict = Parse.isStrictDirective s.token := by
  have ht : (s.token.text == "use strict") = (s.token.text? == some "use strict") := by
    rw [Token.text]
    cases s.token.text? with
    | none => rfl
    | some text => simp
  rw [Directive.isUseStrict, Parse.isStrictDirective, ← ht]
  rfl

theorem ParseState.directive?_literal (s s' : ParseState) :
    (Stmt.expression (s'.spanFrom s.start) s.literal).directive? = some s.directive := by
  simp [Stmt.directive?, literal, directive, spanFrom]

namespace Reading

variable {P : Prop} {c : ParseContext} {s s' : ParseState}

theorem strict_item {a : Stmt} (h : Reading .tree P c .item s a s') : s'.strict = s.strict :=
  Scopes.strict_congr h.bare.outline

theorem asksForStrict_of_sloppy {close : TokenKind} {as : List Stmt}
    (h : Reading .tree P c (.items close true) s as s') (hs : s.sight.Settled)
    (hl : s.strict = false) : asksForStrict as = false := by
  induction as generalizing s with
  | nil => rfl
  | cons a as ih =>
    cases h with
    | @directiveItem _ s₁ _ _ _ _ hc hk h hi hn ht =>
      obtain ⟨rfl, -⟩ | ⟨hd, -⟩ := h.quotes_item hk
      · have hm : s.Moves s₁ := h.bare.moves
        have hl₁ : s₁.strict = false := h.strict_item.trans hl
        rw [hl₁, Bool.not_false, Bool.and_true] at hn
        rw [asksForStrict_directive (s.directive?_literal s₁), s.isUseStrict_directive, hn,
          ih ht (hs.moves hm) hl₁]
        rfl
      · cases hd.symm.trans hi
    | bodyItem hc he h hi =>
      refine asksForStrict_other ?_ as
      by_cases hk : s.kind = .string
      · exact Stmt.directive?_of_not_isDirective (by simpa [hk] using hi)
      · exact h.starts hs hk

end Reading

/-- One state sees in strict code what the other sees in sloppy code. -/
structure ParseState.Twin (s t : ParseState) : Prop where
  sloppy : s.strict = false
  strict : t.strict = true
  allowsIn : t.allowsIn = s.allowsIn
  seen : Lexer.Stricter (t.token, t.lexer) (s.token, s.lexer)

namespace ParseState.Twin

variable {s s' t t' : ParseState}

theorem next (h : s.Twin t) (hl : t.lexer = s.lexer) : s.next.Twin t.next where
  sloppy := h.sloppy
  strict := h.strict
  allowsIn := h.allowsIn
  seen := by
    show Lexer.Stricter (t.lexer.next t.strict) (s.lexer.next s.strict)
    rw [h.sloppy, h.strict, hl]
    exact s.lexer.next_stricter

theorem cases (h : s.Twin t) : t.token = s.token ∧ t.lexer = s.lexer ∨
    s.kind = .identifier ∧ t.kind = .strictReserved ∧ t.lexer = s.lexer ∨
    t.kind.isError = true := by
  have hs := h.seen
  generalize hx : (t.token, t.lexer) = x at hs
  generalize hy : (s.token, s.lexer) = y at hs
  cases hs with
  | same => exact .inl (Prod.mk.inj (hx.trans hy.symm))
  | reserved hk =>
    cases hy
    obtain ⟨ht, hl⟩ := Prod.mk.inj hx
    exact .inr (.inl ⟨hk, congrArg Token.kind ht, hl⟩)
  | refused hk =>
    cases hx
    exact .inr (.inr hk)

theorem string (h : s.Twin t) (hk : s.kind = .string) (ht : t.kind.isSolid = true) :
    t.token = s.token ∧ t.lexer = s.lexer := by
  obtain hs | ⟨hi, -⟩ | he := h.cases
  · exact hs
  · cases hk.symm.trans hi
  · rw [TokenKind.isSolid_of_isError he] at ht
    cases ht

theorem goesOn (h : s.Twin t) (hg : t.GoesOn) : s.GoesOn := by
  obtain ⟨ht, hl⟩ | ⟨-, hk, -⟩ | he := h.cases
  · have hk : t.kind = s.kind := congrArg Token.kind ht
    have hn : t.newline = s.newline := congrArg (·.standing.newline) hl
    simpa only [ParseState.GoesOn, ParseState.binaryOp?, hk, hn, h.allowsIn] using hg
  · rw [ParseState.GoesOn, ParseState.binaryOp?, hk] at hg
    exact absurd hg (by simp [TokenKind.precedence, UpdateOp.ofToken?, AssignOp.ofToken?])
  · rw [ParseState.GoesOn, ParseState.binaryOp?] at hg
    generalize t.kind = kind at he hg
    cases kind <;> cases he <;>
      exact absurd hg (by simp [TokenKind.precedence, UpdateOp.ofToken?, AssignOp.ofToken?])

theorem ends (h : s.Twin t) (he : Ends s s') (he' : Ends t t') :
    s'.Twin t' ∨ t'.kind.isError = true := by
  obtain ⟨ht, hl⟩ | ⟨hi, hr, -⟩ | hn := h.cases
  · have hk : t.kind = s.kind := congrArg Token.kind ht
    cases he with
    | semicolon hs =>
      cases he' with
      | semicolon => exact .inl (h.next hl)
      | omitted hs' => exact absurd (hk.trans hs) hs'
    | omitted hs =>
      cases he' with
      | semicolon hs' => exact absurd (hk.symm.trans hs') hs
      | omitted => exact .inl h
  · cases he with
    | semicolon hs => cases hi.symm.trans hs
    | omitted =>
      cases he' with
      | semicolon hs' => cases hr.symm.trans hs'
      | omitted => exact .inl h
  · cases he' with
    | semicolon hs' =>
      rw [hs'] at hn
      cases hn
    | omitted => exact .inr hn

end ParseState.Twin

namespace Reading

variable {P : Prop} {c : ParseContext} {s s₁ s₂ s' t t₁ : ParseState} {close : TokenKind}
  {a d : Stmt} {as before : List Stmt}

theorem items_not_error {prologue : Bool} (h : Reading .tree P c (.items close prologue) s as s')
    (hs : s.sight.Settled) (hc : close.isError = false) : s.kind.isError = false := by
  have hi {a s₁} (h : Reading .tree P c .item s a s₁) : s.kind.isError = false := by
    have hi : s.Consumes s₁ := h.consumes
    have hk := (hi.forward hs).1
    cases he : s.kind.isError with
    | false => rfl
    | true => cases (TokenKind.isSolid_of_isError he).symm.trans hk
  cases h with
  | bodyEnd hk => rw [hk, hc]
  | directiveItem _ _ h => exact hi h
  | bodyItem _ _ h => exact hi h

theorem item_twin (h : Reading .tree P c .item s d s₁) (hd : d.isDirective = true)
    (hk : s.kind = .string) (h' : Reading .tree P c .item t a t₁) (hs : t.sight.Settled)
    (ht : s.Twin t) :
    t.token = s.token ∧ a.directive? = some t.directive ∧ a.isDirective = true ∧
      (s₁.Twin t₁ ∨ t₁.kind.isError = true) := by
  have hi : t.Consumes t₁ := h'.consumes
  obtain ⟨htok, hl⟩ := ht.string hk (hi.forward hs).1
  obtain ⟨-, he, hg⟩ | ⟨hn, -⟩ := h.quotes_item hk
  · obtain ⟨rfl, he', -⟩ | ⟨-, hg'⟩ := h'.quotes_item ((congrArg Token.kind htok).trans hk)
    · exact ⟨htok, t.directive?_literal t₁, rfl, (ht.next hl).ends he he'⟩
    · exact absurd ((ht.next hl).goesOn hg') hg
  · cases hn.symm.trans hd

theorem items_twin (h : Reading .tree P c (.items close true) t as s') (hs : t.sight.Settled)
    (hc : close.isError = false) (ht : s.Twin t) (hk : s.kind = .string) (hn : s.kind ≠ close) :
    ∃ a rest t₁, as = a :: rest ∧ Reading .tree P c .item t a t₁ ∧
      (a.isDirective = true → Reading .tree P c (.items close true) t₁ rest s') := by
  have he := h.items_not_error hs hc
  have htok : t.kind = s.kind := by
    obtain ⟨htok, -⟩ | ⟨hi, -⟩ | hr := ht.cases
    · exact congrArg Token.kind htok
    · cases hk.symm.trans hi
    · cases he.symm.trans hr
  cases h with
  | bodyEnd hc => exact absurd (htok.symm.trans hc) hn
  | directiveItem _ _ h _ _ ht => exact ⟨_, _, _, rfl, h, fun _ => ht⟩
  | bodyItem _ _ h hi ht => exact ⟨_, _, _, rfl, h, fun ha => by simp [htok, hk, ha] at hi⟩

/-- A list that turned strict asks for it when it is read again: by induction on the directives that
were read in sloppy code, each of which is read again. -/
theorem asksForStrict_of_twin (hd : Reading .tree P c (.directives close) s before s₁)
    (hk : s₁.kind = .string) (hn : s₁.kind ≠ close) (h : Reading .tree P c .item s₁ d s₂)
    (hi : d.isDirective = true) (hu : Parse.isStrictDirective s₁.token = true)
    (h' : Reading .tree P c (.items close true) t as s') (hs : t.sight.Settled)
    (hc : close.isError = false) (ht : s.Twin t) : asksForStrict as = true := by
  induction before generalizing s t as with
  | nil =>
    cases hd
    obtain ⟨a, rest, t₁, rfl, ha, -⟩ := h'.items_twin hs hc ht hk hn
    obtain ⟨htok, hda, -⟩ := h.item_twin hi hk ha hs ht
    rw [asksForStrict_directive hda, t.isUseStrict_directive, htok, hu]
    rfl
  | cons b before ih =>
    cases hd with
    | moreDirectives hn' hk' hb hib _ hd =>
      obtain ⟨a, rest, t₁, rfl, ha, hr⟩ := h'.items_twin hs hc ht hk' hn'
      obtain ⟨-, hda, hia, ht₁⟩ := hb.item_twin hib hk' ha hs ht
      have hm : t.Moves t₁ := ha.bare.moves
      have hs₁ := hs.moves hm
      obtain ht₁ | he := ht₁
      · rw [asksForStrict_directive hda, ih hd (hr hia) hs₁ ht₁, Bool.or_true]
      · cases ((hr hia).items_not_error hs₁ hc).symm.trans he

theorem string_of_directives (h : Reading .tree P c (.directives close) s before s₁)
    (hk : s₁.kind = .string) :
    s.kind = .string := by
  cases h with
  | noDirectives => exact hk
  | moreDirectives _ hk => exact hk

end Reading

namespace ParseState

/-- The innermost frame is that of a function or program. -/
def InFunction (s : ParseState) : Prop :=
  ∃ kind rest, kind ≠ .block ∧ s.scopes.outline = (kind, s.strict) :: rest

theorem twin_restart {s s₃ : ParseState} (hs : s.sight.Settled) (hl : s.strict = false)
    (hk : s.kind = .string) (hv : s₃.lexer.view = s.lexer.view) {offset : Nat}
    (ht : (s₃.restart offset s.checkpoint).strict = true) :
    s.Twin (s₃.restart offset s.checkpoint) where
  sloppy := hl
  strict := ht
  allowsIn := rfl
  seen := by
    have hx : (s₃.restart offset s.checkpoint).sight = s.sight.reread true := by
      rw [← ht]
      exact @sight_rewind s { s₃ with events := _ } hv
    have hn : s.sight.token.kind ≠ .eof := by simp [show s.sight.token.kind = .string from hk]
    rw [Sight.reread, Sight.Settled.goTo_tokenStart (Nat.le_of_lt (hs.origin_lt hn))] at hx
    have ht : ((s₃.restart offset s.checkpoint).token, (s₃.restart offset s.checkpoint).lexer) =
        s.sight.origin.next true := Prod.ext (congrArg Sight.token hx) (congrArg Sight.lexer hx)
    have hl : (s.token, s.lexer) = s.sight.origin.next false := by
      rw [← hl]
      obtain hx | ⟨hi, -⟩ := hs.lexer
      · exact Prod.ext hs.token.symm hx
      · cases hk.symm.trans hi
    rw [ht, hl]
    exact Lexer.next_stricter _

end ParseState

namespace Parse

variable {c : ParseContext} {s s' : ParseState}

theorem InFunction.function? (h : s.InFunction) : s.scopes.function? ≠ none := by
  obtain ⟨kind, rest, hk, ho⟩ := h
  rcases hs : s.scopes.frames with _ | ⟨f, frames⟩
  · simp [Scopes.outline, hs] at ho
  · simp only [Scopes.outline, hs, List.map_cons, Frame.outline, List.cons.injEq,
      Prod.mk.injEq] at ho
    have hf : f.isBoundary = true := by simpa [Frame.isBoundary, ho.1.1] using hk
    simp [Scopes.function?, hs, hf]

theorem strict_of_enableStrict {directive : Extent} (h : enableStrict directive c s = (.ok (), s'))
    (hf : s.InFunction) :
    s'.strict = true ∧ s'.scopes.outline.length = s.scopes.outline.length ∧ s'.lexer = s.lexer := by
  obtain ⟨-, hn⟩ | ⟨rfl, -⟩ := enableStrict_ok h
  · exact absurd hn (InFunction.function? hf)
  · obtain ⟨kind, rest, hk, ho⟩ := hf
    have ht : (s.onScopes (·.modifyFunction ({ · with strict := true }))).scopes.outline =
        turnedStrict s.scopes.outline :=
      Scopes.outline_strict
    refine ⟨?_, by rw [ht, length_turnedStrict], rfl⟩
    rw [ParseState.strict, Scopes.strict_eq_outline, ht, ho, turnedStrict, if_neg hk]
    rfl

end Parse

namespace Reading

open ParseState (InFunction)

variable {P : Prop} {c : ParseContext} {s s' : ParseState} {close : TokenKind} {as : List Stmt}

theorem inFunction (ho : s'.scopes.outline = s.scopes.outline) (hf : s.InFunction) :
    s'.InFunction := by
  obtain ⟨kind, rest, hk, h⟩ := hf
  exact ⟨kind, rest, hk,
    by rw [ho, h, ParseState.strict, ParseState.strict, Scopes.strict_congr ho]⟩

theorem strict_body (h : Reading .tree P c (.body close s.checkpoint) s as s')
    (hs : s.sight.Settled) (hc : close.isError = false) (hf : s.InFunction) :
    s'.strict = (s.strict || asksForStrict as) := by
  cases h with
  | body h =>
    have ho : s'.strict = s.strict := Scopes.strict_congr h.bare.outline
    cases hl : s.strict with
    | true => rw [ho, hl, Bool.true_or]
    | false => rw [ho, hl, h.asksForStrict_of_sloppy hs hl]; rfl
  | @restartedBody _ s₁ s₂ s₃ _ _ _ before d _ hd hn hk h hi hu hl he hb =>
    have ho : s₂.scopes.outline = s.scopes.outline :=
      h.bare.outline.trans hd.bare.outline
    have hm : s.Moves s₂ := .trans hd.bare.moves h.bare.moves
    obtain ⟨ht, hlen, hx⟩ := Parse.strict_of_enableStrict he (inFunction ho hf)
    have hr : (s₃.restart s₁.token.extent.start s.checkpoint).scopes = s₃.scopes :=
      Scopes.truncate_of_outline (hlen.trans (congrArg List.length ho))
    have ht : (s₃.restart s₁.token.extent.start s.checkpoint).strict = true :=
      (congrArg Scopes.strict hr).trans ht
    have hl : s.strict = false := (Scopes.strict_congr ho).symm.trans hl
    have htwin := ParseState.twin_restart hs hl (hd.string_of_directives hk) (hx ▸ hm.view) ht
    cases hb with
    | body hb =>
      have ho : s'.strict = _ := Scopes.strict_congr hb.bare.outline
      rw [ho, hd.asksForStrict_of_twin hk hn h hi hu hb (ParseState.settled_lex _) hc htwin,
        Bool.or_true]
      exact ht
    | restartedBody hd₂ _ _ h₂ _ _ hl₂ =>
      have ho := h₂.bare.outline.trans hd₂.bare.outline
      cases ht.symm.trans ((Scopes.strict_congr ho).symm.trans hl₂)

end Reading

def Nonterminal.Closes : (g : Nonterminal .tree) → ParseState → Prop
  | .body close _, s | .items close _, s => s.kind = close
  | _, _ => True

theorem Parse.strict_finishFunction {c : ParseContext} {s s' : ParseState} {scope : ScopeSummary}
    (h : finishFunction c s = (.ok scope, s')) : scope.strict = s.strict := by
  unfold finishFunction at h
  rw [ask_run] at h
  rcases hs : s.scopes with ⟨_ | ⟨f, rest⟩⟩ <;>
    simp only [hs, Scopes.top?, List.head?, Prod.mk.injEq, Except.ok.injEq] at h <;>
    rw [← h.1, ParseState.strict, hs]
  · rfl
  · exact f.strict_finish

namespace Reading

open ParseState (InFunction)

variable {P : Prop} {c : ParseContext} {s s' : ParseState}

theorem strict_functionBody {header : Parse.FunctionHeader} {outerIn : Bool}
    {found : FunctionBody Expr Stmt × ScopeSummary}
    (h : Reading .tree P c (.functionBody header outerIn) s found s') (hf : s.InFunction) :
    found.2.strict = (s.strict || found.1.asksForStrict) := by
  cases h with
  | blockBody hk h hs =>
    exact (Parse.strict_finishFunction hs).trans (h.strict_body (ParseState.settled_lex _) rfl hf)
  | expressionBody hk ha h hs =>
    refine (Parse.strict_finishFunction hs).trans (.trans ?_ (Bool.or_false _).symm)
    exact Scopes.strict_congr h.bare.outline

theorem closes {g : Nonterminal .tree} {a : g.Result} (h : Reading .tree P c g s a s') :
    g.Closes s' := by
  induction h with
  | bodyEnd hc => exact hc
  | body _ ih => exact ih
  | restartedBody _ _ _ _ _ _ _ _ _ _ _ ih => exact ih
  | directiveItem _ _ _ _ _ _ _ ih => exact ih
  | bodyItem _ _ _ _ _ _ ih => exact ih
  | _ => trivial

theorem strict_after_function {start : Position} {header : Parse.FunctionHeader} {f : Function}
    (h : Reading .tree P c (.functionParts start header) s f s') :
    s'.strict = s.strict ∧ ∀ body, f.body = .block body →
      ∃ t : ParseState, t.kind = .rightBrace ∧ s'.sight = t.sight.next s.strict := by
  obtain ⟨s₁, rfl, hr⟩ := h.bare
  have hs : s₁.strict = s.strict := Scopes.strict_congr (s := s.scopes) (Walk.RunsInside.outline hr)
  refine ⟨hs, fun body he => ?_⟩
  obtain ⟨_, _, t, -, hb⟩ := hr.body
  rw [he] at hb
  cases hb with
  | @blockBody _ t₁ t₂ _ _ _ _ _ hx hf =>
    have hk : t₁.kind = .rightBrace := hx.closes
    have hp := (Parse.onlyScopes_finishFunction hf).spot
    simp only [ParseState.spot, Prod.mk.injEq] at hp
    refine ⟨t₂, (congrArg Token.kind hp.2.1).trans hk, ?_⟩
    rw [← hs]
    rfl

end Reading

/-- The functions that stand directly in a function or program. -/
def directFunctions : Collector FunctionNode where
  leaf _ := []
  function n _ := [n]
  block _ l := l
  assigned l := l

/-- A function is strict if the code around it is, or if its own prologue asks for it, and only
then. -/
def FunctionNode.IsExact (n : FunctionNode) (outer : Bool) : Prop :=
  n.parts.scope.strict = (outer || n.parts.body.asksForStrict)

/-- So it is with every function that stands directly in a function or program. -/
def Enclosure.IsExact (e : Enclosure FunctionNode) : Prop := ∀ n ∈ e.found, n.IsExact e.scope.strict

namespace Walk

variable {c : ParseContext} {s s₁ s' : ParseState}

theorem inFunction_enter (s : ParseState) (header : Parse.FunctionHeader) :
    (s.enter header).InFunction :=
  ⟨.function, s.scopes.outline, by decide, rfl⟩

theorem exact_function {header : Parse.FunctionHeader} {f : Function} {isDeclaration : Bool}
    {leads : ParseState → List FunctionNode → ParseState → Prop}
    {turns : ParseState → ParseState → Prop} {Holds : Int → Enclosure FunctionNode → Prop}
    (hl : ∀ {s l s'}, leads s l s' → ∀ n ∈ l, n.IsExact s.strict)
    (hr : RunsInside leads turns Holds directFunctions c header (s.enter header) f s₁) :
    (f.enclosure directFunctions isDeclaration).IsExact ∧
    FunctionNode.IsExact ⟨f, isDeclaration⟩ s.strict := by
  obtain ⟨t₁, t₂, t₃, t₄, hp, hq, ht, hb, hf, -⟩ := hr.inside
  have hv : t₁.strict = (s.enter header).strict := Scopes.strict_congr hp.outline
  have hs : f.scope.strict = t₂.strict :=
    (Parse.strict_finishFunction hf).trans (Scopes.strict_congr hb.outline)
  constructor
  · intro n (hn : n ∈ items (_ ++ _))
    rw [Finding.items_append, List.mem_append] at hn
    show n.IsExact f.scope.strict
    obtain hn | hn := hn
    · -- A function that turned strict has plain parameters, in which no function stands.
      by_cases he : t₂.strict = t₁.strict
      · rw [hs, he, hv]
        exact hl hp.leads n hn
      · obtain ⟨names, hx⟩ :=
          plain_of_turned ht he hq (Scopes.isFunction_congr hp.outline) directFunctions
        rw [hx] at hn
        simp [directFunctions] at hn
    · rw [hs]
      exact hl hb.leads n hn
  · obtain ⟨_, _, t, ho, hx⟩ := hr.body
    have hv : t.strict = (s.enter header).strict := Scopes.strict_congr ho
    have hv : t.strict = s.strict := hv
    exact hv ▸ hx.strict_functionBody (Reading.inFunction ho (inFunction_enter s header))

def exact (c : ParseContext) : Walk directFunctions c fun _ => Enclosure.IsExact where
  keeps _ h := h
  leads s l _ := ∀ n ∈ l, n.IsExact s.strict
  turns _ _ := True
  trans {s s₁ s' l l'} ho h h' n hn := by
    have hs : s₁.strict = s.strict := Scopes.strict_congr ho
    exact (List.mem_append.1 hn).elim (h n) fun hn => hs ▸ h' n hn
  settle _ _ _ := by simp
  touch _ := by simp
  firstAccessor _ _ := by simp
  reference _ _ := by simp [directFunctions]
  bind _ _ _ := by simp [directFunctions]
  bindFunction _ := by simp [directFunctions]
  write _ := by simp [directFunctions]
  await _ _ _ := by simp [directFunctions]
  commit _ h _ := h
  withObject _ := by simp [directFunctions]
  delete _ _ := by simp [directFunctions]
  loneFunction _ := by simp [directFunctions]
  block _ h _ := h
  function _ hr _ :=
    have h := exact_function (fun h => h) hr
    ⟨h.1, fun _ hn => List.mem_singleton.1 hn ▸ h.2⟩
  unturned _ := trivial
  turn _ _ _ _ _ _ := trivial
  giveUp _ _ _ := by simp

end Walk

theorem ParseState.inFunction_entered (source : Source) (options : ParseOptions) :
    (ParseState.entered source options).InFunction ∧
      (ParseState.entered source options).strict = options.startsStrict :=
  ⟨⟨.program, [], by decide, rfl⟩, rfl⟩

/-- In an accepted program the code is strict if the options say so or its prologue asks for it, and
a function is strict if the code around it is or its own prologue asks for it; and in no other case.
Behind a function the code is as strict as before it, and the token behind its brace is read so. -/
theorem strict_flags_exact {source : Source} {options : ParseOptions} {p : Program}
    (h : (parseProgram source options).outcome = .ok p) :
    p.strict = (options.startsStrict || asksForStrict p.body) ∧
      (∀ e ∈ p.enclosures directFunctions, ∀ n ∈ e.found,
        n.parts.scope.strict = (e.scope.strict || n.parts.body.asksForStrict)) ∧
      ∀ (c : ParseContext) (levels : Nat) (start : Position) (header : Parse.FunctionHeader)
        (s s' : ParseState)
        (f : Function), Parse.functionParts (Rules.bounded .tree levels) start header c
          s = (.ok f, s') →
        s'.strict = s.strict ∧ ∀ body, f.body = .block body →
          ∃ t : ParseState, t.kind = .rightBrace ∧ s'.sight = t.sight.next s.strict := by
  obtain ⟨hf, hs⟩ := ParseState.inFunction_entered source options
  refine ⟨?_, fun e he => ?_, fun c levels start header s s' f hr => ?_⟩
  · obtain ⟨span, body, scope, s, hr, hx, rfl⟩ := Parse.runProgram_read (Prod.ext h rfl)
    rw [← hs]
    exact (Parse.strict_finishFunction hx).trans (hr.strict_body (ParseState.settled_lex _) rfl hf)
  · refine (Walk.exact _).forall_enclosures (fun {s₁ s₂ s₃ l scope} ht hl hx => ?_)
      (Prod.ext h rfl) e he
    have hs : scope.strict = s₁.strict :=
      (Parse.strict_finishFunction hx).trans (Scopes.strict_congr hl.outline)
    intro n hn
    exact hs ▸ hl.leads n hn
  · exact (Parse.functionParts_read (Parse.bounded_reads .tree c levels) hr).strict_after_function

/-- The program is `function f(a){'a';'use strict';function g(){}}`. -/
theorem strict_flags_exact_in_nested_functions :
    let source := Source.ofString "function f(a)\x7b'a';'use strict';function g()\x7b\x7d\x7d" ""
    ∃ p, (parseProgram source {}).outcome = .ok p ∧
      p.strict = asksForStrict p.body ∧ ∀ e ∈ p.enclosures directFunctions, e.IsExact := by
  intro source
  have h : (parseProgram source {}).outcome.isOk = true := by decide +kernel
  cases ho : (parseProgram source {}).outcome with
  | ok p =>
    obtain ⟨hp, he, -⟩ := strict_flags_exact ho
    exact ⟨p, rfl, hp, he⟩
  | error e => simp [ho, Except.isOk, Except.toBool] at h

end EcmaFront
