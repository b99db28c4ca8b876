import EcmaFront.Proofs.Passage

/-!
A statement or an expression begins with a token that stands for something, and leaves at least that
token behind. So a list of statements is never longer than its text.
-/

set_option autoImplicit false

namespace EcmaFront

namespace Sight

/-- The current token is looked behind or read again in the same mode, any number of times. -/
inductive Again (x : Sight) : Sight → Prop where
  | refl : Again x x
  | reread {y : Sight} (h : Again x y) : Again x (y.reread y.strict)
  | lookAhead {y : Sight} (h : Again x y) (hk : y.token.kind = .identifier) : Again x y.lookAhead

namespace Again

variable {x y z : Sight}

theorem trans (h : Again x y) (h' : Again y z) : Again x z := by
  induction h' with
  | refl => exact h
  | reread _ ih => exact .reread ih
  | lookAhead _ hk ih => exact .lookAhead ih hk

theorem moves (h : Again x y) : Moves false x y := by
  induction h with
  | refl => exact .refl x
  | reread _ ih => exact ih.trans (Step.reread _).moves
  | lookAhead _ hk ih => exact ih.trans (Step.lookAhead hk).moves

theorem position (h : Again x y) (hs : x.Settled) : y.position = x.position := by
  induction h with
  | refl => rfl
  | reread h ih => exact ((hs.moves h.moves).position_reread _).trans ih
  | lookAhead _ _ ih => exact ih

theorem token (h : Again x y) (hs : x.Settled) (hk : x.token.kind ≠ .eof) :
    y.token = x.token ∧ y.tokenStart = x.tokenStart := by
  induction h with
  | refl => exact ⟨rfl, rfl⟩
  | reread h ih =>
    obtain ⟨ht, ho⟩ := (hs.moves h.moves).reread (ih.1 ▸ hk)
    exact ⟨ht.trans ih.1, ho.trans ih.2⟩
  | lookAhead _ _ ih => exact ih

theorem ne_eof (h : Again x y) (hs : x.Settled) (hk : y.token.kind ≠ .eof) :
    x.token.kind ≠ .eof := fun he => by
  have hp := h.position hs
  have hl : x.lexer.view.limit ≤ x.token.extent.start := hs.advances.atEnd he
  have hi : y.token.extent.start < y.lexer.view.limit := (hs.moves h.moves).advances.inside hk
  simp only [Sight.position, h.moves.view] at hp hi
  omega

theorem kind_ne (h : Again x y) (hs : x.Settled) {kind : TokenKind} (hk : x.token.kind ≠ kind)
    (hn : kind ≠ .eof) :
    y.token.kind ≠ kind := fun he =>
  hk ((congrArg Token.kind (h.token hs (h.ne_eof hs (he ▸ hn))).1).symm.trans he)

end Again

/-- What is read between two places begins with a token that stands for something, and leaves it
behind. -/
structure Consumes (x y : Sight) : Prop where
  moves : Moves false x y
  forward : x.Settled → x.token.kind.isSolid = true ∧ x.position < y.position

theorem Consumes.then_moves {x y z : Sight} (h : x.Consumes y) (hm : Moves false y z) :
    x.Consumes z where
  moves := h.moves.trans hm
  forward hs := ⟨(h.forward hs).1, Nat.lt_of_lt_of_le (h.forward hs).2
    ((hs.moves h.moves).position_moves hm)⟩

theorem Consumes.again {x y z : Sight} (ha : x.Again y) (h : y.Consumes z) : x.Consumes z where
  moves := ha.moves.trans h.moves
  forward hs := by
    obtain ⟨hk, hp⟩ := h.forward (hs.moves ha.moves)
    rw [(ha.token hs (ha.ne_eof hs (TokenKind.ne_eof_of_isSolid hk))).1] at hk
    exact ⟨hk, ha.position hs ▸ hp⟩

end Sight

namespace ParseState

variable {s s₁ s' : ParseState}

theorem again_rewind {t : ParseState} (hv : t.lexer.view = s.lexer.view)
    (hs : (t.rewind s.checkpoint).strict = s.strict) :
    s.sight.Again (t.rewind s.checkpoint).sight := by
  rw [sight_rewind hv, hs]
  exact .reread .refl

theorem Glances.again (h : s.Glances s') : s.sight.Again s'.sight := by
  cases h with
  | none => exact .refl
  | back h => exact again_rewind h.view (congrArg Scopes.strict h.rewind.scopes)

theorem again_of_colonFollows {c : ParseContext} {found : Bool} (hk : s.kind = .identifier)
    (h : Parse.colonFollows c s = (.ok found, s')) : s.sight.Again s'.sight := by
  simp only [Parse.colonFollows, Parse.ask_run, Prod.mk.injEq] at h
  obtain ⟨-, rfl⟩ := h
  exact .lookAhead .refl hk

/-- What is read between the states begins with a token that stands for something, and leaves it
behind. -/
def Consumes (s s' : ParseState) : Prop := s.sight.Consumes s'.sight

namespace Consumes

theorem moves (h : s.Consumes s') : s.Moves s' := Sight.Consumes.moves h

theorem of_kind {kind : TokenKind} (hk : s.kind = kind) (h : s.next.Moves s')
    (hs : kind.isSolid = true) : s.Consumes s' where
  moves := ParseState.Moves.trans (.next s) h
  forward hs' := by
    have hk : s.sight.token.kind.isSolid = true := (congrArg _ hk).trans hs
    have hn := hs'.position_step (.next s.strict)
    have hm := (hs'.step (.next s.strict)).position_moves (y := s'.sight) h
    rw [hk] at hn
    exact ⟨hk, Nat.lt_of_lt_of_le hn hm⟩

theorem readRegexp (hk : s.kind = .slash ∨ s.kind = .slashEqual) :
    s.Consumes s.readRegexp.next where
  moves := (Sight.Step.regexp hk).moves.forget
  forward hs := by
    have hs' : s.sight.token.kind.isSolid = true := by
      obtain hk | hk := hk <;> exact (congrArg _ hk).trans rfl
    have hp := hs.position_step (.regexp hk)
    rw [hs'] at hp
    exact ⟨hs', hp⟩

theorem then_moves (h : s.Consumes s₁) (hm : s₁.Moves s') : s.Consumes s' :=
  Sight.Consumes.then_moves h hm

theorem moves_then (hg : s.sight.Again s₁.sight) (h : s₁.Consumes s') : s.Consumes s' :=
  Sight.Consumes.again hg h

theorem after (hk : s.kind.isSolid = true) (hm : s.Moves s₁) (h : s₁.Consumes s') :
    s.Consumes s' where
  moves := hm.trans h.moves
  forward hs := ⟨hk, Nat.lt_of_le_of_lt (hs.position_moves hm) (h.forward (hs.moves hm)).2⟩

theorem rest_lt (h : s.Consumes s') (hs : s.sight.Settled) : s'.sight.rest < s.sight.rest := by
  have hv : s'.lexer.view = s.lexer.view := h.moves.view
  have hp := (h.forward hs).2
  have hl : s'.sight.position ≤ s'.lexer.view.limit := s'.sight.position_le
  show s'.lexer.view.limit - _ < s.lexer.view.limit - _
  rw [hv] at hl ⊢
  omega

theorem of_again {kind : TokenKind} (hk : s.kind = kind) (ha : s.sight.Again s₁.sight)
    (h : s₁.next.Moves s') (hs : kind.isSolid = true) : s.Consumes s' where
  moves := ha.moves.trans (ParseState.Moves.trans (.next s₁) h)
  forward hs' := by
    have hn : s.sight.token.kind ≠ .eof := TokenKind.ne_eof_of_isSolid ((congrArg _ hk).trans hs)
    have hk₁ : s₁.kind = kind := (congrArg Token.kind (ha.token hs' hn).1).trans hk
    exact (moves_then ha (of_kind hk₁ h hs)).forward hs'

end Consumes

end ParseState

def Collector.silent : Collector Empty where
  leaf _ := []
  function _ _ := []
  block _ l := l
  assigned l := l

/-- Nothing is asked of the states but what holds on every way. -/
def Walk.bare (c : ParseContext) : Walk .silent c fun _ _ => True where
  keeps _ h := h
  leads _ _ _ := True
  turns _ _ := True
  trans _ _ _ := trivial
  settle _ _ _ := trivial
  touch _ := trivial
  firstAccessor _ _ := trivial
  reference _ _ := trivial
  bind _ _ _ := trivial
  bindFunction _ := trivial
  write _ := trivial
  await _ _ _ := trivial
  commit _ _ _ := trivial
  withObject _ := trivial
  delete _ _ := trivial
  loneFunction _ := trivial
  block _ _ _ := trivial
  function _ _ _ := ⟨trivial, trivial⟩
  unturned _ := trivial
  turn _ _ _ _ _ _ := trivial
  giveUp _ _ _ := trivial

theorem Reading.bare {P : Prop} {c : ParseContext} {g : Nonterminal .tree} {s s' : ParseState}
    {a : g.Result} (h : Reading .tree P c g s a s') : (Walk.bare c).Reads g s a s' :=
  (Walk.bare c).reads h

namespace Reading

open ParseState (Consumes)
open Parse (Ends)

variable {P : Prop} {c : ParseContext} {s s' : ParseState}

theorem again_of_no_attempt {accept : ParseState → Bool}
    (ha : ∀ s j, accept (s.withJournal j) = accept s) {found : Option Pat}
    (h : Reading .tree P c (.attempt accept) s found s') (hf : found = none) :
    s.sight.Again s'.sight := by
  cases h with
  | noBracket => exact .refl
  | noAttempt _ hf => exact (Parse.followsBrackets_glances ha hf).again
  | attempt => cases hf
  | @givenUp _ s₁ t _ _ _ _ _ hb h =>
    have hg := Parse.followsBrackets_glances ha hb
    have ho : (t.backtrack s₁.checkpoint).scopes.outline = s₁.scopes.outline :=
      Scopes.outline_grown (Parse.grown_of_giveUp h).1
    refine hg.again.trans ?_
    have hv : t.lexer.view = s₁.lexer.view := Parse.view_of_attempt h
    exact ParseState.again_rewind (t := { t with events := _ }) hv (Scopes.strict_congr ho)

theorem accepted {accept : ParseState → Bool} {a : Pat}
    (h : Reading .tree P c (.attempt accept) s (some a) s') :
    s.atBracket = true ∧ ∃ t : ParseState, accept t = true ∧ s'.token = t.token := by
  cases h with
  | attempt hk hf h ha hw =>
    have hs := (Parse.commitWrites_ok (g := Frame.outline) (fun _ _ => rfl) hw).2.spot
    simp only [ParseState.spot, Prod.mk.injEq] at hs
    exact ⟨hk, _, ha, hs.2.1⟩

end Reading

theorem TokenKind.isSolid_of_isUnary {kind : TokenKind} (h : kind.isUnary = true) :
    kind.isSolid = true := by
  revert h
  cases kind <;> decide

theorem TokenKind.isSolid_of_binaryOp {kind : TokenKind} {op : BinaryOp}
    (h : BinaryOp.ofToken? kind = some op) :
    kind.isSolid = true := by
  cases kind <;> first | rfl | cases h

theorem Token.isSolid_of_literal? {t : Token} {make : Span → Expr}
    (h : t.literal? .tree = some make) :
    t.kind.isSolid = true := by
  unfold literal? at h
  split at h
  case h_7 => cases h
  all_goals next hk => rw [hk]; rfl

namespace ParseState

variable {s : ParseState}

theorem isSolid_of_atBracket (h : s.atBracket = true) : s.kind.isSolid = true := by
  simp only [atBracket, Bool.or_eq_true, beq_iff_eq] at h
  obtain hk | hk := h <;> rw [hk] <;> rfl

theorem isSolid_of_atBindingName (h : s.atBindingName = true) : s.kind.isSolid = true := by
  simp only [atBindingName, Bool.or_eq_true, Bool.and_eq_true, beq_iff_eq] at h
  obtain hk | ⟨hk, -⟩ := h <;> rw [hk] <;> rfl

theorem isSolid_of_reference? {name : String} (h : s.reference? = some name) :
    s.kind.isSolid = true := by
  unfold reference? at h
  split at h
  · next hk => rw [hk]; rfl
  · split at h
    · next hk => rw [hk.1]; rfl
    · cases h

end ParseState

/-- What is consumed where a phrase is read. There may be no `new`, and what is behind a declaring
keyword is only known not to go back. -/
def Nonterminal.Consumes : (g : Nonterminal .tree) → ParseState → g.Result → ParseState → Prop
  | .item, s, _, s' | .statement, s, _, s' | .statementInside, s, _, s' | .block, s, _, s'
  | .expression, s, _, s' | .assignment, s, _, s' | .assignmentInside, s, _, s'
  | .plainAssignment, s, _, s'
  | .conditional, s, _, s' | .binary, s, _, s' | .operand, s, _, s' | .unary _, s, _, s'
  | .postfixed, s, _, s'
  | .leftHandSide, s, _, s' | .head, s, _, s' | .primary, s, _, s' | .parameters _, s, _, s'
  | .functionNode _ _, s, _, s' | .functionParts _ _, s, _, s' => s.Consumes s'
  | .functionInside _ _ _, s, _, s' => s'.strict = s.strict → s.Consumes s'
  | .functionDeclaration, s, _, s' | .variableStatement _, s, _, s' => s.next.Moves s'
  | .news _, s, found, s' => found.2 = none ∧ s' = s ∨ s.Consumes s'
  | _, _, _, _ => True

namespace Reading

open ParseState (Consumes)
open Parse (atLetDeclaration_glances atArrowFunction_glances labelsLoop_glances)

variable {P : Prop} {c : ParseContext} {s s' : ParseState}

/-- By induction along the front of the text: a phrase begins with its keyword or bracket, or with
the phrase in front of it. -/
theorem consumes {g : Nonterminal .tree} {a : g.Result} (h : Reading .tree P c g s a s') :
    g.Consumes s a s' := by
  let w := Walk.bare c
  have reads {g : Nonterminal .tree} {s a s'} (h : Reading .tree P c g s a s') :
      w.Reads g s a s' := w.reads h
  have ends {s s'} (h : Parse.Ends s s') : s.Moves s' := (Walk.ends (w := w) h).moves
  induction h with
  | itemFunction hk _ ih | itemConst hk _ ih | varStatement hk _ ih | functionStatement hk _ _ ih =>
    exact .of_kind hk ih rfl
  | itemLet hk hl _ ih => exact .of_again hk (atLetDeclaration_glances hl).again ih rfl
  | itemLetName _ hl _ ih => exact .moves_then (atLetDeclaration_glances hl).again ih
  | itemStatement _ _ ih | statement _ _ ih | blockStatement _ _ ih | assignment _ _ ih
  | noAssignment _ _ ih | noConditional _ _ ih | operand _ ih | noUnary _ _ ih | noPostfix _ _ ih
  | primaryHead _ _ ih | single _ _ ih => exact ih
  | emptyStatement hk => exact .of_kind hk (.of_sight rfl) rfl
  | ifStatement hk ht hc => exact .of_kind hk ((reads ht).moves.trans (reads hc).1.moves) rfl
  | ifElseStatement hk ht hc _ ha =>
    have hb := (reads hc).1.moves.trans (.trans (.next _) (reads ha).1.moves)
    exact .of_kind hk ((reads ht).moves.trans hb) rfl
  | forStatement hk _ h =>
    have hf : w.Leads _ _ _ := (reads h).finishes (Walk.refl _)
    exact .of_kind hk (.trans (.next _) hf.moves) rfl
  | whileStatement hk ht hb => exact .of_kind hk ((reads ht).moves.trans (reads hb).moves) rfl
  | doWhileStatement hk hb _ ht he =>
    subst he
    refine .of_kind hk ((reads hb).moves.trans (.trans (.next _) ((reads ht).moves.trans ?_))) rfl
    split
    · exact .next _
    · exact .of_sight rfl
  | continueStatement hk h | breakStatement hk h =>
    exact .of_kind hk (Walk.jump (w := w) h).1.moves rfl
  | returnStatement hk _ _ he | debuggerStatement hk he => exact .of_kind hk (ends he) rfl
  | returnValueStatement hk _ _ h he | throwStatement hk _ h he =>
    exact .of_kind hk ((reads h).moves.trans (ends he)) rfl
  | withStatement hk _ ho hb =>
    have ha : w.Leads _ _ _ := Walk.nil_append (Walk.touched .activate _) (reads hb).1
    exact .of_kind hk ((reads ho).moves.trans ha.moves) rfl
  | @switchStatement _ s₁ s₂ s' _ _ _ hk hd _ hc _ hf =>
    have hc : w.Leads (s₁.next.onScopes .pushBlock) _ (s₂.onScopes .endSwitch).next :=
      Walk.nil_append (Walk.beginSwitch _)
        (Walk.then_next (Walk.append_nil (reads hc) (Walk.endSwitch _)))
    have hb : w.Leads s₁.next _ s' := Walk.inBlock hc hf
    exact .of_kind hk ((reads hd).moves.trans (.trans (.next _) hb.moves)) rfl
  | tryCatch hk hg _ hh =>
    obtain ⟨_, -, hl⟩ := reads hg
    exact .of_kind hk (hl.moves.trans (reads hh).moves) rfl
  | tryFinally hk hg _ _ hb =>
    obtain ⟨_, -, hl⟩ := reads hg
    obtain ⟨_, -, hl'⟩ := reads hb
    exact .of_kind hk (hl.moves.trans (.trans (.next _) hl'.moves)) rfl
  | tryCatchFinally hk hg _ hh _ hb =>
    obtain ⟨_, -, hl⟩ := reads hg
    obtain ⟨_, -, hl'⟩ := reads hb
    exact .of_kind hk (hl.moves.trans ((reads hh).moves.trans (.trans (.next _) hl'.moves))) rfl
  | letExpressionStatement _ hl _ he ih =>
    exact .moves_then (atLetDeclaration_glances hl).again (ih.then_moves (ends he))
  | labeledStatement hk hc _ _ hl h =>
    have hb : w.Leads _ _ _ :=
      Walk.nil_append (Walk.pushLabel _ _ _) (Walk.append_nil (reads h).1 (Walk.popLabel _))
    refine .of_again hk (ParseState.again_of_colonFollows hk hc) (.trans (.next _) ?_) rfl
    exact .trans (labelsLoop_glances hl).moves hb.moves
  | nameStatement hk hc _ he ih =>
    exact .moves_then (ParseState.again_of_colonFollows hk hc) (ih.then_moves (ends he))
  | expressionStatement _ _ he ih => exact ih.then_moves (ends he)
  | @functionDeclaration s s₁ _ s' _ _ _ hd hn h hr =>
    obtain ⟨_, rfl, hf⟩ := reads h
    have hh := Walk.fits_declaration hd hn
    have hf : w.Leads s₁.next _ s' := Walk.throughFunction (s := s₁.next) hh hf hr
    have hd : w.Leads _ _ _ := Walk.declaresFunction hd hn
    exact hd.moves.trans (.trans (.next _) hf.moves)
  | variableStatement h he => exact (reads h).moves.trans (ends he)
  | block hk h _ hf =>
    have hb : w.Leads _ _ _ := Walk.inBlock (Walk.then_next (reads h)) hf
    exact .of_kind hk hb.moves rfl
  | arrowFunction ha _ ih => exact .moves_then (atArrowFunction_glances ha).again ih
  | @patternAssignment _ _ s₂ s' _ _ ha ht hv =>
    obtain ⟨hb, _, he, hs⟩ := accepted ht
    have he : s₂.kind = .equal := (congrArg Token.kind hs).trans (beq_iff_eq.1 he)
    have hv : s₂.Consumes s' := .of_kind he (reads hv).moves rfl
    have ht : w.Leads _ _ _ := reads ht fun _ _ => rfl
    exact .moves_then (atArrowFunction_glances ha).again
      (.after (ParseState.isSolid_of_atBracket hb) ht.moves hv)
  | noPatternAssignment ha ht _ _ ih =>
    have hg := (atArrowFunction_glances ha).again.trans
      (again_of_no_attempt (fun _ _ => rfl) ht rfl)
    exact .moves_then hg ih
  | targetAssignment _ _ _ hw hv ih =>
    have hw : w.Leads _ _ _ := Walk.noteAssignment hw
    exact ih.then_moves (hw.moves.trans (.trans (.next _) (reads hv).moves))
  | conditional _ _ hc _ ha iht =>
    exact iht.then_moves
      (.trans (.next _) ((reads hc).moves.trans (.trans (.next _) (reads ha).moves)))
  | binary _ hr ih =>
    obtain ⟨_, -, hl⟩ := reads hr
    exact ih.then_moves hl.moves
  | prefixUpdate hk h _ _ hw =>
    have hw : w.Leads _ _ _ := Walk.noteAssignment hw
    exact .of_kind rfl ((reads h).moves.trans hw.moves) (TokenKind.isSolid_of_isUnary hk)
  | prefixUnary hk h => exact .of_kind rfl (reads h).moves (TokenKind.isSolid_of_isUnary hk)
  | postfixUpdate _ _ _ _ hw ih =>
    have hw : w.Leads _ _ _ := Walk.noteAssignment hw
    exact ih.then_moves (hw.moves.trans (.next _))
  | leftHandSide _ _ hm ihn ih =>
    obtain ⟨_, -, hl⟩ := reads hm
    obtain ⟨-, rfl⟩ | hc := ihn
    · exact ih.then_moves hl.moves
    · exact hc.then_moves (ih.moves.trans hl.moves)
  | newTargetSide hn hm ihn =>
    obtain ⟨_, -, hl⟩ := reads hm
    obtain ⟨he, -⟩ | hc := ihn
    · cases he
    · exact hc.then_moves hl.moves
  | noNews => exact .inl ⟨rfl, rfl⟩
  | newTarget hk _ h =>
    exact .inr (.of_kind hk (.trans (.next _) (Walk.newTarget (w := w) h).moves) rfl)
  | moreNews hk _ h => exact .inr (.of_kind hk (reads h).moves rfl)
  | superHead hk h => exact .of_kind hk (Walk.superExpression (w := w) h).moves rfl
  | functionExpression hk _ h => exact .of_kind hk (reads h ⟨rfl, nofun⟩).moves rfl
  | namedFunctionExpression hk _ h =>
    exact .of_kind hk (.trans (.next _) (reads h ⟨rfl, nofun⟩).moves) rfl
  | group hk h | array hk h | object hk h => exact .of_kind hk ((reads h).moves.trans (.next _)) rfl
  | literal hk => exact .of_kind rfl (.of_sight rfl) (Token.isSolid_of_literal? hk)
  | reference hk =>
    exact .of_kind rfl (.still rfl (Scopes.outline_modifyTop fun _ => rfl))
      (ParseState.isSolid_of_reference? hk)
  | regexp hk => exact .readRegexp hk
  | sequence _ _ hs ih => exact ih.then_moves (reads hs).moves
  | functionNode _ hr ih =>
    obtain ⟨hs, -, -, -, hp⟩ := Parse.recordFunction_ok hr
    exact ih.then_moves (.of_sight (ParseState.sight_congr hp (congrArg Scopes.strict hs)))
  | @functionParts s s' _ _ _ h ih =>
    have ho : s'.scopes.outline = s.scopes.outline := Walk.RunsInside.outline (reads h)
    exact ih (Scopes.strict_congr (s := s.scopes) ho)
  | @functionInside s s₁ _ s₃ _ _ _ _ _ _ _ hp hc ha hb ihp =>
    intro hs
    obtain ⟨_, _, _, _, -, -, -, -, -, hm⟩ := reads hb
    have hn : w.Leads s₁ [] s₃ := Walk.nil_append (Walk.checkParameters hc) (Walk.arrow ha)
    have ho : s₃.scopes.outline = s.scopes.outline := hn.outline.trans (reads hp).1.outline
    exact ihp.then_moves (hn.moves.trans (hm (hs.trans (Scopes.strict_congr ho).symm)))
  | soleParameter _ hk h =>
    have hb : w.Leads _ _ _ := Walk.bindingName (by nofun) h
    exact .of_kind rfl hb.moves (ParseState.isSolid_of_atBindingName hk)
  | parameters _ ho h => exact .of_kind ho ((reads h).1.moves.trans (.next _)) rfl
  | _ => trivial

end Reading

end EcmaFront
