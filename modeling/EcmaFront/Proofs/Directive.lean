import EcmaFront.Proofs.Consumption
import EcmaFront.Tree.Prologue

/-!
Which statements are directives is told by their first token and the one behind it: a string that
nothing goes on with. A string in parentheses is none, since its statement begins before it.
-/

set_option autoImplicit false

namespace EcmaFront

open Parse (Ends)

namespace ParseState

def literal (s : ParseState) : Expr := .string (s.next.spanFrom s.start) s.token.text

/-- The current token goes on with an operand that ended before it. -/
def GoesOn (s : ParseState) : Prop :=
  s.kind ∈ [.dot, .leftBracket, .leftParen, .backQuote, .question, .comma] ∨
    (UpdateOp.ofToken? s.kind ≠ none ∧ s.newline = false) ∨ s.binaryOp? ≠ none ∨
    AssignOp.ofToken? s.kind ≠ none

theorem next_deeper (s : ParseState) : s.deeper.next = s.next.deeper := rfl

theorem shallower_deeper (s : ParseState) : s.deeper.shallower = s := rfl

end ParseState

theorem Parse.Ends.shallower {s s' : ParseState} (h : Ends s.deeper s') : Ends s s'.shallower := by
  cases h with
  | semicolon hs =>
    rw [ParseState.next_deeper, ParseState.shallower_deeper]
    exact .semicolon hs
  | omitted hs hm => exact .omitted hs hm

/-- An expression that is a string literal begins where it was read, and later unless the first
token is one. -/
def Expr.StartsFrom (e : Expr) (s : ParseState) : Prop :=
  s.sight.Settled → ∀ span value, e = .string span value →
    s.sight.position ≤ span.start.offset ∧ (s.kind ≠ .string → s.sight.position < span.start.offset)

namespace Expr.StartsFrom

variable {e : Expr} {s s₁ : ParseState}

theorem of_not_string (h : e.isString = false) : e.StartsFrom s := fun _ _ _ he => by
  rw [he] at h
  cases h

theorem again (ha : s.sight.Again s₁.sight) (h : e.StartsFrom s₁) :
    e.StartsFrom s := fun hs span value he => by
  obtain ⟨hp, hn⟩ := h (hs.moves ha.moves) span value he
  rw [ha.position hs] at hp hn
  exact ⟨hp, fun hk => hn (ha.kind_ne hs hk (by decide))⟩

theorem group (hk : s.kind = .leftParen) (h : e.StartsFrom s.next) :
    e.StartsFrom s := fun hs span value he => by
  have hn := (ParseState.Consumes.of_kind hk (.of_sight rfl) rfl).forward hs
  have hp := (h (hs.step (.next s.strict)) span value he).1
  have hl : s.sight.position < span.start.offset := Nat.lt_of_lt_of_le hn.2 hp
  exact ⟨Nat.le_of_lt hl, fun _ => hl⟩

theorem literal {make : Span → Expr} (hk : s.token.literal? .tree = some make) :
    (make (s.next.spanFrom s.start)).StartsFrom s := fun _ span value he => by
  unfold Token.literal? at hk
  split at hk
  all_goals cases hk
  case h_6 hk =>
    cases he
    exact ⟨Nat.min_le_left _ _, fun hn => absurd hk hn⟩
  all_goals cases he

theorem directive?_eq_none (h : e.StartsFrom s) (hs : s.sight.Settled) (hn : s.kind ≠ .eof)
    (hk : s.kind ≠ .string) (stop : Position) :
    (Stmt.expression ⟨s.start, stop⟩ e).directive? = none := by
  unfold Stmt.directive?
  split
  · next span literal value he =>
    cases he
    obtain ⟨-, hp⟩ := h hs literal value rfl
    have hi : s.token.extent.start < s.lexer.view.limit := hs.advances.inside hn
    refine if_neg fun he => ?_
    have hp : min s.token.extent.start s.lexer.view.limit < literal.start.offset := hp hk
    rw [← he] at hp
    replace hp : min s.token.extent.start s.lexer.view.limit < s.token.extent.start := hp
    omega
  · rfl

end Expr.StartsFrom

/-- What the first token tells of a phrase that may turn out to be a string literal. -/
def Nonterminal.Starts : (g : Nonterminal .tree) → ParseState → g.Result → ParseState → Prop
  | .item, s, a, _ | .statement, s, a, _ | .statementInside, s, a, _ =>
    s.sight.Settled → s.kind ≠ .string → a.directive? = none
  | .functionDeclaration, _, a, _ | .variableStatement _, _, a, _ | .block, _, a, _
  | .forHead _, _, a, _
  | .declaringLoop _ _, _, a, _ | .assigningLoop _, _, a, _ | .expressionLoop _, _, a, _
  | .countedLoop _ _, _, a, _ | .eachLoop _ _ _, _, a, _ => a.directive? = none
  | .expression, s, e, _ | .assignment, s, e, _ | .assignmentInside, s, e, _
  | .plainAssignment, s, e, _
  | .conditional, s, e, _ | .binary, s, e, _ | .unary _, s, e, _ | .postfixed, s, e, _
  | .leftHandSide, s, e, _
  | .head, s, e, _ | .primary, s, e, _ => e.StartsFrom s
  | .operand, s, e, _ => e.expression.StartsFrom s
  | .functionNode _ _, _, e, _ => e.isString = false
  | .binaryRest scan, s, e, s' =>
    e.isString = true → s' = s ∧ s.binaryOp? = none ∧ scan.waiting = [] ∧
      e = scan.operand.expression
  | .members _ _ chain, s, chain', s' => chain'.expression.isString = true → s' = s ∧ chain' = chain
  | .news waiting, s, found, s' =>
    waiting.length ≤ found.1.length ∧ found.2.any (·.isString) = false ∧
    (found.2 = none → found.1.length = waiting.length → s' = s)
  | _, _, _, _ => True

theorem Expr.isString_news (news : List Position) (stop : Position) (e : Expr)
    (h : (news.foldl (fun e new => .construct ⟨new, stop⟩ e none) e).isString = true) :
    news = [] := by
  have hn (news : List Position) (e : Expr) (he : e.isString = false) :
      (news.foldl (fun e new => .construct ⟨new, stop⟩ e none) e).isString = false := by
    induction news generalizing e with
    | nil => exact he
    | cons new rest ih => exact ih _ rfl
  cases news with
  | nil => rfl
  | cons new rest => rw [List.foldl_cons, hn rest _ rfl] at h; cases h

namespace Parse

theorem waiting_of_isString {waiting : List (Waiting Expr)} {operand : Placed Expr}
    (h : (reduce (B := .tree) 0 waiting operand).2.expression.isString = true) : waiting = [] := by
  have hn (waiting : List (Waiting Expr)) (operand : Placed Expr)
      (ho : operand.expression.isString = false) :
      (reduce (B := .tree) 0 waiting operand).2.expression.isString = false := by
    induction waiting generalizing operand with
    | nil => exact ho
    | cons w rest ih =>
      rw [reduce, if_pos (Nat.zero_le _)]
      exact ih _ rfl
  cases waiting with
  | nil => rfl
  | cons w rest =>
    rw [reduce, if_pos (Nat.zero_le _), hn rest _ rfl] at h
    cases h

variable {c : ParseContext} {s s' : ParseState} {a : Expr}

theorem isString_newTarget {new : ParseState} (h : newTarget (B := .tree) new c s = (.ok a, s')) :
    a.isString = false := by
  simp only [newTarget, state_bind, ite_ok, unexpected_ok, and_false, false_or, next_bind,
    spanFrom_bind, pure_ok, failAt_ok, or_false] at h
  obtain ⟨-, -, rfl, -⟩ := h
  rfl

theorem isString_superExpression (h : superExpression (B := .tree) c s = (.ok a, s')) :
    a.isString = false := by
  simp only [superExpression, state_bind, next_bind] at h
  replace h : Yields _ c _ _ := h
  split at h
  all_goals
    simp only [Yields, bind_ok, ite_ok, modifyScopes_run, failAt_ok, and_false, or_false,
      Prod.mk.injEq, spanFrom_bind, pure_ok, false_and, exists_false] at h
  all_goals
    obtain ⟨-, _, _, -, rfl, -⟩ := h
    rfl

end Parse

namespace Reading

open Parse (atLetDeclaration_glances atArrowFunction_glances)

variable {P : Prop} {c : ParseContext} {s s' : ParseState}

theorem not_directive {e : Expr} (h : Reading .tree P c .expression s e s') (hb : e.StartsFrom s)
    (hs : s.sight.Settled) (hk : s.kind ≠ .string) (stop : Position) :
    (Stmt.expression ⟨s.start, stop⟩ e).directive? = none := by
  have hc : s.Consumes s' := h.consumes
  exact hb.directive?_eq_none hs (TokenKind.ne_eof_of_isSolid (hc.forward hs).1) hk stop

/-- By induction along the front of the text. -/
theorem starts {g : Nonterminal .tree} {a : g.Result} (h : Reading .tree P c g s a s') :
    g.Starts s a s' := by
  induction h with
  | itemFunction hk h ih => exact fun _ _ => ih
  | itemConst hk h ih => exact fun _ _ => ih
  | itemLet hk hl h ih => exact fun _ _ => ih
  | itemLetName hk hl h ih =>
    have ha := (atLetDeclaration_glances hl).again
    exact fun hs hn => ih (hs.moves ha.moves) (ha.kind_ne hs hn (by decide))
  | itemStatement hk h ih => exact ih
  | statement hn h ih => exact ih
  | blockStatement hk h ih => exact fun _ _ => ih
  | varStatement hk h ih => exact fun _ _ => ih
  | forStatement hk ho h ih => exact fun _ _ => ih
  | continueStatement hk h =>
    obtain ⟨-, _, _, rfl⟩ := Walk.jump (w := Walk.bare c) h
    exact fun _ _ => rfl
  | breakStatement hk h =>
    obtain ⟨-, _, _, rfl⟩ := Walk.jump (w := Walk.bare c) h
    exact fun _ _ => rfl
  | functionStatement hk hs h ih => exact fun _ _ => ih
  | letExpressionStatement hk hl h he ih =>
    have ha := (atLetDeclaration_glances hl).again
    exact fun hs hn => h.not_directive ih (hs.moves ha.moves) (ha.kind_ne hs hn (by decide)) _
  | nameStatement hk hc h he ih =>
    have ha := ParseState.again_of_colonFollows hk hc
    exact fun hs hn => h.not_directive ih (hs.moves ha.moves) (ha.kind_ne hs hn (by decide)) _
  | expressionStatement hk h he ih => exact fun hs hn => h.not_directive ih hs hn _
  | emptyStatement | ifStatement | ifElseStatement | whileStatement | doWhileStatement
  | returnStatement
  | returnValueStatement | withStatement | switchStatement | throwStatement | tryCatch | tryFinally
  | tryCatchFinally
  | debuggerStatement | labeledStatement => exact fun _ _ => rfl
  | functionDeclaration | variableStatement | block | countedLoop | forOf | forIn => rfl
  | emptyHead _ _ ih | declaringHead _ _ _ ih | assigningHead _ _ _ ih | declaringEach _ _ _ _ _ ih
  | declaringCounted _ _ _ _ _ ih | patternEach _ _ _ _ ih | noPatternLoop _ _ _ ih
  | expressionEach _ _ _ _ _ _ ih | expressionCounted _ _ _ _ ih => exact ih
  | assignment hn h ih => exact ih
  | arrowFunction ha h ih => exact .of_not_string ih
  | noPatternAssignment ha ht h iht ih =>
    have hg := (atArrowFunction_glances ha).again.trans
      (again_of_no_attempt (fun _ _ => rfl) ht rfl)
    exact .again hg ih
  | noAssignment h hk ih => exact ih
  | noConditional h hk ih => exact ih
  | patternAssignment | targetAssignment | conditional | prefixUpdate | prefixUnary | postfixUpdate
  | array | object
  | reference | regexp | sequence => exact .of_not_string rfl
  | binary h hr ih ihr =>
    exact fun hs span value he => ih hs span value (((ihr (by rw [he]; rfl)).2.2.2).symm.trans he)
  | @binaryEnd s scan hk =>
    intro hi
    have hw := Parse.waiting_of_isString hi
    exact ⟨rfl, hk, hw, by rw [hw]; rfl⟩
  | binaryMore hk hr h ht ih iht => exact fun hi => absurd (iht hi).2.2.1 (List.cons_ne_nil _ _)
  | operand h ih => exact ih
  | noUnary hk h ih => exact ih
  | noPostfix h hk ih => exact ih
  | @leftHandSide s s₁ s₂ s' waiting a chain hn h hm ihn ih ihm =>
    intro hs span value he
    have hw : chain.news = [] :=
      Expr.isString_news _ s'.lastEnd _ ((congrArg Expr.isString he).trans rfl)
    rw [hw, List.foldl_nil] at he
    obtain ⟨-, rfl⟩ := ihm ((congrArg Expr.isString he).trans rfl)
    have hs₁ : s₁ = s := ihn.2.2 rfl (congrArg List.length hw)
    subst hs₁
    exact ih hs span value he
  | @newTargetSide s s₁ s' waiting a chain hn hm ihn ihm =>
    intro hs span value he
    have hw : chain.news = [] :=
      Expr.isString_news _ s'.lastEnd _ ((congrArg Expr.isString he).trans rfl)
    rw [hw, List.foldl_nil] at he
    obtain ⟨-, rfl⟩ := ihm ((congrArg Expr.isString he).trans rfl)
    cases ihn.2.1.symm.trans (congrArg Expr.isString he)
  | noNews hk => exact ⟨Nat.le_refl _, rfl, fun _ _ => rfl⟩
  | newTarget hk hd h => exact ⟨Nat.le_refl _, Parse.isString_newTarget h, nofun⟩
  | moreNews hk hd h ih =>
    exact ⟨Nat.le_of_succ_le ih.1, ih.2.1, fun _ hl => absurd (hl ▸ ih.1) (Nat.not_succ_le_self _)⟩
  | superHead hk h => exact .of_not_string (Parse.isString_superExpression h)
  | primaryHead hk h ih => exact ih
  | membersEnd hk => exact fun _ => ⟨rfl, rfl⟩
  | member _ _ _ ih | index _ _ _ _ _ ih | construct _ _ _ _ ih | call _ _ _ _ ih =>
    intro hi
    rw [(ih hi).2] at hi
    cases hi
  | functionExpression hk hn h ih => exact .of_not_string ih
  | namedFunctionExpression hk hn h ih => exact .of_not_string ih
  | group hk h he ih => exact .group hk ih
  | literal hk => exact .literal hk
  | single h hk ih => exact ih
  | functionNode h hr => rfl
  | _ => trivial

end Reading

/-- What is read from a string token on is the literal, and what is behind it stops there, or it is
no string literal, since that goes on with it. -/
def ParseState.Quotes (stops : ParseState → Prop) (s : ParseState) (e : Expr) (s' : ParseState) :
    Prop :=
  e = s.literal ∧ s' = s.next ∧ stops s.next ∨ e.isString = false ∧ s.next.GoesOn

/-- Neither a member nor an argument list nor an update operator belongs to the operand before the
token. -/
def ParseState.EndsOperand (s : ParseState) : Prop :=
  s.kind ∉ [.dot, .leftBracket, .leftParen, .backQuote] ∧
    (UpdateOp.ofToken? s.kind = none ∨ s.newline = true)

namespace Reading

open ParseState (Quotes EndsOperand)

variable {P : Prop} {c : ParseContext} {s s' : ParseState} {a : Expr}

theorem quotes_primary (h : Reading .tree P c .primary s a s') (hk : s.kind = .string) :
    a = s.literal ∧ s' = s.next := by
  have hn {kind : TokenKind} (hk' : s.kind = kind) (h : kind ≠ .string := by decide) : False :=
    h (hk'.symm.trans hk)
  cases h with
  | functionExpression hk' => exact (hn hk').elim
  | namedFunctionExpression hk' => exact (hn hk').elim
  | group hk' => exact (hn hk').elim
  | array hk' => exact (hn hk').elim
  | object hk' => exact (hn hk').elim
  | regexp hk' => exact (hk'.elim hn hn).elim
  | reference hr =>
    unfold ParseState.reference? at hr
    split at hr
    · next hk' => exact (hn hk').elim
    · split at hr
      · next hk' => exact (hn hk'.1).elim
      · cases hr
  | literal hm =>
    have hk : s.token.kind = .string := hk
    simp only [Token.literal?, hk, Option.some.injEq] at hm
    subst hm
    exact ⟨rfl, rfl⟩

theorem quotes_members {start first : Position} {chain chain' : Parse.MemberChain Expr}
    (h : Reading .tree P c (.members start first chain) s chain' s') :
    chain' = chain ∧ s' = s ∧ s.kind ∉ [.dot, .leftBracket, .leftParen, .backQuote] ∨
      chain'.expression.isString = false ∧
      s.kind ∈ [.dot, .leftBracket, .leftParen, .backQuote] := by
  have hn {s s' : ParseState} {e : Expr} {news chain'} (he : e.isString = false)
      (h : Reading .tree P c (.members start first ⟨e, news⟩) s chain' s') :
      chain'.expression.isString = false := by
    cases hi : chain'.expression.isString with
    | false => rfl
    | true =>
      have hc := (h.starts hi).2
      rw [hc, he] at hi
      cases hi
  cases h with
  | membersEnd hk => exact .inl ⟨rfl, rfl, hk⟩
  | member hk _ h => exact .inr ⟨hn rfl h, by simp [hk]⟩
  | index hk _ _ h => exact .inr ⟨hn rfl h, by simp [hk]⟩
  | construct hk _ h => exact .inr ⟨hn rfl h, by simp [hk]⟩
  | call hk _ h => exact .inr ⟨hn rfl h, by simp [hk]⟩

theorem quotes_leftHandSide (h : Reading .tree P c .leftHandSide s a s') (hk : s.kind = .string) :
    Quotes (·.kind ∉ [.dot, .leftBracket, .leftParen, .backQuote]) s a s' := by
  have hn : s.kind ≠ .kwNew := by simp [hk]
  cases h with
  | newTargetSide hw =>
    cases hw with
    | newTarget hk' => exact absurd hk' hn
    | moreNews hk' => exact absurd hk' hn
  | leftHandSide hw h hm =>
    cases hw with
    | moreNews hk' => exact absurd hk' hn
    | noNews =>
      cases h with
      | superHead hk' => simp [hk] at hk'
      | primaryHead _ h =>
        obtain ⟨rfl, rfl⟩ := quotes_primary h hk
        obtain ⟨rfl, rfl, hm'⟩ | ⟨hi, hm⟩ := quotes_members hm
        · exact .inl ⟨rfl, rfl, hm'⟩
        · refine .inr ⟨?_, .inl (by revert hm; simp +contextual [or_imp])⟩
          generalize hf : List.foldl _ _ _ = e
          cases hs : e.isString with
          | false => rfl
          | true =>
            rw [← hf] at hs
            have hw := Expr.isString_news _ _ _ hs
            rw [hw, List.foldl_nil, hi] at hs
            cases hs

theorem quotes_operand {e : Parse.Placed Expr} (h : Reading .tree P c .operand s e s')
    (hk : s.kind = .string) :
    Quotes EndsOperand s e.expression s' := by
  cases h with
  | operand h =>
    cases h with
    | prefixUpdate hu => simp [hk, TokenKind.isUnary] at hu
    | prefixUnary hu => simp [hk, TokenKind.isUnary] at hu
    | noUnary _ h =>
      cases h with
      | noPostfix h hu =>
        obtain ⟨he, hs, hn⟩ | hg := quotes_leftHandSide h hk
        · exact .inl ⟨he, hs, hn, hs ▸ hu⟩
        · exact .inr hg
      | postfixUpdate h hu hn ht =>
        obtain ⟨rfl, rfl, -⟩ | ⟨-, hg⟩ := quotes_leftHandSide h hk
        · cases ht
        · exact .inr ⟨rfl, hg⟩

theorem quotes_binary (h : Reading .tree P c .binary s a s') (hk : s.kind = .string) :
    Quotes (fun t => t.EndsOperand ∧ t.binaryOp? = none) s a s' := by
  cases h with
  | @binary _ _ _ operand _ h hr =>
    cases hi : a.isString with
    | true =>
      obtain ⟨rfl, hb, -, rfl⟩ := hr.starts hi
      obtain ⟨he, rfl, hn, hu⟩ | ⟨hn, -⟩ := quotes_operand h hk
      · exact .inl ⟨he, rfl, ⟨hn, hu⟩, hb⟩
      · rw [hi] at hn
        cases hn
    | false =>
      refine .inr ⟨hi, ?_⟩
      obtain ⟨he, rfl, -⟩ | ⟨-, hg⟩ := quotes_operand h hk
      · cases hr with
        | binaryEnd =>
          replace hi : operand.expression.isString = false := hi
          rw [he] at hi
          cases hi
        | binaryMore hb => exact .inr (.inr (.inl (by simp [hb])))
      · exact hg

theorem quotes_conditional (h : Reading .tree P c .conditional s a s') (hk : s.kind = .string) :
    Quotes (fun t => t.EndsOperand ∧ t.binaryOp? = none ∧ t.kind ≠ .question) s a s' := by
  cases h with
  | noConditional h hq =>
    exact (quotes_binary h hk).imp_left fun ⟨he, hs, hn, hb⟩ => ⟨he, hs, hn, hb, hs ▸ hq⟩
  | conditional h hq =>
    obtain ⟨he, rfl, -⟩ | ⟨-, hg⟩ := quotes_binary h hk
    · exact .inr ⟨rfl, .inl (by simp [hq])⟩
    · exact .inr ⟨rfl, hg⟩

theorem quotes_plainAssignment (h : Reading .tree P c .plainAssignment s a s')
    (hk : s.kind = .string) :
    Quotes (fun t => t.EndsOperand ∧ t.binaryOp? = none ∧ t.kind ≠ .question ∧
      AssignOp.ofToken? t.kind = none)
      s a s' := by
  cases h with
  | noAssignment h ha =>
    exact (quotes_conditional h hk).imp_left fun ⟨he, hs, hn, hb, hq⟩ =>
      ⟨he, hs, hn, hb, hq, hs ▸ ha⟩
  | targetAssignment h ha =>
    obtain ⟨he, rfl, -⟩ | ⟨-, hg⟩ := quotes_conditional h hk
    · exact .inr ⟨rfl, .inr (.inr (.inr (by simp [ha])))⟩
    · exact .inr ⟨rfl, hg⟩

theorem quotes_assignmentInside (h : Reading .tree P c .assignmentInside s a s')
    (hk : s.kind = .string) :
    Quotes (fun t => t.EndsOperand ∧ t.binaryOp? = none ∧ t.kind ≠ .question ∧
      AssignOp.ofToken? t.kind = none)
      s a s' := by
  have arrow {found : Bool} {s₁ : ParseState} (h : Parse.atArrowFunction c s = (.ok found, s₁)) :
      found = false ∧ s₁ = s := by
    simp only [Parse.atArrowFunction, Parse.state_bind, hk] at h
    exact Parse.pure_ok.1 h
  have hb : s.atBracket = false := by simp [ParseState.atBracket, hk]
  cases h with
  | arrowFunction ha => cases (arrow ha).1
  | patternAssignment ha ht =>
    obtain ⟨-, rfl⟩ := arrow ha
    cases hb.symm.trans (accepted ht).1
  | noPatternAssignment ha ht h =>
    obtain ⟨-, rfl⟩ := arrow ha
    cases ht with
    | noBracket => exact quotes_plainAssignment h hk
    | noAttempt hb' => cases hb.symm.trans hb'
    | givenUp _ hb' => cases hb.symm.trans hb'

theorem quotes_assignment (h : Reading .tree P c .assignment s a s') (hk : s.kind = .string) :
    Quotes (fun t => t.EndsOperand ∧ t.binaryOp? = none ∧ t.kind ≠ .question ∧
      AssignOp.ofToken? t.kind = none)
      s a s' := by
  cases h with
  | assignment _ h =>
    exact (quotes_assignmentInside h hk).imp_left fun ⟨he, hs, hn⟩ => ⟨he, by rw [hs]; rfl, hn⟩

theorem quotes_expression (h : Reading .tree P c .expression s a s') (hk : s.kind = .string) :
    Quotes (¬ ·.GoesOn) s a s' := by
  cases h with
  | single h hc =>
    refine (quotes_assignment h hk).imp_left fun ⟨he, hs, ⟨hn, hu⟩, hb, hq, ha⟩ => ⟨he, hs, ?_⟩
    rintro (hg | ⟨hg, hl⟩ | hg | hg)
    · rw [hs] at hc
      simp_all
    · exact hu.elim hg (by simp [hl])
    · exact hg hb
    · exact hg ha
  | sequence h hc =>
    obtain ⟨he, rfl, -⟩ | ⟨-, hg⟩ := quotes_assignment h hk
    · exact .inr ⟨rfl, .inl (by simp [hc])⟩
    · exact .inr ⟨rfl, hg⟩

theorem expression_of_string {a : Stmt} (h : Reading .tree P c .item s a s')
    (hk : s.kind = .string) :
    ∃ e s₁ s₂, a = .expression (s'.spanFrom s.start) e ∧
    Reading .tree P c .expression s.deeper e s₁ ∧ Ends s₁ s₂ ∧
      s' = s₂.shallower := by
  cases h with
  | itemFunction hk' | itemConst hk' | itemLet hk' | itemLetName hk' => cases hk'.symm.trans hk
  | itemStatement _ h =>
    cases h with
    | statement _ h =>
      cases h with
      | expressionStatement _ h he => exact ⟨_, _, _, rfl, h, he, rfl⟩
      | blockStatement hk' | varStatement hk' | emptyStatement hk' | ifStatement hk'
      | ifElseStatement hk'
      | forStatement hk' | whileStatement hk' | doWhileStatement hk' | continueStatement hk'
      | breakStatement hk'
      | returnStatement hk' | returnValueStatement hk' | withStatement hk' | switchStatement hk'
      | throwStatement hk'
      | tryCatch hk' | tryFinally hk' | tryCatchFinally hk' | debuggerStatement hk'
      | functionStatement hk'
      | letExpressionStatement hk' | labeledStatement hk' | nameStatement hk' =>
        cases hk'.symm.trans hk

theorem quotes_item {a : Stmt} (h : Reading .tree P c .item s a s') (hk : s.kind = .string) :
    a = .expression (s'.spanFrom s.start) s.literal ∧ Ends s.next s' ∧ ¬ s.next.GoesOn ∨
      a.isDirective = false ∧ s.next.GoesOn := by
  obtain ⟨e, s₁, s₂, rfl, hx, he, rfl⟩ := expression_of_string h hk
  obtain ⟨rfl, rfl, hg⟩ | hg := quotes_expression hx hk
  · exact .inl ⟨rfl, Ends.shallower (s := s.next) he, hg⟩
  · exact .inr hg

end Reading

end EcmaFront
