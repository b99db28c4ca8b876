import EcmaFront.Proofs.Reading
import EcmaFront.Tree.Occurrence

/-!
What occurs in what the nonterminals of the grammar are taken for.
-/

set_option autoImplicit false

namespace EcmaFront

/-- A parameter that is no more than a name. -/
inductive Parameter.IsPlain : Parameter Expr Pat → Prop where
  | intro (span s : Span) (name : String) : IsPlain ⟨span, .binding s name, none, false⟩

namespace Collector

variable {α : Type} (x : Collector α)

@[simp] theorem elements_nil : x.elements [] = [] := by simp [elements]

@[simp] theorem elements_cons (e : Option Expr) (es : List (Option Expr)) :
    x.elements (e :: es) = x.expr? e ++ x.elements es := by simp [elements]

theorem patElements_cons (form : BindingForm) (e : Option (PatternElement Expr Pat))
    (es : List (Option (PatternElement Expr Pat))) :
    x.patElements form (e :: es) = x.patElements form [e] ++ x.patElements form es := by
  rcases e with _ | ⟨_, p, e⟩ <;> simp [patElements]

theorem patProperties_cons (form : BindingForm) (p : PatternProperty Expr Pat)
    (ps : List (PatternProperty Expr Pat)) :
    x.patProperties form (p :: ps) = x.patProperties form [p] ++ x.patProperties form ps := by
  simp [patProperties]

theorem parameters_cons (p : Parameter Expr Pat) (ps : List (Parameter Expr Pat)) :
    x.parameters (p :: ps) = x.parameters [p] ++ x.parameters ps := by
  simp [parameters]

theorem declarators_cons (kind : VariableKind) (d : Declarator Expr Pat)
    (ds : List (Declarator Expr Pat)) :
    x.declarators kind (d :: ds) = x.declarators kind [d] ++ x.declarators kind ds := by
  simp [declarators]

theorem parameters_plain {ps : List (Parameter Expr Pat)} (h : ∀ p ∈ ps, p.IsPlain) :
    ∃ names : List String, x.parameters ps = names.flatMap (x.leaf <| .binding .parameter ·) := by
  induction ps with
  | nil => exact ⟨[], by simp [parameters]⟩
  | cons p ps ih =>
    obtain ⟨names, hn⟩ := ih fun p hp => h p (List.mem_cons_of_mem _ hp)
    obtain ⟨span, s, name⟩ := h p List.mem_cons_self
    exact ⟨name :: names, by simp [parameters, pat, expr?, hn]⟩

theorem expr_news (news : List Position) (stop : Position) (e : Expr) :
    x.expr (news.foldl (fun e new => .construct ⟨new, stop⟩ e none) e) = x.expr e := by
  induction news generalizing e with
  | nil => rfl
  | cons new rest ih => rw [List.foldl_cons, ih, expr]

end Collector

namespace Parse

def BinaryScan.content {α : Type} (x : Collector α) (scan : BinaryScan Expr) : List α :=
  scan.waiting.reverse.flatMap (x.expr ·.left.expression) ++ x.expr scan.operand.expression

theorem content_reduce {α : Type} (x : Collector α) (precedence : Nat)
    (waiting : List (Waiting Expr)) (operand : Placed Expr) :
    BinaryScan.content x ⟨(reduce (B := .tree) precedence waiting operand).1,
      (reduce (B := .tree) precedence waiting operand).2⟩ =
      BinaryScan.content x ⟨waiting, operand⟩ := by
  induction waiting generalizing operand with
  | nil => rfl
  | cons w rest ih =>
    unfold reduce
    split
    · rw [ih]
      simp [BinaryScan.content, Waiting.join, Collector.expr]
    · rfl

theorem reduce_zero {B : NodeAlgebra} (waiting : List (Waiting B.Expression))
    (operand : Placed B.Expression) :
    (reduce 0 waiting operand).1 = [] := by
  induction waiting generalizing operand with
  | nil => rfl
  | cons w rest ih =>
    unfold reduce
    rw [if_pos (Nat.zero_le _), ih]

end Parse

namespace Nonterminal

variable {α : Type} (x : Collector α)

/-- What occurs in the result of a reading, where that can be told from the result alone. -/
def content : (g : Nonterminal .tree) → g.Result → List α
  | .item, s | .functionDeclaration, s | .variableStatement _, s => x.stmt s
  | .declarators kind _, list => x.declarators kind list.declarators
  | .declarator kind _, d => x.declarators kind [d.1]
  | .declaratorTarget kind, p => x.pat (.variable kind) p
  | .itemsUntil _, ss | .items _ _, ss => x.stmts ss
  | .loopBody, s => x.lone s ++ x.stmt s
  | .condition, e | .assignment, e | .assignmentInside, e | .plainAssignment, e | .conditional, e
  | .binary, e | .unary _, e | .postfixed, e | .leftHandSide, e | .head, e | .primary, e
  | .expression, e | .spreadable, e => x.expr e
  | .expressionBefore _, e | .clauseTest _, e | .patternDefault, e => x.expr? e
  | .clauses _, cs => x.clauses cs
  | .catchClause, handler => x.handler? (some handler.ofStmt)
  | .attempt _, p => p.elim [] fun p => x.assigned (x.pat .assignment p)
  | .operand, e => x.expr e.expression
  | .news _, found => x.expr? found.2
  | .moreExpressions, es | .arguments, es | .argumentList, es => x.exprs es
  | .elements, es => x.elements es
  | .properties _ _, ps => x.properties ps
  | .property _ _, p => x.property p.1
  | .propertyValue _ _ _, v => x.expr v.2.1
  | .propertyKey, key => x.key key
  | .patternKey, key => x.key key.1
  | _, _ => []

end Nonterminal

end EcmaFront
