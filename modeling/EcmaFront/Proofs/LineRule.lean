import EcmaFront.Proofs.Gap
import EcmaFront.Proofs.Inherit

/-!
Where lines matter to the grammar. A statement that is not enclosed ends with a semicolon, or behind
it one may be left out; and the operand of some words, an update sign behind its operand and the
arrow of a function stand on the line of the token before them.
-/

set_option autoImplicit false

namespace EcmaFront

/-- What is known of a token and what comes behind it. -/
structure Gaps where
  /-- The second token is on the line on which the first one ends. -/
  sameLine : Token → Token → Prop
  /-- Behind the token a semicolon may be left out. -/
  mayEnd : Token → Prop

/-- The gaps as they are seen in a view. -/
def View.gaps (v : View) : Gaps :=
  ⟨fun t _ => (v.behind t.extent.stop).newline = false, fun t => v.Closes t.extent.stop⟩

/-- The gaps as they are in a text that is made of tokens. Behind the last of them it ends. -/
def Source.gaps (s : Source) (text : List Char) (ts : List Token) : Gaps :=
  ⟨fun t u => ¬s.EndsLine text t.extent.stop u.extent.start,
    fun t => ∀ u, [t, u] <:+: ts → u.kind = .rightBrace ∨
    s.EndsLine text t.extent.stop u.extent.start⟩

variable {g g' : Gaps} {ts : List Token}

/-- Among the tokens is one that ends where the span does, and that is a semicolon or needs none
behind it. -/
def Gaps.Ends (g : Gaps) (ts : List Token) (span : Span) : Prop :=
  ∃ t ∈ ts, t.extent.stop = span.stop.offset ∧ (t.kind = .semicolon ∨ g.mayEnd t)

/-- Among the tokens is the word that the span begins with, and on its line the first token of its
operand. -/
def Gaps.Leads (g : Gaps) (ts : List Token) (span : Span) (word : TokenKind)
    (operand : Token → Prop) : Prop :=
  ∃ t u, [t, u] <:+: ts ∧ t.kind = word ∧ t.extent.start = span.start.offset ∧
    operand u ∧ g.sameLine t u

def Stmt.IsEnded (g : Gaps) (ts : List Token) : Stmt → Prop
  | .declaration d => g.Ends ts d.span
  | .expression span _ | .leave span _ | .throw span _ | .breakTo span _ | .continueTo span _
  | .debugger span =>
    g.Ends ts span
  | _ => True

namespace Node

def IsEnded (g : Gaps) (ts : List Token) : Node → Prop
  | .statement a => a.IsEnded g ts
  | _ => True

def IsJoined (g : Gaps) (ts : List Token) : Node → Prop
  | .statement (.leave span (some e)) =>
    g.Leads ts span .kwReturn (·.extent.start ≤ e.span.start.offset)
  | .statement (.throw span e) => g.Leads ts span .kwThrow (·.extent.start ≤ e.span.start.offset)
  | .statement (.breakTo span (some label)) =>
    g.Leads ts span .kwBreak fun u => u.kind = .identifier ∧ u.text = label
  | .statement (.continueTo span (some label)) =>
    g.Leads ts span .kwContinue fun u => u.kind = .identifier ∧ u.text = label
  | .expression (.update span op false e) =>
    ∃ t u, [t, u] <:+: ts ∧ e.span.stop.offset ≤ t.extent.stop ∧
    UpdateOp.ofToken? u.kind = some op ∧ u.extent.stop = span.stop.offset ∧ g.sameLine t u
  | .expression (.function f) => f.form = .arrow → ∃ t u v, [t, u, v] <:+: ts ∧
    f.parametersStart ≤ t.extent.start ∧ (∀ q ∈ f.parameters, q.span.stop.offset ≤ t.extent.stop) ∧
    u.kind = .arrow ∧ v.extent.start = f.bodySpan.start.offset ∧ g.sameLine t u
  | _ => True

/-- The statements directly inside a node. The head of a loop is none. -/
def statements : Node → List Stmt
  | .statement (.block b) => b.body
  | .statement (.branch _ _ a alternate) => a :: alternate.toList
  | .statement (.loop _ _ _ _ a _) | .statement (.loopEach _ _ _ _ a _)
  | .statement (.loopWhile _ _ a)
  | .statement (.doWhile _ a _) | .statement (.withObject _ _ a) | .statement (.labeled _ _ a) =>
    [a]
  | .clause c => c.body
  | .body _ as => as
  | _ => []

/-- The node is a loop, and a statement the declaration in its head. -/
def IsHead (n : Node) (a : Stmt) : Prop :=
  match n with
  | .statement (.loop _ (some init) _ _ _ _) => .statement a ∈ init.nodes
  | .statement (.loopEach _ _ left _ _ _) => .statement a ∈ left.nodes
  | _ => False

/-- Lines are as the grammar has it in the node, what is inside the nodes in it apart. -/
structure KeepsLines (g : Gaps) (ts : List Token) (n : Node) : Prop where
  joined : n.IsJoined g ts
  ended : ∀ a ∈ n.statements, a.IsEnded g ts

def Lined (g : Gaps) (ts : List Token) (n : Node) : Prop := ∀ m, n.Reaches m → m.KeepsLines g ts

/-- Nodes in which lines are as the grammar has it, and which are ended if they are statements. -/
def AreLined (g : Gaps) (ts : List Token) : List Node → Prop :=
  All fun n => n.Lined g ts ∧ n.IsEnded g ts

variable {n : Node} {ns ms : List Node}

theorem mem_children_of_mem_statements {a : Stmt} (h : a ∈ n.statements) :
    .statement a ∈ n.children := by
  unfold statements at h
  split at h <;> simp_all [children, Stmt.nodes]

theorem statement_notMem_optional {a : Stmt} {e : Option Expr} : .statement a ∉ optional e := by
  simp [optional]

theorem statement_notMem_key {a : Stmt} {key : PropertyKey Expr} : .statement a ∉ key.nodes := by
  cases key <;> simp [PropertyKey.nodes]

theorem statement_notMem_function {a : Stmt} {f : Function} : .statement a ∉ f.nodes := by
  cases h : f.body <;> simp [FunctionParts.nodes, FunctionBody.nodes, h]

theorem mem_statements_of_mem_children {a : Stmt} (h : .statement a ∈ n.children)
    (hb : ∀ b, a ≠ .block b) (hh : ¬n.IsHead a) : a ∈ n.statements := by
  rcases n with s | _ | _ | _ | _ | e | p | _ | p | _ | _
  case statement =>
    cases s
    case loop _ init _ _ _ _ =>
      cases init <;> simp_all [children, Stmt.nodes, statements, IsHead, statement_notMem_optional]
    case attempt =>
      simp [children, Stmt.nodes] at h
      obtain rfl | ⟨b, -, rfl⟩ := h
      all_goals exact absurd rfl (hb _)
    all_goals
      simp_all [children, Stmt.nodes, statements, IsHead, statement_notMem_optional,
        statement_notMem_function]
  case expression => cases e <;> simp_all [children, Expr.nodes, statement_notMem_function]
  case pattern => cases p <;> simp_all [children, Pat.nodes]
  case property => cases p <;> simp_all [children, statement_notMem_key]
  all_goals simp_all [children, statements, statement_notMem_optional, statement_notMem_key]

theorem Lined.of_children (hj : n.IsJoined g ts) (he : ∀ a ∈ n.statements, a.IsEnded g ts)
    (h : ∀ m ∈ n.children, m.Lined g ts) : n.Lined g ts := fun m hm => by
  obtain rfl | ⟨k, hk, hm⟩ := Reaches.iff.1 hm
  · exact ⟨hj, he⟩
  · exact h k hk m hm

namespace AreLined

theorem nil : AreLined g ts [] := All.nil

theorem append (h : AreLined g ts ns) (h' : AreLined g ts ms) : AreLined g ts (ns ++ ms) :=
  All.append h h'

theorem node (h : AreLined g ts n.children) (hj : n.IsJoined g ts := by trivial)
    (he : n.IsEnded g ts := by trivial) :
    AreLined g ts [n] :=
  All.one ⟨.of_children hj (fun _ ha => (h _ (mem_children_of_mem_statements ha)).2)
    fun m hm => (h m hm).1, he⟩

theorem inherits (g : Gaps) (ts : List Token) :
    Inherits fun n => n.Lined g ts ∧ n.IsEnded g ts := fun n hn h => by
  rcases n with s | _ | _ | _ | _ | e | _ | _ | p | _ | _
  case expression =>
    cases e
    case function | update | assign | assignPattern => cases hn
    all_goals exact AreLined.node h
  case pattern => exact AreLined.node h
  all_goals cases hn

end AreLined

end Node

/-! More tokens on both sides do no harm. -/

section Within

variable (us vs : List Token) {span : Span}

theorem infix_within {ps : List Token} (h : ps <:+: ts) : ps <:+: us ++ ts ++ vs :=
  h.trans (List.infix_append us ts vs)

theorem Gaps.Ends.within (h : g.Ends ts span) : g.Ends (us ++ ts ++ vs) span := by
  obtain ⟨t, ht, h⟩ := h
  exact ⟨t, by simp [ht], h⟩

theorem Gaps.Leads.within {word : TokenKind} {operand : Token → Prop}
    (h : g.Leads ts span word operand) :
    g.Leads (us ++ ts ++ vs) span word operand := by
  obtain ⟨t, u, hi, h⟩ := h
  exact ⟨t, u, infix_within us vs hi, h⟩

theorem Stmt.IsEnded.within {a : Stmt} (h : a.IsEnded g ts) : a.IsEnded g (us ++ ts ++ vs) := by
  cases a <;> first | exact Gaps.Ends.within us vs h | trivial

theorem Node.IsJoined.within {n : Node} (h : n.IsJoined g ts) : n.IsJoined g (us ++ ts ++ vs) := by
  unfold IsJoined at h ⊢
  split
  · exact h.within us vs
  · exact h.within us vs
  · exact h.within us vs
  · exact h.within us vs
  · obtain ⟨t, u, hi, h⟩ := h
    exact ⟨t, u, infix_within us vs hi, h⟩
  · intro hf
    obtain ⟨t, u, v, hi, h⟩ := h hf
    exact ⟨t, u, v, infix_within us vs hi, h⟩
  · trivial

theorem Node.Lined.within {n : Node} (h : n.Lined g ts) : n.Lined g (us ++ ts ++ vs) := fun m hm =>
  ⟨(h m hm).joined.within us vs, fun a ha => ((h m hm).ended a ha).within us vs⟩

theorem Node.AreLined.within {ns : List Node} (h : AreLined g ts ns) :
    AreLined g (us ++ ts ++ vs) ns := fun n hn => by
  obtain ⟨hl, he⟩ := h n hn
  refine ⟨hl.within us vs, ?_⟩
  cases n <;> first | exact Stmt.IsEnded.within us vs he | trivial

end Within

/-! What is known of gaps may be told in other words. -/

section Imp

variable {span : Span} (hj : ∀ t u, [t, u] <:+: ts → g.sameLine t u → g'.sameLine t u)
  (he : ∀ t ∈ ts, g.mayEnd t → g'.mayEnd t)

include he in
theorem Stmt.IsEnded.imp {a : Stmt} (h : a.IsEnded g ts) : a.IsEnded g' ts := by
  have ends {span : Span} (h : g.Ends ts span) : g'.Ends ts span := by
    obtain ⟨t, ht, hs, h⟩ := h
    exact ⟨t, ht, hs, h.imp_right (he t ht)⟩
  cases a <;> first | exact ends h | trivial

include hj in
theorem Node.IsJoined.imp {n : Node} (h : n.IsJoined g ts) : n.IsJoined g' ts := by
  have leads {span : Span} {word : TokenKind} {operand : Token →
      Prop} (h : g.Leads ts span word operand) :
      g'.Leads ts span word operand := by
    obtain ⟨t, u, hi, hk, hs, ho, h⟩ := h
    exact ⟨t, u, hi, hk, hs, ho, hj t u hi h⟩
  unfold IsJoined at h ⊢
  split
  · exact leads h
  · exact leads h
  · exact leads h
  · exact leads h
  · obtain ⟨t, u, hi, hs, ho, hu, h⟩ := h
    exact ⟨t, u, hi, hs, ho, hu, hj t u hi h⟩
  · intro hf
    obtain ⟨t, u, v, hi, hp, hq, hk, hs, h⟩ := h hf
    exact ⟨t, u, v, hi, hp, hq, hk, hs, hj t u ((List.prefix_append [t, u] [v]).isInfix.trans hi) h⟩
  · trivial

include hj he in
theorem Node.KeepsLines.imp {n : Node} (h : n.KeepsLines g ts) : n.KeepsLines g' ts :=
  ⟨h.joined.imp hj, fun a ha => (h.ended a ha).imp he⟩

end Imp

end EcmaFront
