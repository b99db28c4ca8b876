import EcmaFront.Proofs.Walk
import EcmaFront.Tree.Node

/-!
Properties of nodes that a node has if its children have them, the few kinds of nodes apart that a
property is about. What the steps of the grammar that go through no nonterminal make of their
operands has such a property.
-/

set_option autoImplicit false

namespace EcmaFront

namespace Node

/-- An expression that neither assigns nor is a function, or a pattern. -/
def isPlain : Node → Bool
  | .expression (.function _) | .expression (.update _ _ _ _) | .expression (.assign _ _ _ _)
  | .expression (.assignPattern _ _ _) => false
  | .expression _ | .pattern _ => true
  | _ => false

def All (R : Node → Prop) (ns : List Node) : Prop := ∀ n ∈ ns, R n

namespace All

variable {R : Node → Prop} {n : Node} {ns ms : List Node}

theorem nil : All R [] := nofun

theorem append (h : All R ns) (h' : All R ms) : All R (ns ++ ms) := List.forall_mem_append.2 ⟨h, h'⟩

theorem cons (h : All R [n]) (h' : All R ms) : All R (n :: ms) := append h h'

theorem one (h : R n) : All R [n] := List.forall_mem_singleton.2 h

end All

def Inherits (R : Node → Prop) : Prop := ∀ n, n.isPlain = true → All R n.children → All R [n]

namespace Inherits

open Parse (Placed Waiting)

variable {R : Node → Prop} {c : ParseContext} {s s' : ParseState} {e : Expr} {p : Pat}
  {form : BindingForm}

theorem literal (hR : Inherits R) {t : Token} {make : Span → Expr} {span : Span}
    (h : t.literal? .tree = some make) :
    All R [.expression (make span)] := by
  unfold Token.literal? at h
  split at h
  all_goals cases h
  all_goals exact hR _ rfl .nil

theorem reduce (hR : Inherits R) {precedence : Nat} {operand left : Placed Expr}
    {waiting waiting' : List (Waiting Expr)}
    (h : ∀ w ∈ waiting, All R [.expression w.left.expression])
    (ho : All R [.expression operand.expression])
    (hr : Parse.reduce (B := .tree) precedence waiting operand = (waiting', left)) :
    (∀ w ∈ waiting', All R [.expression w.left.expression]) ∧
    All R [.expression left.expression] := by
  induction waiting generalizing operand with
  | nil =>
    cases hr
    exact ⟨h, ho⟩
  | cons w rest ih =>
    obtain ⟨hw, hrest⟩ := List.forall_mem_cons.1 h
    rw [Parse.reduce] at hr
    split at hr
    · have hj : All R [.expression (w.join (B := .tree) operand).expression] :=
        hR (.expression (.binary _ _ _ _)) rfl (.cons hw ho)
      exact ih hrest hj hr
    · cases hr
      exact ⟨h, ho⟩

theorem news (hR : Inherits R) (news : List Position) (stop : Position)
    (h : All R [.expression e]) :
    All R [.expression (news.foldl (fun e new => .construct ⟨new, stop⟩ e none) e)] := by
  induction news generalizing e with
  | nil => exact h
  | cons new rest ih => exact ih (hR _ rfl h)

theorem bindName (hR : Inherits R) {name : String} {start : Position} {extent : Extent}
    (h : Parse.bindName .tree form name start extent c s = (.ok p, s')) : All R [.pattern p] := by
  simp only [Parse.bindName, Parse.spanFrom_bind] at h
  replace h : Parse.Yields _ c s _ := h
  split at h
  · simp only [Parse.Yields, Parse.modifyScopes_bind, Parse.modify_bind, Parse.pure_ok] at h
    obtain ⟨rfl, -⟩ := h
    exact hR _ rfl (hR _ rfl .nil)
  · simp only [Parse.Yields, Parse.bind_ok, Parse.pure_ok] at h
    obtain ⟨_, _, -, rfl, -⟩ := h
    exact hR _ rfl .nil

theorem bindingName (hR : Inherits R) (h : Parse.bindingName .tree form c s = (.ok p, s')) :
    All R [.pattern p] := by
  simp only [Parse.bindingName, Parse.state_bind, Parse.ite_ok, Parse.next_bind,
    Parse.unexpected_ok, and_false, or_false] at h
  exact hR.bindName h.2

theorem superExpression (hR : Inherits R)
    (h : Parse.superExpression (B := .tree) c s = (.ok e, s')) :
    All R [.expression e] := by
  simp only [Parse.superExpression, Parse.state_bind, Parse.next_bind] at h
  replace h : Parse.Yields _ c _ _ := h
  split at h
  all_goals
    simp only [Parse.Yields, Parse.bind_ok, Parse.ite_ok, Parse.failAt_ok, and_false, or_false,
      Parse.spanFrom_bind, Parse.pure_ok, false_and, exists_false] at h
  all_goals
    obtain ⟨-, _, _, -, rfl, -⟩ := h
    exact hR _ rfl .nil

theorem newTarget (hR : Inherits R) {new : ParseState}
    (h : Parse.newTarget (B := .tree) new c s = (.ok e, s')) :
    All R [.expression e] := by
  simp only [Parse.newTarget, Parse.state_bind, Parse.ite_ok, Parse.unexpected_ok, and_false,
    false_or, Parse.next_bind, Parse.spanFrom_bind, Parse.pure_ok, Parse.failAt_ok, or_false] at h
  obtain ⟨-, -, rfl, -⟩ := h
  exact hR _ rfl .nil

end Inherits

end Node

end EcmaFront
