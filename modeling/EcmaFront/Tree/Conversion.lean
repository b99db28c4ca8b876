import EcmaFront.Tree.Hom

/-!
Syntax trees do not depend on what is made of a statement that stands where a declaration or a block
belongs, since the grammar puts none there.
-/

set_option autoImplicit false

namespace EcmaFront

/-- How a statement is taken for a declaration and for a block. -/
structure Conversions where
  declaration : Stmt → VariableDeclaration Expr Pat
  block : Stmt → Block Stmt

/-- A declaration is taken for what it is, and so is a block. -/
structure Conversions.Exact (x : Conversions) : Prop where
  declaration : ∀ d, x.declaration (.declaration d) = d
  block : ∀ b, x.block (.block b) = b

@[reducible] def NodeAlgebra.treeBy (x : Conversions) : NodeAlgebra :=
  { NodeAlgebra.tree with
    loop := fun span init test update body scope =>
      .loop span (init.map (.map x.declaration id)) test update body scope
    loopEach := fun loop span left right body scope =>
      .loopEach loop span (left.map x.declaration id id) right body scope
    attempt := fun span block handler finalizer =>
      .attempt span (x.block block) (handler.map (.map x.block id)) (finalizer.map x.block) }

theorem ForInit.ofStmt_eq {x : Conversions} (h : x.Exact) {init : ForInit Stmt Expr}
    (hi : ∀ a, init = .declaration a → ∃ d, a = .declaration d) :
    init.ofStmt = init.map x.declaration id := by
  cases init with
  | declaration a =>
    obtain ⟨d, rfl⟩ := hi a rfl
    exact congrArg ForInit.declaration (h.declaration d).symm
  | expression e => rfl

theorem ForTarget.ofStmt_eq {x : Conversions} (h : x.Exact) {left : ForTarget Stmt Expr Pat}
    (hl : ∀ a, left = .declaration a → ∃ d, a = .declaration d) :
    left.ofStmt = left.map x.declaration id id := by
  cases left with
  | declaration a =>
    obtain ⟨d, rfl⟩ := hl a rfl
    exact congrArg ForTarget.declaration (h.declaration d).symm
  | expression e => rfl
  | pattern p => rfl

theorem Stmt.toBlock_eq {x : Conversions} (h : x.Exact) {a : Stmt} (ha : ∃ b, a = .block b) :
    a.toBlock = x.block a := by
  obtain ⟨b, rfl⟩ := ha
  exact (h.block b).symm

/-- Where the conversions are exact, the same trees are made with them. -/
def NodeAlgebra.Hom.convert (x : Conversions) (h : x.Exact) : Hom (.treeBy x) .tree :=
  { Hom.refl .tree with
    loop := fun span init test update body scope hi => by
      cases init with
      | none => simp [Hom.refl]
      | some init =>
        have ho : init.ofStmt = _ := ForInit.ofStmt_eq h fun a ha => hi a (congrArg some ha)
        simp [Hom.refl, ho]
    loopEach := fun loop span left right body scope hl => by
      have ho : left.ofStmt = _ := ForTarget.ofStmt_eq h hl
      simp [Hom.refl, ho]
    attempt := fun span a handler finalizer ha hh hf => by
      have hb : a.toBlock = _ := Stmt.toBlock_eq h ha
      cases handler with
      | none =>
        cases finalizer with
        | none => simp [Hom.refl, hb]
        | some f => simp [Hom.refl, hb, Stmt.toBlock_eq h (hf f rfl)]
      | some handler =>
        have hc : handler.ofStmt = handler.map x.block id :=
          congrArg (CatchClause.mk handler.span handler.parameter)
            (Stmt.toBlock_eq h (hh handler rfl))
        cases finalizer with
        | none => simp [Hom.refl, hb, hc]
        | some f => simp [Hom.refl, hb, hc, Stmt.toBlock_eq h (hf f rfl)] }

end EcmaFront
