import EcmaFront.Tree.Build

/-!
The directives in front of a program or function, as they stand in its tree, and whether one of them
asks for strict code.
-/

set_option autoImplicit false

namespace EcmaFront

/-- A string literal that is a statement by itself. -/
structure Directive where
  span : Span
  value : String
  deriving DecidableEq, Repr

/-- The literal is written without escapes: its text is as long as its value, with the quotes. -/
def Directive.isUseStrict (d : Directive) : Bool :=
  d.value == "use strict" && d.span.stop.offset - d.span.start.offset == 12

/-- A statement that begins with a string literal and consists of it. In parentheses it begins
before. -/
def Stmt.directive? : Stmt → Option Directive
  | .expression span (.string literal value) =>
    if span.start = literal.start then some ⟨literal, value⟩ else none
  | _ => none

def prologue : List Stmt → List Directive
  | [] => []
  | s :: rest =>
    match s.directive? with
    | some d => d :: prologue rest
    | none => []

def asksForStrict (body : List Stmt) : Bool := (prologue body).any (·.isUseStrict)

def FunctionBody.asksForStrict : FunctionBody Expr Stmt → Bool
  | .block body => EcmaFront.asksForStrict body
  | .expression _ => false

@[simp] theorem asksForStrict_nil : asksForStrict [] = false := rfl

theorem asksForStrict_directive {s : Stmt} {d : Directive} (h : s.directive? = some d)
    (rest : List Stmt) :
    asksForStrict (s :: rest) = (d.isUseStrict || asksForStrict rest) := by
  simp [asksForStrict, prologue, h]

theorem asksForStrict_other {s : Stmt} (h : s.directive? = none) (rest : List Stmt) :
    asksForStrict (s :: rest) = false := by
  simp [asksForStrict, prologue, h]

theorem Stmt.directive?_of_not_isDirective {s : Stmt} (h : s.isDirective = false) :
    s.directive? = none := by
  unfold directive?
  split
  · cases h
  · rfl

end EcmaFront
