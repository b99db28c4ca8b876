import EcmaFront.Scope.Frame
import EcmaFront.Tree.Node

/-!
What jumps refer to: the loops, switches and labels around a statement, up to the nearest function.
-/

set_option autoImplicit false

namespace EcmaFront

def Stmt.isLoop : Stmt → Bool
  | .loop _ _ _ _ _ _ | .loopEach _ _ _ _ _ _ | .loopWhile _ _ _ | .doWhile _ _ _ => true
  | .labeled _ _ s => s.isLoop
  | _ => false

namespace Node

def label? : Node → Option Label
  | .statement (.labeled _ name s) => some ⟨name, s.isLoop⟩
  | _ => none

def isLoop : Node → Bool
  | .statement (.loop _ _ _ _ _ _) | .statement (.loopEach _ _ _ _ _ _)
  | .statement (.loopWhile _ _ _)
  | .statement (.doWhile _ _ _) => true
  | _ => false

def isSwitch : Node → Bool
  | .statement (.switch _ _ _ _) => true
  | _ => false

/-- Of the nodes around a place, the innermost first, those that are in the same function. -/
def within (around : List Node) : List Node := around.takeWhile (!·.isFunction)

/-- A jump finds among the nodes around it, in its function, what it leads to; and no label stands
inside a label of its name. -/
def IsTargeted (around : List Node) : Node → Prop
  | .statement (.breakTo _ none) => ∃ m ∈ within around, m.isLoop = true ∨ m.isSwitch = true
  | .statement (.breakTo _ (some name)) => ∃ m ∈ within around, m.label?.map (·.name) = some name
  | .statement (.continueTo _ none) => ∃ m ∈ within around, m.isLoop = true
  | .statement (.continueTo _ (some name)) => ∃ m ∈ within around, m.label? = some ⟨name, true⟩
  | .statement (.labeled _ name _) => ∀ m ∈ within around, m.label?.map (·.name) ≠ some name
  | _ => True

end Node

/-- What may be jumped to, up to the nearest function. -/
structure Footing where
  inFunction : Bool := false
  /-- The innermost first. -/
  labels : List Label := []
  breaks : Bool := false
  continues : Bool := false
  deriving DecidableEq, Repr

namespace Footing

/-- In the body of a function. -/
def function : Footing := { inFunction := true }

def loop (k : Footing) : Footing := { k with breaks := true, continues := true }

def label (k : Footing) (label : Label) : Footing := { k with labels := label :: k.labels }

def switch (k : Footing) : Footing := { k with breaks := true }

def enter (k : Footing) : Node → Footing
  | .statement (.function _) | .expression (.function _) => function
  | .statement (.loop _ _ _ _ _ _) | .statement (.loopEach _ _ _ _ _ _)
  | .statement (.loopWhile _ _ _)
  | .statement (.doWhile _ _ _) => k.loop
  | .statement (.labeled _ name s) => k.label ⟨name, s.isLoop⟩
  | .statement (.switch _ _ _ _) => k.switch
  | _ => k

def inside (around : List Node) : Footing := around.foldr (fun n k => k.enter n) {}

/-- What `return`, jumps and labels ask of the place where they stand. -/
def Allows (k : Footing) : Node → Prop
  | .statement (.leave _ _) => k.inFunction = true
  | .statement (.breakTo _ none) => k.breaks = true
  | .statement (.breakTo _ (some name)) => ∃ isLoop, ⟨name, isLoop⟩ ∈ k.labels
  | .statement (.continueTo _ none) => k.continues = true
  | .statement (.continueTo _ (some name)) => ⟨name, true⟩ ∈ k.labels
  | .statement (.labeled _ name _) => ∀ label ∈ k.labels, label.name ≠ name
  | _ => True

end Footing

end EcmaFront
