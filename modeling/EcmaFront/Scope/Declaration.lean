import EcmaFront.Token.Kind

/-!
Declarations and what may be wrong with one.
-/

set_option autoImplicit false

namespace EcmaFront

/-- The keyword that declares a variable. Functions are declared as by `var`, or as by `let` in a
block of strict code. -/
inductive VariableKind where
  | var | let | const
  deriving DecidableEq, Repr, Inhabited

structure Conflicts where
  /-- Strict code may not bind the name. -/
  strict : Bool := false
  /-- The name is bound already, in a way that excludes another binding. -/
  duplicated : Bool := false
  deriving DecidableEq, Repr, Inhabited

namespace Conflicts

def none : Conflicts := {}

def isEmpty (c : Conflicts) : Bool := !c.strict && !c.duplicated

def union (c d : Conflicts) : Conflicts := ⟨c.strict || d.strict, c.duplicated || d.duplicated⟩

/-- Everything in `d` is in `c`. -/
def includes (c d : Conflicts) : Bool := (c.strict || !d.strict) && (c.duplicated || !d.duplicated)

end Conflicts

def isRestricted (name : String) : Bool := name == "eval" || name == "arguments"

def isStrictReserved (name : String) : Bool := TokenKind.ofWord? name == some .strictReserved

end EcmaFront
