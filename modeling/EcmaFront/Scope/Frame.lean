import EcmaFront.Options
import EcmaFront.Scope.NameSet
import EcmaFront.Scope.Environment
import EcmaFront.Scope.Declaration

/-!
One frame of scope analysis: what a program, a function or a block declares, and which names are
used in it. A name used but not declared escapes to the frame around it when the frame is left; a
name that escapes from a function is closed there until it reaches the frame that binds it, whose
binding is then captured.
-/

set_option autoImplicit false

namespace EcmaFront

inductive FrameKind where
  | program | function
  /-- A block, the head of a loop, a `switch` or a `catch` clause. -/
  | block
  deriving DecidableEq, Repr, Inhabited

structure Label where
  name : String
  isLoop : Bool
  deriving DecidableEq, Repr, Inhabited

structure Frame where
  kind : FrameKind
  strict : Bool
  mode : Mode := .script
  constructorKind : ConstructorKind := .none
  name : Option String := none
  /-- The name of a function expression is bound inside it. -/
  bindsOwnName : Bool := false
  /-- No name bound so far is illegal in strict code. -/
  strictValid : Bool := true
  /-- Variables declared by `var`, parameters and functions, and `catch` parameters. -/
  declared : Environment := .empty
  /-- Variables declared by `let` and `const`. -/
  lexical : Environment := .empty
  parameters : List String := []
  repeatedParameter : Bool := false
  /-- Names that a `var` inside declares in the function around the frame. -/
  hoisted : NameSet := .empty
  used : NameSet := .empty
  written : NameSet := .empty
  /-- Names that a function inside refers to and no frame on the way out has bound. -/
  closed : NameSet := .empty
  /-- The labels that the current statement stands under, the innermost first. -/
  labels : List Label := []
  loops : Nat := 0
  switches : Nat := 0
  /-- A `with` statement may look up any name here. -/
  fullActivation : Bool := false
  usesEval : Bool := false
  shadowsArguments : Bool := false
  directSuper : Bool := false
  superBinding : Bool := false
  deriving DecidableEq, Repr, Inhabited

/-- What a function or program tells of its scope. -/
structure ScopeSummary where
  declared : Environment := .empty
  lexical : Environment := .empty
  parameters : List String := []
  /-- The captured ones of the declared variables, in the order of declaration. -/
  captured : List String := []
  written : NameSet := .empty
  /-- Names used but not bound here. -/
  free : NameSet := .empty
  modifiedParameter : Bool := false
  modifiedArguments : Bool := false
  usesEval : Bool := false
  fullActivation : Bool := false
  strict : Bool := false
  directSuper : Bool := false
  superBinding : Bool := false
  deriving DecidableEq, Repr, Inhabited

/-- Whether the variable of a name, a declared one before a lexical one, is captured. -/
def ScopeSummary.isCaptured (s : ScopeSummary) (name : String) : Bool :=
  match s.declared.find? name, s.lexical.find? name with
  | some traits, _ | none, some traits => traits.captured
  | none, none => false

/-- Which declared variables closures capture, and what may be changed behind the parameters. -/
structure Captures where
  names : List String
  modifiedParameter : Bool
  modifiedArguments : Bool
  deriving DecidableEq, Repr, Inhabited

namespace Frame

def program (mode : Mode) (strict : Bool) (constructorKind : ConstructorKind) : Frame :=
  { kind := .program, strict, mode, constructorKind }

def function (mode : Mode) (constructorKind : ConstructorKind) (name : Option String)
    (strict : Bool) :
    Frame :=
  { kind := .function, strict, mode, constructorKind, name, strictValid := !name.any isRestricted }

def block (strict : Bool) : Frame := { kind := .block, strict }

def isFunction (f : Frame) : Bool := f.kind == .function

def isBoundary (f : Frame) : Bool := f.kind != .block

def isBlock (f : Frame) : Bool := f.kind == .block

theorem isBlock_eq (f : Frame) : f.isBlock = !f.isBoundary := by
  simp [isBlock, isBoundary, bne]

/-- Takes `super` and `new.target` from the function around it. -/
def isArrow (f : Frame) : Bool := f.kind == .function && f.mode == .arrowFunction

def isDeclared (f : Frame) (name : String) : Bool :=
  f.declared.contains name || f.lexical.contains name || (f.bindsOwnName && f.name == some name)

def use (f : Frame) (name : String) : Frame :=
  { f with used := f.used.insert name, usesEval := f.usesEval || name == "eval" }

def write (f : Frame) (name : String) : Frame := { f with written := f.written.insert name }

def declareParameter (f : Frame) (name : String) : Frame × Conflicts :=
  let repeated := f.parameters.contains name
  let frame := { f with
    strictValid := f.strictValid && !isRestricted name
    shadowsArguments := f.shadowsArguments || name == "arguments"
    repeatedParameter := f.repeatedParameter || repeated
    parameters := if repeated then f.parameters else f.parameters ++ [name]
    declared := f.declared.declare name { isVar := true } }
  (frame, ⟨isRestricted name, repeated⟩)

def declareVar (f : Frame) (name : String) : Frame :=
  { f with
    strictValid := f.strictValid && !isRestricted name
    shadowsArguments := f.shadowsArguments || name == "arguments"
    declared := f.declared.declare name { isVar := true } }

/-- By `let`, or by `const`. It excludes every other declaration of the name in the frame, also one
that only passed through it on the way out. -/
def declareLexical (f : Frame) (name : String) (constant : Bool) : Frame × Conflicts :=
  let duplicated := f.declared.contains name || f.hoisted.contains name || f.lexical.contains name
  let frame := { f with
    strictValid := f.strictValid && !isRestricted name
    lexical := f.lexical.declare name { isLet := !constant, isConst := constant } }
  (frame, ⟨isRestricted name || name == "let", duplicated⟩)

def declareCatch (f : Frame) (name : String) : Frame × Conflicts :=
  ({ f with declared := f.declared.declare name { isVar := true } },
    ⟨isRestricted name, f.declared.contains name⟩)

def collect (f inner : Frame) (trackClosed : Bool) : Frame :=
  let escaping (names : NameSet) := names.filter (!inner.isDeclared ·)
  let closed := if trackClosed && inner.isBoundary then f.closed.union (escaping inner.used)
    else f.closed
  { f with
    used := f.used.union (escaping inner.used)
    closed := closed.union (escaping inner.closed)
    written := f.written.union (escaping inner.written)
    usesEval := f.usesEval || inner.usesEval }

/-- A name may be looked up at run time, so that every variable counts as captured. -/
def isOpen (f : Frame) : Bool := f.usesEval || f.fullActivation

/-- Settle which lexical variables are captured, and in a block also the others. What is bound here
is closed no longer. -/
def finishLexical (f : Frame) : Frame :=
  if f.isOpen then
    { f with
      lexical := f.lexical.captureAll
      declared := if f.isBlock then f.declared.captureAll else f.declared }
  else
    let binds (name : String) := f.lexical.contains name || (f.isBlock && f.declared.contains name)
    let bound := f.closed.filter binds
    let capture (env : Environment) := bound.toList.foldl Environment.capture env
    { f with
      lexical := capture f.lexical
      declared := if f.isBlock then capture f.declared else f.declared
      closed := f.closed.filter (!binds ·) }

/-- Settle which declared variables of a function or program are captured. -/
def captureDeclared (f : Frame) : Frame × Captures :=
  if f.isOpen then ({ f with declared := f.declared.captureAll }, ⟨f.declared.names, true, false⟩)
  else
    let names := f.declared.names.filter f.closed.contains
    let writes (name : String) := !f.parameters.isEmpty && f.written.contains name
    ({ f with declared := names.foldl Environment.capture f.declared },
      ⟨names, f.parameters.any writes, f.shadowsArguments || writes "arguments"⟩)

def finish (f : Frame) : Frame × ScopeSummary :=
  let (f, captures) := f.finishLexical.captureDeclared
  (f, {
    declared := f.declared
    lexical := f.lexical
    parameters := f.parameters
    captured := captures.names
    written := f.written
    free := f.used.filter (!f.isDeclared ·)
    modifiedParameter := captures.modifiedParameter
    modifiedArguments := captures.modifiedArguments
    usesEval := f.usesEval
    fullActivation := f.fullActivation
    strict := f.strict
    directSuper := f.directSuper
    superBinding := f.superBinding })

def finishBlock (f : Frame) : Frame × Environment :=
  let f := f.finishLexical
  (f, f.lexical)

end Frame

end EcmaFront
