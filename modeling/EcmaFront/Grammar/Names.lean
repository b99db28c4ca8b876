import EcmaFront.Grammar.Rules

/-!
Names where they are bound and where they are assigned to.
-/

set_option autoImplicit false

namespace EcmaFront.Parse

def declarationOf (name : String) : BindingForm → Scopes → Scopes × Conflicts
  | .variable kind, s => s.declare name kind
  | .parameter, s => s.declareParameter name
  | .catchParameter, s => s.declareCatch name
  | .assignment, s => (s, .none)

/-- Why a binding that met conflicts is illegal, if it is. A sloppy parameter list may repeat a name
for now: whether it really may is known at its end. -/
def bindingFault? (form : BindingForm) (name : String) (conflicts : Conflicts) (strict : Bool) :
    Option Cause :=
  let lexical := form == .variable .let || form == .variable .const
  if lexical && name == "let" then some .letAsName
  else if conflicts.strict && strict then some (.variableName name)
  else if !conflicts.duplicated then none
  else if form != .parameter then some (.alreadyDeclared name)
  else if strict then some .strictRepeatedParameter
  else none

def declareBinding (form : BindingForm) (name : String) (extent : Extent) : Parse Unit := do
  let conflicts ← declaring (declarationOf name form)
  match bindingFault? form name conflicts (← state).strict with
  | some cause => failAt cause extent
  | none =>
    match form with
    | .variable _ => modify fun s => { s with boundNames := name :: s.boundNames }
    | _ => pure ()

/-- The names bound since there were `mark` of them, in order. -/
def takeBoundNames (mark : Nat) : Parse (List String) :=
  ask fun s =>
    let fresh := s.boundNames.length - mark
    ((s.boundNames.take fresh).reverse, { s with boundNames := s.boundNames.drop fresh })

def write (name : String) (extent : Extent) : Parse Unit := do
  if (← state).strict && isRestricted name then failAt (.assignmentTo name) extent
  else modifyScopes (·.write name)

def writeAll : List (String × Extent) → Parse Unit
  | [] => pure ()
  | (name, extent) :: rest => do
    write name extent
    writeAll rest

/-- Assign to what a pattern since a checkpoint would assign to. -/
def commitWrites (point : Checkpoint) : Parse Unit := do
  let writes ← ask fun s =>
    let fresh := s.pendingWrites.length - point.pendingWrites
    ((s.pendingWrites.take fresh).reverse, { s with pendingWrites := s.pendingWrites.drop fresh })
  writeAll writes

variable (B : NodeAlgebra)

/-- An expression is assigned to; if it is a name, the name is written. -/
def noteAssignment (target : B.Expression) (extent : Extent) : Parse Unit :=
  match B.name? target with
  | some name => write name extent
  | none => pure ()

def bindName (form : BindingForm) (name : String) (start : Position) (extent : Extent) :
    Parse B.Pattern := do
  let span ← spanFrom start
  match form with
  | .assignment =>
    modifyScopes (·.use name)
    modify fun s => { s with pendingWrites := (name, extent) :: s.pendingWrites }
    pure (B.target (B.ident span name))
  | form =>
    declareBinding form name extent
    pure (B.binding span name)

def bindingName (form : BindingForm) : Parse B.Pattern := do
  let s ← state
  if s.atBindingName then
    next
    bindName B form s.token.name s.start s.token.extent
  else unexpected

def bindingPattern {B : NodeAlgebra} (r : Rules B) (form : BindingForm) : Parse B.Pattern := do
  match ← r.pattern form with
  | some pattern => pure pattern
  | none => unexpected

end EcmaFront.Parse
