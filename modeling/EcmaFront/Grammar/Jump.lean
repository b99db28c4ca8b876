import EcmaFront.Grammar.Operand

/-!
Statements that leave the place where they stand, and the labels some of them name.
-/

set_option autoImplicit false

namespace EcmaFront.Parse

variable {B : NodeAlgebra}

def jumpLabel? (s : ParseState) : Option String :=
  if !s.mayEnd && s.kind == .identifier then some s.token.text else none

/-- A `break` or `continue`: with a label that is found, or where one without a label may stand. -/
def jump (labelFault? : String → Option Label → Option Cause) (allowed : Scopes → Bool)
    (outside : Cause) (make : Span → Option String → B.Statement) : Parse B.Statement := do
  let start ← state
  next
  let s ← state
  let label := jumpLabel? s
  match label with
  | some name =>
    match labelFault? name (s.scopes.label? name) with
    | some cause => fail cause
    | none => next
  | none => if !allowed s.scopes then failAt outside start.token.extent
  consumeSemicolon
  pure (make (← spanFrom start.start) label)

def continueFault? (name : String) : Option Label → Option Cause
  | none => some (.undefinedLabel name)
  | some label => if label.isLoop then none else some (.continueToBlock name)

def breakFault? (name : String) : Option Label → Option Cause
  | none => some (.undefinedLabel name)
  | some _ => none

def continueStatement : Parse B.Statement :=
  jump continueFault? Scopes.canContinue .continueOutsideLoop B.continueTo

def breakStatement : Parse B.Statement :=
  jump breakFault? Scopes.canBreak .breakOutsideLoop B.breakTo

variable (r : Rules B)

def returnStatement : Parse B.Statement := do
  let s ← state
  if !s.scopes.function?.any (·.isFunction) then fail .returnOutsideFunction
  else
    next
    let argument ← if (← state).mayEnd then pure none else some <$> expression r
    consumeSemicolon
    pure (B.leave (← spanFrom s.start) argument)

def throwStatement : Parse B.Statement := do
  let start := (← state).start
  next
  if (← state).newline then fail .newlineAfterThrow
  else
    let argument ← expression r
    consumeSemicolon
    pure (B.throw (← spanFrom start) argument)

def labeledStatement : Parse B.Statement := do
  let s ← state
  let label := s.token.text
  if (s.scopes.label? label).isSome then fail (.repeatedLabel label)
  else
    next
    expect .colon
    let isLoop ← labelsLoop
    modifyScopes (·.pushLabel label isLoop)
    let body ← always r.statement fun s => { s with scopes := s.scopes.popLabel }
    pure (B.labeled (← spanFrom s.start) label body)

end EcmaFront.Parse
