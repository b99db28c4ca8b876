import EcmaFront.Grammar.Declaration

/-!
Loops. A `for` statement turns out to be one over members only after its first part was read, as a
declaration, as a pattern or as an expression.
-/

set_option autoImplicit false

namespace EcmaFront.Parse

variable {B : NodeAlgebra} (r : Rules B)

/-- The body of a loop, which `break` and `continue` may leave. -/
def loopBody : Parse B.Statement := do
  modifyScopes .beginLoop
  always r.statement fun s => { s with scopes := s.scopes.endLoop }

def condition : Parse B.Expression := do
  expect .leftParen
  let test ← expression r
  expect .rightParen
  pure test

def whileStatement : Parse B.Statement := do
  let start := (← state).start
  next
  let test ← condition r
  let body ← loopBody r
  pure (B.loopWhile (← spanFrom start) test body)

def doWhileStatement : Parse B.Statement := do
  let start := (← state).start
  next
  let body ← loopBody r
  expect .kwWhile
  let test ← condition r
  let _ ← consume .semicolon
  pure (B.doWhile (← spanFrom start) body test)

def eachStatement (start : Position) (left : ForTarget B.Statement B.Expression B.Pattern)
    (loop : EachLoop) : Parse B.Statement := do
  next
  let right ← if loop == .forOf then r.assignment else expression r
  expect .rightParen
  let body ← loopBody r
  let scope ← finishBlock
  pure (B.loopEach loop (← spanFrom start) left right body scope)

/-- An expression, unless a token comes first that may stand in its place. -/
def expressionBefore (close : TokenKind) : Parse (Option B.Expression) := do
  if (← state).kind == close then pure none else some <$> expression r

def countedStatement (start : Position) (init : Option (ForInit B.Statement B.Expression)) :
    Parse B.Statement := do
  expect .semicolon
  let test ← expressionBefore r .semicolon
  expect .semicolon
  let update ← expressionBefore r .rightParen
  expect .rightParen
  let body ← loopBody r
  let scope ← finishBlock
  pure (B.loop (← spanFrom start) init test update body scope)

/-- Why declarators cannot stand in the head of a loop over members, if they cannot. -/
def eachFault? (list : DeclarationList B) (loop : EachLoop) : Option Cause :=
  if list.declarators.length != 1 then some (.manyLoopVariables loop)
  else if list.initialized then some (.loopVariableInitializer loop)
  else none

/-- A `for` statement whose head begins with a declaration, from its keyword on. -/
def declaringLoop (start : Position) (kind : VariableKind) : Parse B.Statement := do
  let declarationStart := (← state).start
  next
  let list ← allowingIn false (declarationList r kind true)
  let declaration : Parse B.Statement := do
    pure (B.declaration ⟨← spanFrom declarationStart, kind, list.declarators⟩)
  match (← state).eachLoop? with
  | some loop =>
    match eachFault? list loop with
    | some cause => fail cause
    | none => eachStatement r start (.declaration (← declaration)) loop
  | none =>
    match list.missing with
    | some extent => failAt .missingLoopInitializer extent
    | none => countedStatement r start (some (.declaration (← declaration)))

def expressionLoop (start : Position) : Parse B.Statement := do
  let extent := (← state).token.extent
  let left ← allowingIn false (expression r)
  match (← state).eachLoop? with
  | some loop =>
    if B.isTarget left then
      noteAssignment B left extent
      eachStatement r start (.expression left) loop
    else failAt (.loopTarget loop) extent
  | none => countedStatement r start (some (.expression left))

/-- A `for` statement whose head begins with a pattern or an expression. -/
def assigningLoop (start : Position) : Parse B.Statement := do
  match ← assignmentPattern? r (·.eachLoop?.isSome) with
  | some target =>
    match (← state).eachLoop? with
    | some loop => eachStatement r start (.pattern target) loop
    | none => unexpected
  | none => expressionLoop r start

/-- The keyword of a declaration at the front of the head of a loop. -/
def headKind? : Parse (Option VariableKind) := do
  match (← state).kind with
  | .kwVar => pure (some .var)
  | .kwConst => pure (some .const)
  | .kwLet => pure (if ← atLetDeclaration then some .let else none)
  | _ => pure none

def forStatement : Parse B.Statement := do
  let start := (← state).start
  next
  expect .leftParen
  modifyScopes .pushBlock
  if (← state).kind == .semicolon then countedStatement r start none
  else
    match ← headKind? with
    | some kind => declaringLoop r start kind
    | none => assigningLoop r start

end EcmaFront.Parse
