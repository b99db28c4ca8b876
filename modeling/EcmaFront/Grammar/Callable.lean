import EcmaFront.Grammar.Body
import EcmaFront.Grammar.Names

/-!
Functions from their parameters on. The frame of a function is left before the brace that closes its
body is consumed, so that the token after the brace is read under the strictness of the code around
it.
-/

set_option autoImplicit false

namespace EcmaFront.Parse

/-- What is known of a function before its parameters. -/
structure FunctionHeader where
  name : Option String
  mode : Mode
  form : FunctionForm := .normal
  constructorKind : ConstructorKind := .none
  bindsOwnName : Bool := false
  deriving DecidableEq, Repr

def FunctionHeader.bindingName? (h : FunctionHeader) : Option String :=
  if h.mode == .plainFunction then h.name else none

def FunctionHeader.frame (h : FunctionHeader) (strict : Bool) : Frame :=
  { Frame.function h.mode h.constructorKind h.bindingName? strict with
    bindsOwnName := h.bindsOwnName }

variable {B : NodeAlgebra} (r : Rules B)

def noteRichParameters : Parse Unit := modify fun s => { s with richParameters := true }

def parameterTarget : Parse B.Pattern := do
  let s ← state
  if s.atBindingName then bindingName B .parameter
  else if s.atBracket then
    noteRichParameters
    bindingPattern r .parameter
  else unexpected

/-- One parameter of a list, with the parameters before it, the last one first. -/
def parameterRound (parameters : List (Parameter B.Expression B.Pattern)) :
    Parse (Round (List (Parameter B.Expression B.Pattern))
      (List (Parameter B.Expression B.Pattern))) := do
  let s ← state
  if s.kind == .rightParen then pure (.done parameters.reverse)
  else if ← consume .dotDotDot then
    noteRichParameters
    let pattern ← parameterTarget r
    if (← state).kind != .rightParen then fail .restParameterNotLast
    else
      let parameter := ⟨← spanFrom s.start, pattern, none, true⟩
      pure (.done (parameter :: parameters).reverse)
  else
    let pattern ← parameterTarget r
    let default ←
      if ← consume .equal then
        noteRichParameters
        some <$> r.assignment
      else pure none
    let parameters := ⟨← spanFrom s.start, pattern, default, false⟩ :: parameters
    if ← consume .comma then pure (.again parameters) else pure (.done parameters.reverse)

/-- The parameters of a function, up to the closing parenthesis. -/
def formalParameters : Parse (List (Parameter B.Expression B.Pattern)) :=
  repeatFrom [] (parameterRound r)

def arityFault? {E P : Type} (mode : Mode) (parameters : List (Parameter E P)) : Option Cause :=
  match mode, parameters with
  | .getter, _ :: _ => some .getterParameters
  | .setter, [parameter] => if parameter.isRest then some .setterParameters else none
  | .setter, _ => some .setterParameters
  | _, _ => none

/-- The arity of accessors, and repeated names where even sloppy code does not allow them. -/
def checkParameters {E P : Type} (h : FunctionHeader) (parameters : List (Parameter E P)) :
    Parse Unit := do
  match arityFault? h.mode parameters with
  | some cause => fail cause
  | none =>
    let s ← state
    let unique := h.form == .arrow || h.mode.isMethodLike || s.richParameters
    if unique && s.scopes.top?.any (·.repeatedParameter) then fail .repeatedParameter

def parameters (h : FunctionHeader) : Parse (List (Parameter B.Expression B.Pattern)) := do
  let s ← state
  if h.form == .arrow && s.atBindingName then
    let pattern ← bindingName B .parameter
    pure [⟨← spanFrom s.start, pattern, none, false⟩]
  else
    expect .leftParen
    let parameters ← formalParameters r
    expect .rightParen
    pure parameters

def consumeArrow : Parse Unit := do
  let s ← state
  if s.kind != .arrow then unexpected
  else if s.newline then fail .newlineBeforeArrow
  else next

/-- The body of a function and the summary of its scope. `outerIn` says whether `in` is an operator
in the code around the function, which an expression for a body belongs to. -/
def functionBody (h : FunctionHeader) (outerIn : Bool) :
    Parse (FunctionBody B.Expression B.Statement × ScopeSummary) := do
  if (← state).kind == .leftBrace then
    next
    let statements ← body r .rightBrace
    let scope ← finishFunction
    next
    pure (.block statements, scope)
  else if h.form == .arrow then
    let result ← allowingIn outerIn r.assignment
    let scope ← finishFunction
    pure (.expression result, scope)
  else unexpected

def functionInside (start : Position) (h : FunctionHeader) (outerIn : Bool) :
    Parse (FunctionParts B.Expression B.Statement B.Pattern) := do
  let parametersStart := (← state).token.extent.start
  let parameters ← parameters r h
  checkParameters h parameters
  if h.form == .arrow then consumeArrow
  let bodyStart := (← state).start
  let (body, scope) ← functionBody r h outerIn
  let s ← state
  pure {
    span := s.spanFrom start
    parametersStart
    bodySpan := s.spanFrom bodyStart
    name := h.name
    mode := h.mode
    form := h.form
    constructorKind := h.constructorKind
    parameters
    body
    scope }

def recordFunction {E S P : Type} (parts : FunctionParts E S P) : Parse Unit := do
  if (← context).recording then
    let digest := FunctionDigest.ofParts parts
    emit (.recordedFunction digest.name digest.span.start.offset digest.span.stop.offset)
    modify fun s => { s with digests := digest.record s.digests }

def functionParts (start : Position) (h : FunctionHeader) :
    Parse (FunctionParts B.Expression B.Statement B.Pattern) := do
  let outer ← state
  modify fun s =>
    { s with scopes := s.scopes.push (h.frame s.strict), richParameters := false, allowsIn := true }
  always (functionInside r start h outer.allowsIn) fun s =>
    { s with richParameters := outer.richParameters, allowsIn := outer.allowsIn }

def functionNode (start : Position) (h : FunctionHeader) : Parse B.Expression := do
  let parts ← functionParts r start h
  recordFunction parts
  pure (B.function parts)

def functionExpression : Parse B.Expression := do
  let start := (← state).start
  next
  let s ← state
  if s.kind == .identifier then
    next
    functionNode r start { name := some s.token.text, mode := .plainFunction, bindsOwnName := true }
  else functionNode r start { name := none, mode := .plainFunction }

def arrowFunction (start : Position) : Parse B.Expression :=
  functionNode r start { name := none, mode := .arrowFunction, form := .arrow }

/-- Why a function may not be declared under a name, if it may not. -/
def functionNameFault? (name : String) (conflicts : Conflicts) (strict : Bool) : Option Cause :=
  if conflicts.strict && strict then some (.functionName name)
  else if conflicts.duplicated then some (.alreadyDeclared name)
  else none

/-- A function name belongs to the function around it, except that in a block of strict code it
belongs to the block. -/
def functionNameKind (s : ParseState) : VariableKind :=
  if s.strict && s.scopes.top?.any (·.isBlock) then .let else .var

def functionDeclaration : Parse B.Statement := do
  let start := (← state).start
  next
  let s ← state
  if s.kind != .identifier then unexpected
  else
    let name := s.token.text
    let conflicts ← declaring (·.declare name (functionNameKind s))
    match functionNameFault? name conflicts s.strict with
    | some cause => failAt cause s.token.extent
    | none =>
      next
      let parts ← functionParts r start { name := some name, mode := .plainFunction }
      recordFunction parts
      pure (B.functionDeclaration parts)

end EcmaFront.Parse
