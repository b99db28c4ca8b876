import EcmaFront.Grammar.ObjectLiteral

/-!
Operands: literals, names, functions, groups, and the chains of members, calls and `new` around
them. Each `new` takes the first argument list after its callee; the ones left over get none.
-/

set_option autoImplicit false

namespace EcmaFront.Parse

variable {B : NodeAlgebra} (r : Rules B)

/-- Further assignment expressions after a first one, as long as commas follow. -/
def expressionRound (expressions : List B.Expression) :
    Parse (Round (List B.Expression) (List B.Expression)) := do
  if ← consume .comma then
    let expression ← r.assignment
    pure (.again (expression :: expressions))
  else pure (.done expressions.reverse)

def expression : Parse B.Expression := do
  let start := (← state).start
  let first ← r.assignment
  if (← state).kind == .comma then
    let expressions ← repeatFrom [first] (expressionRound r)
    pure (B.sequence (← spanFrom start) expressions)
  else pure first

def spreadOrAssignment : Parse B.Expression := do
  let s ← state
  if s.kind == .dotDotDot then
    next
    let argument ← r.assignment
    pure (B.spread (← spanFrom s.start) argument)
  else r.assignment

def argumentRound (arguments : List B.Expression) :
    Parse (Round (List B.Expression) (List B.Expression)) := do
  if (← state).kind == .rightParen then pure (.done arguments.reverse)
  else
    let arguments := (← spreadOrAssignment r) :: arguments
    if ← consume .comma then pure (.again arguments) else pure (.done arguments.reverse)

def arguments : Parse (List B.Expression) := do
  expect .leftParen
  let arguments ← allowingIn true (repeatFrom [] (argumentRound r))
  expect .rightParen
  pure arguments

def elementRound (elements : List (Option B.Expression)) :
    Parse (Round (List (Option B.Expression)) (List (Option B.Expression))) := do
  match (← state).kind with
  | .rightBracket => pure (.done elements.reverse)
  | .comma =>
    next
    pure (.again (none :: elements))
  | _ =>
    let elements := some (← spreadOrAssignment r) :: elements
    if (← state).kind == .rightBracket then pure (.done elements.reverse)
    else
      expect .comma
      pure (.again elements)

def arrayLiteral : Parse B.Expression := do
  let start := (← state).start
  next
  let elements ← allowingIn true (repeatFrom [] (elementRound r))
  expect .rightBracket
  pure (B.array (← spanFrom start) elements)

def regexpLiteral : Parse B.Expression := do
  let start := (← state).start
  modify .readRegexp
  let s ← state
  if s.kind.isError then unexpected
  else
    next
    let (pattern, flags) :=
      match s.token.value with
      | .regexp pattern flags => (pattern, flags)
      | _ => ("", "")
    pure (B.regexp (← spanFrom start) pattern flags)

def leaf (make : Span → B.Expression) : Parse B.Expression := do
  let start := (← state).start
  next
  pure (make (← spanFrom start))

def reference (name : String) : Parse B.Expression := do
  let start := (← state).start
  next
  modifyScopes (·.use name)
  pure (B.ident (← spanFrom start) name)

def group : Parse B.Expression := do
  next
  let inner ← allowingIn true (expression r)
  expect .rightParen
  pure inner

def primary : Parse B.Expression := do
  let s ← state
  match s.kind with
  | .kwFunction => functionExpression r
  | .leftParen => group r
  | .leftBracket => arrayLiteral r
  | .leftBrace => objectLiteral r
  | .kwThis => leaf B.self
  | .kwNull => leaf B.null
  | .kwTrue => leaf (B.bool · true)
  | .kwFalse => leaf (B.bool · false)
  | .number => leaf (B.number · s.token.numberValue)
  | .string => leaf (B.string · s.token.text)
  | .identifier => reference s.token.text
  | .kwLet => if s.strict then unexpected else reference "let"
  | .slash | .slashEqual => regexpLiteral
  | .kwClass => fail (.unsupported .classes)
  | .backQuote => fail (.unsupported .templates)
  | .kwImport => fail (.unsupported .modules)
  | _ => unexpected

/-- What `super` may be here is said by the nearest function that is no arrow, which also remembers
it. -/
def superExpression : Parse B.Expression := do
  let start ← state
  next
  let s ← state
  match s.kind with
  | .leftParen =>
    if s.scopes.receiver?.any (·.constructorKind == .derived) then
      modifyScopes (·.modifyReceiver ({ · with directSuper := true }))
    else failAt .superCall start.token.extent
  | .dot | .leftBracket =>
    if s.scopes.receiver?.any fun f => f.mode.isMethodLike || f.constructorKind != .none then
      modifyScopes (·.modifyReceiver ({ · with superBinding := true }))
    else failAt .superMember start.token.extent
  | _ => failAt .superAlone start.token.extent
  pure (B.super (← spanFrom start.start))

/-- The operand `new.target`, from its dot on, with the token of the `new` before it. -/
def newTarget (new : ParseState) : Parse B.Expression := do
  let s ← state
  if !s.atWord "target" then unexpected
  else if s.scopes.receiver?.any (·.isFunction) then
    next
    pure (B.newTarget (← spanFrom new.start))
  else failAt .newTarget new.token.extent

/-- The starts of the `new` tokens before an operand, the last one first, and `new.target` if that
is the operand. -/
def newRound (news : List Position) :
    Parse (Round (List Position) (List Position × Option B.Expression)) := do
  let s ← state
  if s.kind == .kwNew then
    next
    if ← consume .dot then
      let target ← newTarget s
      pure (.done (news, some target))
    else pure (.again (s.start :: news))
  else pure (.done (news, none))

/-- An operand with the `new` tokens that wait for their arguments, the last one first. -/
structure MemberChain (E : Type) where
  expression : E
  news : List Position

def memberRound (start callee : Position) (chain : MemberChain B.Expression) :
    Parse (Round (MemberChain B.Expression) (MemberChain B.Expression)) := do
  let s ← state
  let first := if chain.news.isEmpty then start else callee
  match s.kind with
  | .dot =>
    next
    let t ← state
    if t.kind.isIdentifierName then
      next
      let member := B.member (← spanFrom first) chain.expression t.token.name
      pure (.again { chain with expression := member })
    else unexpected
  | .leftBracket =>
    next
    let key ← allowingIn true (expression r)
    expect .rightBracket
    let member := B.index (← spanFrom first) chain.expression key
    pure (.again { chain with expression := member })
  | .leftParen =>
    let arguments ← arguments r
    match chain.news with
    | new :: news =>
      pure (.again ⟨B.construct (← spanFrom new) chain.expression (some arguments), news⟩)
    | [] => pure (.again ⟨B.call (← spanFrom start) chain.expression arguments, []⟩)
  | .backQuote => fail (.unsupported .templates)
  | _ => pure (.done chain)

/-- An operand that can be assigned to, if it is a name or a member. -/
def leftHandSide : Parse B.Expression := do
  let start := (← state).start
  let (news, target) ← repeatFrom [] (newRound (B := B))
  let callee := (← state).start
  let operand ←
    match target with
    | some target => pure target
    | none => if (← state).kind == .kwSuper then superExpression else primary r
  let chain ← repeatFrom ⟨operand, news⟩ (memberRound r start callee)
  let stop := (← state).lastEnd
  pure (chain.news.foldl (fun e new => B.construct ⟨new, stop⟩ e none) chain.expression)

end EcmaFront.Parse
