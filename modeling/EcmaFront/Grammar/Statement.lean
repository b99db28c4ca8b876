import EcmaFront.Grammar.Jump
import EcmaFront.Grammar.Loop

/-!
Statements and the declarations among them.
-/

set_option autoImplicit false

namespace EcmaFront.Parse

variable {B : NodeAlgebra} (r : Rules B)

def ifStatement : Parse B.Statement := do
  let start := (← state).start
  next
  let test ← condition r
  let consequent ← r.statement
  let alternate ← if ← consume .kwElse then some <$> r.statement else pure none
  pure (B.branch (← spanFrom start) test consequent alternate)

def withStatement : Parse B.Statement := do
  let s ← state
  if s.strict then fail .withInStrictCode
  else
    next
    let object ← condition r
    modifyScopes .activate
    let body ← r.statement
    pure (B.withObject (← spanFrom s.start) object body)

/-- The clauses so far, the last one first, and whether one is the default. -/
structure SwitchScan (B : NodeAlgebra) where
  clauses : List (SwitchClause B.Expression B.Statement)
  hasDefault : Bool

def clauseTest (hasDefault : Bool) : Parse (Option B.Expression) := do
  match (← state).kind with
  | .kwCase =>
    next
    some <$> expression r
  | .kwDefault =>
    if hasDefault then fail .repeatedDefault
    else
      next
      pure none
  | _ => unexpected

def endsClause (kind : TokenKind) : Bool :=
  kind == .kwCase || kind == .kwDefault || kind == .rightBrace

def clauseRound (scan : SwitchScan B) :
    Parse (Round (SwitchScan B) (List (SwitchClause B.Expression B.Statement))) := do
  let s ← state
  if s.kind == .rightBrace then pure (.done scan.clauses.reverse)
  else
    let test ← clauseTest r scan.hasDefault
    expect .colon
    let body ← itemsUntil r endsClause
    let clause := ⟨← spanFrom s.start, test, body⟩
    pure (.again ⟨clause :: scan.clauses, scan.hasDefault || test.isNone⟩)

def switchStatement : Parse B.Statement := do
  let start := (← state).start
  next
  let discriminant ← condition r
  expect .leftBrace
  modifyScopes (·.pushBlock.beginSwitch)
  let clauses ← repeatFrom ⟨[], false⟩ (clauseRound r)
  modifyScopes .endSwitch
  expect .rightBrace
  let scope ← finishBlock
  pure (B.switch (← spanFrom start) discriminant clauses scope)

def catchParameter : Parse B.Pattern := do
  let s ← state
  if s.atBindingName then bindingName B .catchParameter
  else if s.atBracket then bindingPattern r .catchParameter
  else unexpected

/-- A handler, from `catch` on. Its body shares the frame of its parameter. -/
def catchClause : Parse (CatchClause B.Statement B.Pattern) := do
  let start := (← state).start
  next
  expect .leftParen
  modifyScopes .pushBlock
  let parameter ← catchParameter r
  expect .rightParen
  let bodyStart := (← state).start
  expect .leftBrace
  let body ← blockItems r
  expect .rightBrace
  let scope ← finishBlock
  let s ← state
  pure ⟨s.spanFrom start, parameter, B.block ⟨s.spanFrom bodyStart, body, scope⟩⟩

def tryStatement : Parse B.Statement := do
  let start := (← state).start
  next
  let guarded ← block r
  let handler ← if (← state).kind == .kwCatch then some <$> catchClause r else pure none
  let finalizer ← if ← consume .kwFinally then some <$> block r else pure none
  if handler.isNone && finalizer.isNone then fail .tryAlone
  else pure (B.attempt (← spanFrom start) guarded handler finalizer)

def emptyStatement : Parse B.Statement := do
  let start := (← state).start
  next
  pure (B.empty (← spanFrom start))

def debuggerStatement : Parse B.Statement := do
  let start := (← state).start
  next
  consumeSemicolon
  pure (B.debugger (← spanFrom start))

def expressionStatement : Parse B.Statement := do
  let start := (← state).start
  let e ← expression r
  consumeSemicolon
  pure (B.expression (← spanFrom start) e)

def colonFollows : Parse Bool :=
  ask fun s =>
    let (found, lexer) := s.lexer.colonFollows
    (found, { s with lexer })

def statement : Parse B.Statement :=
  nested do
    let s ← state
    match s.kind with
    | .leftBrace => block r
    | .kwVar => variableStatement r .var
    | .semicolon => emptyStatement
    | .kwIf => ifStatement r
    | .kwFor => forStatement r
    | .kwWhile => whileStatement r
    | .kwDo => doWhileStatement r
    | .kwContinue => continueStatement
    | .kwBreak => breakStatement
    | .kwReturn => returnStatement r
    | .kwWith => withStatement r
    | .kwSwitch => switchStatement r
    | .kwThrow => throwStatement r
    | .kwTry => tryStatement r
    | .kwDebugger => debuggerStatement
    | .kwFunction => if s.strict then fail .functionAsStatement else functionDeclaration r
    | .kwConst => fail .declarationAsStatement
    | .kwLet =>
      if ← atLetDeclaration then fail .declarationAsStatement else expressionStatement r
    | .kwClass => fail (.unsupported .classes)
    | .kwImport | .kwExport => fail (.unsupported .modules)
    | .identifier => if ← colonFollows then labeledStatement r else expressionStatement r
    | _ => expressionStatement r

def item : Parse B.Statement := do
  match (← state).kind with
  | .kwFunction => functionDeclaration r
  | .kwConst => variableStatement r .const
  | .kwLet => if ← atLetDeclaration then variableStatement r .let else r.statement
  | .kwClass => fail (.unsupported .classes)
  | .kwImport | .kwExport => fail (.unsupported .modules)
  | _ => r.statement

end EcmaFront.Parse
