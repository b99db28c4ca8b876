import EcmaFront.Grammar.Rules

/-!
Lists of statements. The list of a program or function begins with its directives; one that asks for
strict code makes the list be read again from its start as strict code.
-/

set_option autoImplicit false

namespace EcmaFront.Parse

/-- A function that turns strict must have been acceptable to strict code so far. -/
def enableStrict (directive : Extent) : Parse Unit := do
  let s ← state
  match s.scopes.function? with
  | none => pure ()
  | some frame =>
    if frame.isFunction && s.richParameters then failAt .directiveAfterParameters directive
    else
      modifyScopes (·.modifyFunction ({ · with strict := true }))
      let valid := frame.strictValid && !frame.repeatedParameter &&
        !frame.name.any isStrictReserved &&
        !frame.parameters.any isStrictReserved
      if !valid then failAt .directiveAgainstNames directive

/-- The text of a directive for strict code, written without escapes. -/
def isStrictDirective (t : Token) : Bool :=
  t.text? == some "use strict" && t.extent.stop - t.extent.start == "'use strict'".length

variable {B : NodeAlgebra} (r : Rules B)

/-- The statements so far, the last one first, and whether all are directives. -/
structure BodyScan (S : Type) where
  body : List S
  prologue : Bool

/-- One statement of a program or function that ends at a token of the given kind. -/
def bodyRound (close : TokenKind) (start : Checkpoint) (scan : BodyScan B.Statement) :
    Parse (Round (BodyScan B.Statement) (List B.Statement)) := do
  let s ← state
  if s.kind == close then pure (.done scan.body.reverse)
  else if s.kind == .eof then unexpected
  else if scan.prologue && s.kind == .string then
    let statement ← r.item
    if !B.isDirective statement then pure (.again ⟨statement :: scan.body, false⟩)
    else if isStrictDirective s.token && !(← state).strict then
      enableStrict s.token.extent
      emit (.strictDirective s.token.extent.start)
      modify (·.backtrack start)
      pure (.again ⟨[], true⟩)
    else pure (.again ⟨statement :: scan.body, true⟩)
  else
    let statement ← r.item
    pure (.again ⟨statement :: scan.body, false⟩)

def body (close : TokenKind) : Parse (List B.Statement) := do
  let start := (← state).checkpoint
  repeatFrom ⟨[], true⟩ (bodyRound r close start)

/-- One statement of a list, with the ones before it, the last one first. -/
def itemRound (close : TokenKind → Bool) (items : List B.Statement) :
    Parse (Round (List B.Statement) (List B.Statement)) := do
  let kind := (← state).kind
  if close kind then pure (.done items.reverse)
  else if kind == .eof then unexpected
  else
    let item ← r.item
    pure (.again (item :: items))

def itemsUntil (close : TokenKind → Bool) : Parse (List B.Statement) :=
  repeatFrom [] (itemRound r close)

def blockItems : Parse (List B.Statement) := itemsUntil r (· == .rightBrace)

def block : Parse B.Statement := do
  let start := (← state).start
  expect .leftBrace
  modifyScopes .pushBlock
  let body ← blockItems r
  expect .rightBrace
  let scope ← finishBlock
  pure (B.block ⟨← spanFrom start, body, scope⟩)

end EcmaFront.Parse
