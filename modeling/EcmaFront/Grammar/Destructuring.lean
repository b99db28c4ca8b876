import EcmaFront.Grammar.Operand

/-!
Patterns. One grammar serves bindings and assignments; a form says what the names are. A text that
is no pattern is an error where a binding must stand, and an answer where an assignment might.
-/

set_option autoImplicit false

namespace EcmaFront.Parse

variable {B : NodeAlgebra} (r : Rules B) (form : BindingForm)

def noPattern {α : Type} : Parse (Option α) :=
  if form == .assignment then pure none else unexpected

/-- A leaf of a pattern: a name to bind, or an operand to assign to. -/
def patternTarget : Parse (Option B.Pattern) := do
  if form != .assignment then some <$> bindingName B form
  else
    let extent := (← state).token.extent
    let target ← leftHandSide r
    if B.isTarget target then
      match B.name? target with
      | some name => modify fun s => { s with pendingWrites := (name, extent) :: s.pendingWrites }
      | none => pure ()
      pure (some (B.target target))
    else pure none

def patternDefault : Parse (Option B.Expression) := do
  if ← consume .equal then some <$> allowingIn true r.assignment else pure none

/-- The elements of an array pattern, and the pattern for the rest. -/
structure ArrayParts (B : NodeAlgebra) where
  elements : List (Option (PatternElement B.Expression B.Pattern))
  rest : Option B.Pattern

def restElement (elements : List (Option (PatternElement B.Expression B.Pattern))) :
    Parse (Option (ArrayParts B)) := do
  next
  match ← r.pattern form with
  | none => pure none
  | some rest =>
    if (← state).kind == .rightBracket then pure (some ⟨elements.reverse, some rest⟩)
    else if form == .assignment then pure none
    else fail .restElementNotLast

def arrayPatternRound (elements : List (Option (PatternElement B.Expression B.Pattern))) :
    Parse (Round (List (Option (PatternElement B.Expression B.Pattern))) (Option (ArrayParts B))) :=
  do
  let s ← state
  match s.kind with
  | .rightBracket => pure (.done (some ⟨elements.reverse, none⟩))
  | .comma =>
    next
    pure (.again (none :: elements))
  | .dotDotDot => .done <$> restElement r form elements
  | _ =>
    match ← r.pattern form with
    | none => pure (.done none)
    | some target =>
      let default ← patternDefault r
      let elements := some ⟨← spanFrom s.start, target, default⟩ :: elements
      if (← state).kind == .rightBracket then pure (.done (some ⟨elements.reverse, none⟩))
      else if ← consume .comma then pure (.again elements)
      else .done <$> noPattern form

def arrayPattern : Parse (Option B.Pattern) := do
  let start := (← state).start
  next
  match ← repeatFrom [] (arrayPatternRound r form) with
  | none => pure none
  | some parts =>
    next
    pure (some (B.arrayPattern (← spanFrom start) parts.elements parts.rest))

/-- The key of a property in a pattern, and its name if it may stand for the target as well. -/
def patternKey : Parse (Option (PropertyKey B.Expression × Option String)) := do
  let s ← state
  match s.kind with
  | .string =>
    next
    pure (some (.string s.token.text, none))
  | .number =>
    next
    pure (some (.number s.token.numberValue, none))
  | .leftBracket =>
    next
    let key ← allowingIn true r.assignment
    expect .rightBracket
    pure (some (.computed key, none))
  | kind =>
    if kind.isIdentifierName then
      next
      let name := s.token.name
      pure (some (.ident name, if s.atBindingName then some name else none))
    else noPattern form

/-- The target of a property and whether its key stands for it. -/
def patternPropertyTarget (start : ParseState) (name? : Option String) :
    Parse (Option (B.Pattern × Bool)) := do
  if ← consume .colon then
    let target ← r.pattern form
    pure (target.map (·, false))
  else
    match name? with
    | some name =>
      (fun target => some (target, true)) <$> bindName B form name start.start start.token.extent
    | none => noPattern form

def patternProperty (properties : List (PatternProperty B.Expression B.Pattern)) :
    Parse (Option (List (PatternProperty B.Expression B.Pattern))) := do
  let start ← state
  match ← patternKey r form with
  | none => pure none
  | some key =>
    match ← patternPropertyTarget r form start key.2 with
    | none => pure none
    | some target =>
      let default ← patternDefault r
      pure (some (⟨← spanFrom start.start, key.1, target.1, default, target.2⟩ :: properties))

def patternPropertyRound (properties : List (PatternProperty B.Expression B.Pattern)) :
    Parse (Round (List (PatternProperty B.Expression B.Pattern))
      (Option (List (PatternProperty B.Expression B.Pattern)))) := do
  if (← state).kind == .rightBrace then pure (.done (some properties.reverse))
  else
    match ← patternProperty r form properties with
    | none => pure (.done none)
    | some properties =>
      if ← consume .comma then pure (.again properties) else pure (.done (some properties.reverse))

def objectPattern : Parse (Option B.Pattern) := do
  let start := (← state).start
  next
  match ← repeatFrom [] (patternPropertyRound r form) with
  | none => pure none
  | some properties =>
    if (← state).kind == .rightBrace then
      next
      pure (some (B.objectPattern (← spanFrom start) properties))
    else noPattern form

def pattern : Parse (Option B.Pattern) :=
  nested do
    match (← state).kind with
    | .leftBracket => arrayPattern r form
    | .leftBrace => objectPattern r form
    | _ => patternTarget r form

/-- Read what begins with a bracket as an assignment pattern, if the token after it is acceptable
then. Otherwise nothing was read. -/
def assignmentPattern? (accept : ParseState → Bool) : Parse (Option B.Pattern) := do
  if !(← state).atBracket then pure none
  else if !(← followsBrackets accept) then pure none
  else
    let point := (← state).checkpoint
    let pattern ← attempt (r.pattern .assignment)
    if pattern.isSome && accept (← state) then
      commitWrites point
      pure pattern
    else
      modify (·.backtrack point)
      pure none

end EcmaFront.Parse
