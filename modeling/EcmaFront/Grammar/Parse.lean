import EcmaFront.Grammar.State

/-!
Parsing steps. A step may fail, and the state it failed in is kept, since what was recorded on the
way stays recorded when another reading of the text is tried. Repetition is bounded by a number that
the length of the text gives.
-/

set_option autoImplicit false

namespace EcmaFront

structure ParseContext where
  source : Source
  /-- More rounds than any repetition needs. -/
  rounds : Nat
  /-- Functions are recorded. -/
  recording : Bool
  deriving DecidableEq, Repr

def Parse (α : Type) : Type := ParseContext → ParseState → Except ParseError α × ParseState

/-- Go on with another state, or end. -/
inductive Round (σ α : Type) where
  | again (state : σ)
  | done (result : α)

namespace Parse

variable {α σ : Type}

instance : Monad Parse where
  pure a := fun _ s => (.ok a, s)
  bind p f := fun c s =>
    match p c s with
    | (.ok a, s) => f a c s
    | (.error e, s) => (.error e, s)

def context : Parse ParseContext := fun c s => (.ok c, s)

def state : Parse ParseState := fun _ s => (.ok s, s)

def modify (change : ParseState → ParseState) : Parse Unit := fun _ s => (.ok (), change s)

def ask (question : ParseState → α × ParseState) : Parse α := fun _ s =>
  let (a, s) := question s
  (.ok a, s)

def failAt (cause : Cause) (extent : Extent) : Parse α := fun c s =>
  (.error (.atExtent cause c.source.url extent), s)

def fail (cause : Cause) : Parse α := fun c s =>
  (.error (.atExtent cause c.source.url s.token.extent), s)

def unexpected : Parse α := fun c s =>
  (.error (.atExtent s.unexpected c.source.url s.token.extent), s)

/-- Change the state after a step, also after one that failed. -/
def always (p : Parse α) (after : ParseState → ParseState) : Parse α := fun c s =>
  let (result, s) := p c s
  (result, after s)

def attempt (p : Parse (Option α)) : Parse (Option α) := fun c s =>
  match p c s with
  | (.ok a, s) => (.ok a, s)
  | (.error e, s) => if e.cause = .exhausted then (.error e, s) else (.ok none, s)

def repeatBounded : Nat → (σ → Parse (Round σ α)) → σ → Parse α
  | 0, _, _ => fail .exhausted
  | n + 1, round, x => do
    match ← round x with
    | .again x => repeatBounded n round x
    | .done a => pure a

def repeatFrom (start : σ) (round : σ → Parse (Round σ α)) : Parse α := fun c s =>
  repeatBounded c.rounds round start c s

def next : Parse Unit := modify .next

def consume (kind : TokenKind) : Parse Bool := do
  if (← state).kind == kind then
    next
    pure true
  else pure false

def expect (kind : TokenKind) : Parse Unit := do
  if !(← consume kind) then
    let s ← state
    if s.kind.isError then unexpected else fail (.expected kind s.tokenText)

/-- The end of a statement: a semicolon, or a place where one may be left out. -/
def consumeSemicolon : Parse Unit := do
  if !(← consume .semicolon) then
    if !(← state).mayEnd then unexpected

def spanFrom (start : Position) : Parse Span := do pure ((← state).spanFrom start)

def nested (p : Parse α) : Parse α := do
  modify fun s => { s with nesting := s.nesting + 1 }
  if maxNesting < (← state).nesting then fail .tooDeep
  else always p fun s => { s with nesting := s.nesting - 1 }

def allowingIn (allowed : Bool) (p : Parse α) : Parse α := do
  let outer := (← state).allowsIn
  modify fun s => { s with allowsIn := allowed }
  always p fun s => { s with allowsIn := outer }

def modifyScopes (change : Scopes → Scopes) : Parse Unit :=
  modify fun s => { s with scopes := change s.scopes }

def declaring (declare : Scopes → Scopes × Conflicts) : Parse Conflicts :=
  ask fun s =>
    let (scopes, conflicts) := declare s.scopes
    (conflicts, { s with scopes })

def emit (event : Event) : Parse Unit := modify fun s => { s with events := event :: s.events }

def finishBlock : Parse Environment :=
  ask fun s =>
    match s.scopes.top? with
    | none => (.empty, s)
    | some frame =>
      let (frame, scope) := frame.finishBlock
      (scope, { s with scopes := (s.scopes.modifyTop fun _ => frame).pop true })

/-- Leave the innermost function with the summary of its scope. -/
def finishFunction : Parse ScopeSummary :=
  ask fun s =>
    match s.scopes.top? with
    | none => ({}, s)
    | some frame =>
      let (frame, summary) := frame.finish
      (summary, { s with scopes := (s.scopes.modifyTop fun _ => frame).pop true })

end Parse

end EcmaFront
