import EcmaFront.Grammar.Run
import EcmaFront.Tree.Build
import EcmaFront.Tree.Class

/-!
Parsing and checking whole sources, and parsing one function of a source on its own.
-/

set_option autoImplicit false

namespace EcmaFront

/-- What came of a parse, and what it reported on the way. -/
structure Report (α : Type) where
  outcome : Except ParseError α
  events : List Event

/-- What is kept of a program that was only checked. -/
structure Outline where
  /-- In the order of the text. -/
  functions : List FunctionDigest
  scope : ScopeSummary
  deriving DecidableEq, Repr

/-- The code of the program is strict. -/
def Outline.strict (o : Outline) : Bool := o.scope.strict

namespace Parse

variable {B : NodeAlgebra}

def finishProgram : Parse ScopeSummary := do
  if (← state).scopes.top?.isNone then fail .noScope else finishFunction

def program (r : Rules B) (options : ParseOptions) : Parse B.Program := do
  modifyScopes (·.push (Frame.program options.mode options.startsStrict options.constructorKind))
  next
  let start := (← state).start
  let statements ← body r .eof
  let span ← spanFrom start
  let scope ← finishProgram
  pure (B.program span options.mode statements scope)

/-- One function that is all of the text, in the frame of a program. -/
def soleFunction (r : Rules B) (options : FunctionOptions) :
    Parse (FunctionParts B.Expression B.Statement B.Pattern) := do
  modifyScopes (·.push (Frame.program .script options.strict options.constructorKind))
  next
  let header : FunctionHeader := {
    name := options.name
    mode := options.mode
    form := options.form
    constructorKind := options.constructorKind
    bindsOwnName := options.mode == .plainFunction && options.name.isSome }
  let parts ← functionParts r (← state).start header
  if (← state).kind != .eof then unexpected
  else
    recordFunction parts
    pure parts

def run {α : Type} (p : Parse α) (source : Source) (recording : Bool) :
    Except ParseError α × ParseState :=
  p ⟨source, roundsFor source.size, recording⟩ (.initial source)

end Parse

def Rules.ofSource (B : NodeAlgebra) (source : Source) : Rules B :=
  Rules.bounded B (levelsFor source.size)

def runProgram (B : NodeAlgebra) (source : Source) (options : ParseOptions) (recording : Bool) :
    Except ParseError B.Program × ParseState :=
  (Parse.program (Rules.ofSource B source) options).run source recording

def reported {α : Type} (source : Source) (options : ParseOptions)
    (result : Except ParseError α × ParseState) : List Event :=
  let last : Event :=
    match result.1 with
    | .ok _ => .finished source.displayUrl
    | .error e => .failed e
  .started source.displayUrl source.size options.mode :: result.2.events.reverse ++ [last]

def parseProgram (source : Source) (options : ParseOptions) : Report Program :=
  let result := runProgram .tree source options false
  ⟨result.1, reported source options result⟩

def checkProgram (source : Source) (options : ParseOptions) : Report Outline :=
  let result := runProgram .check source options true
  let events := reported source options result
  match result with
  | (.ok scope, s) => ⟨.ok ⟨s.digests, scope⟩, events ++ [.recordedFunctions s.digests.length]⟩
  | (.error e, _) => ⟨.error e, events⟩

/-- Parse a source that is one function, from its parameters on. -/
def parseFunction (source : Source) (options : FunctionOptions) : Report Function :=
  let first : Event := .startedFunction options.name source.displayUrl options.mode
  let (outcome, s) := (Parse.soleFunction (Rules.ofSource .tree source) options).run source false
  match outcome with
  | .ok parts =>
    match (NodeAlgebra.tree.function parts : Expr) with
    | .function f => ⟨.ok f, first :: s.events.reverse⟩
    | _ => ⟨.error ⟨.notAFunction, source.url, source.startLine, 1⟩, first :: s.events.reverse⟩
  | .error e => ⟨.error e, first :: s.events.reverse ++ [.failed e]⟩

def FunctionDigest.parse (d : FunctionDigest) (whole : Source) : Report Function :=
  parseFunction (d.source whole) d.options

end EcmaFront
