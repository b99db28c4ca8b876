import EcmaFront.Error
import EcmaFront.Options
import EcmaFront.Text.Quoted

/-!
What a parse reports while it runs.
-/

set_option autoImplicit false

namespace EcmaFront

inductive EventLevel where
  | debug | trace
  deriving DecidableEq, Repr

inductive Event where
  | started (url : String) (units : Nat) (mode : Mode)
  | startedFunction (name : Option String) (url : String) (mode : Mode)
  | finished (url : String)
  | failed (error : ParseError)
  /-- Reading goes on at an earlier token. -/
  | wentBack (target current : Nat)
  | strictDirective (offset : Nat)
  | firstAccessor (offset : Nat)
  | recordedFunction (name : Option String) (start stop : Nat)
  | recordedFunctions (count : Nat)
  deriving DecidableEq, Repr

namespace Event

def modeText : Mode → String
  | .script => "Program"
  | .module => "Module"
  | .plainFunction => "NormalFunction"
  | .getter => "Getter"
  | .setter => "Setter"
  | .method => "Method"
  | .arrowFunction => "ArrowFunction"

def level : Event → EventLevel
  | .started .. | .startedFunction .. | .finished _ | .failed _ | .recordedFunctions _ => .debug
  | .wentBack .. | .strictDirective _ | .firstAccessor _ | .recordedFunction .. => .trace

def text : Event → String
  | .started url units mode =>
    "parsing " ++ url ++ " (" ++ toString units ++ " units, " ++ modeText mode ++ ")"
  | .startedFunction name url mode =>
    "re-parsing function " ++ Quoted.quoteOption name ++ " in " ++ url ++ " (" ++
      modeText mode ++ ")"
  | .finished url => "parsed " ++ url
  | .failed error => "parse failed: " ++ error.text
  | .wentBack target current =>
    "restoring to offset " ++ toString target ++ " from " ++ toString current
  | .strictDirective offset =>
    "\"use strict\" at offset " ++ toString offset ++ ", re-parsing the prologue"
  | .firstAccessor offset =>
    "object literal accessor at offset " ++ toString offset ++ ", checking duplicates"
  | .recordedFunction name start stop =>
    "recorded function " ++ Quoted.quoteOption name ++ " at " ++ toString start ++
      ".." ++ toString stop
  | .recordedFunctions count => "pre-parsed " ++ toString count ++ " functions"

end Event

end EcmaFront
