import EcmaFront.Grammar.Operation

/-!
Variable declarations.
-/

set_option autoImplicit false

namespace EcmaFront.Parse

variable {B : NodeAlgebra} (r : Rules B)

/-- Declarators with what the head of a loop wants to know of them. -/
structure DeclarationList (B : NodeAlgebra) where
  declarators : List (Declarator B.Expression B.Pattern) := []
  /-- The first declarator without the initializer that its kind requires. -/
  missing : Option Extent := none
  initialized : Bool := false

/-- The pattern or name at the front of a declarator. -/
def declaratorTarget (kind : VariableKind) : Parse B.Pattern := do
  let s ← state
  if s.atBracket then bindingPattern r (.variable kind) else bindingName B (.variable kind)

def writeNames (names : List String) : Parse Unit :=
  modifyScopes fun scopes => names.foldl Scopes.write scopes

/-- One declarator, added to the ones before it, the last one first. In the head of a loop an
initializer may be missing until it is known what kind of loop it is. -/
def declarator (kind : VariableKind) (inHead : Bool) (list : DeclarationList B) :
    Parse (DeclarationList B) := do
  let s ← state
  let mark := s.boundNames.length
  let target ← declaratorTarget r kind
  let names ← takeBoundNames mark
  if ← consume .equal then
    writeNames names
    let init ← r.assignment
    let declarator := ⟨← spanFrom s.start, target, some init⟩
    pure { list with declarators := declarator :: list.declarators, initialized := true }
  else
    let required := kind == .const || s.atBracket
    if required && !inHead then fail (.missingInitializer s.atBracket)
    else
      let declarator := ⟨← spanFrom s.start, target, none⟩
      pure { list with
        declarators := declarator :: list.declarators
        missing := if required then some (list.missing.getD s.token.extent) else list.missing }

def declaratorRound (kind : VariableKind) (inHead : Bool) (list : DeclarationList B) :
    Parse (Round (DeclarationList B) (DeclarationList B)) := do
  let list ← declarator r kind inHead list
  if ← consume .comma then pure (.again list)
  else pure (.done { list with declarators := list.declarators.reverse })

def declarationList (kind : VariableKind) (inHead : Bool) : Parse (DeclarationList B) :=
  repeatFrom {} (declaratorRound r kind inHead)

def variableStatement (kind : VariableKind) : Parse B.Statement := do
  let start := (← state).start
  next
  let list ← declarationList r kind false
  consumeSemicolon
  pure (B.declaration ⟨← spanFrom start, kind, list.declarators⟩)

end EcmaFront.Parse
