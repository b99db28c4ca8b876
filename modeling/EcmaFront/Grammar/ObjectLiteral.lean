import EcmaFront.Grammar.Callable
import EcmaFront.Grammar.Lookahead
import EcmaFront.Grammar.PropertyNames

/-!
Object literals.
-/

set_option autoImplicit false

namespace EcmaFront

namespace PropertyNames

def addAccessorKey {E : Type} (names : PropertyNames) (key : PropertyKey E) (kind : PropertyKind) :
    Except Cause PropertyNames :=
  match key.name? with
  | some name => names.addAccessor name (kind == .getter)
  | .none => .ok (.uses names.table)

/-- Define the name of a key, if it has one, as a data property. -/
def addDataKey {E : Type} (names : PropertyNames) (key : PropertyKey E) :
    Except Cause PropertyNames :=
  match key.name? with
  | some name => names.addData name
  | .none => .ok names

end PropertyNames

namespace Parse

variable {B : NodeAlgebra} (r : Rules B)

def propertyKey : Parse (PropertyKey B.Expression) := do
  let s ← state
  match s.kind with
  | .string =>
    next
    pure (.string s.token.text)
  | .number =>
    next
    pure (.number s.token.numberValue)
  | .leftBracket =>
    next
    let key ← r.assignment
    expect .rightBracket
    pure (.computed key)
  | kind =>
    if kind.isIdentifierName then
      next
      pure (.ident s.token.name)
    else unexpected

/-- The properties so far, the last one first, with their names. -/
structure ObjectScan (P : Type) where
  properties : List P
  names : PropertyNames
  /-- A property sets the prototype. -/
  prototype : Bool

/-- Take over names unless they exclude each other. -/
def settle {α : Type} (result : Except Cause α) (extent : Extent) : Parse α :=
  match result with
  | .ok a => pure a
  | .error cause => failAt cause extent

def accessorMode (kind : PropertyKind) : Mode := if kind == .getter then .getter else .setter

def noteAccessor (names : PropertyNames) : Parse Unit := do
  if names.isData then emit (.firstAccessor (← state).token.extent.start)

def accessorProperty (kind : PropertyKind) (scan : ObjectScan B.Property) :
    Parse (ObjectScan B.Property) := do
  let s ← state
  noteAccessor scan.names
  next
  let key ← propertyKey r
  let names ← settle (scan.names.addAccessorKey key kind) s.token.extent
  let value ← functionNode r s.start { name := key.name?, mode := accessorMode kind }
  let property := B.entry (← spanFrom s.start) key kind value
  pure { scan with properties := property :: scan.properties, names }

def namesPrototype {E : Type} : PropertyKey E → Bool
  | .ident name | .string name => name == "__proto__"
  | _ => false

def propertyValue (start : ParseState) (key : PropertyKey B.Expression) (prototype : Bool) :
    Parse (PropertyKind × B.Expression × Bool) := do
  let s ← state
  let plain := start.kind == .identifier
  match s.kind with
  | .colon =>
    next
    let value ← r.assignment
    if namesPrototype key then
      if prototype then failAt .repeatedPrototype start.token.extent else pure (.value, value, true)
    else pure (.value, value, prototype)
  | .leftParen =>
    let value ← functionNode r start.start { name := key.name?, mode := .method }
    pure (.method, value, prototype)
  | kind =>
    if plain && kind == .equal then fail .shorthandInitializer
    else if plain && (kind == .comma || kind == .rightBrace) then
      let name := key.name?.getD ""
      modifyScopes (·.use name)
      pure (.shorthand, B.ident (← spanFrom start.start) name, prototype)
    else unexpected

def dataProperty (scan : ObjectScan B.Property) : Parse (ObjectScan B.Property) := do
  let start ← state
  let key ← propertyKey r
  let (kind, value, prototype) ← propertyValue r start key scan.prototype
  let names ← settle (scan.names.addDataKey key) start.token.extent
  let property := B.entry (← spanFrom start.start) key kind value
  pure ⟨property :: scan.properties, names, prototype⟩

def spreadProperty (scan : ObjectScan B.Property) (start : Position) :
    Parse (ObjectScan B.Property) := do
  let argument ← r.assignment
  let property := B.spreadEntry (← spanFrom start) argument
  pure { scan with properties := property :: scan.properties }

def property (scan : ObjectScan B.Property) : Parse (ObjectScan B.Property) := do
  let start := (← state).start
  if ← consume .dotDotDot then spreadProperty r scan start
  else
    match ← accessor? with
    | some kind => accessorProperty r kind scan
    | none => dataProperty r scan

def propertyRound (scan : ObjectScan B.Property) :
    Parse (Round (ObjectScan B.Property) (List B.Property)) := do
  if (← state).kind == .rightBrace then pure (.done scan.properties.reverse)
  else
    let scan ← property r scan
    if ← consume .comma then pure (.again scan) else pure (.done scan.properties.reverse)

def objectLiteral : Parse B.Expression := do
  let start := (← state).start
  next
  let properties ← allowingIn true (repeatFrom ⟨[], .none, false⟩ (propertyRound r))
  expect .rightBrace
  pure (B.object (← spanFrom start) properties)

end Parse

end EcmaFront
