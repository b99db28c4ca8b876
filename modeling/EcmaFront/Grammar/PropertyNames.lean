import EcmaFront.Error

/-!
The names of the properties in an object literal, as far as they exclude each other. Until the first
accessor only data properties are there, which exclude no name.
-/

set_option autoImplicit false

namespace EcmaFront

structure PropertyUse where
  data : Bool := false
  getter : Bool := false
  setter : Bool := false
  deriving DecidableEq, Repr, Inhabited

inductive PropertyNames where
  /-- The names of data properties. -/
  | data (names : List String)
  /-- The uses of each name. -/
  | uses (table : List (String × PropertyUse))
  deriving DecidableEq, Repr

namespace PropertyNames

def none : PropertyNames := .data []

/-- No accessor was seen. -/
def isData : PropertyNames → Bool
  | .data _ => true
  | .uses _ => false

def table : PropertyNames → List (String × PropertyUse)
  | .data names => names.map fun name => (name, { data := true })
  | .uses table => table

def useOf (table : List (String × PropertyUse)) (name : String) : PropertyUse :=
  (table.lookup name).getD {}

def addAccessor (names : PropertyNames) (name : String) (isGetter : Bool) :
    Except Cause PropertyNames :=
  let table := names.table
  let use := useOf table name
  if use.data then .error (.dataAndAccessor name)
  else if if isGetter then use.getter else use.setter then .error (.repeatedAccessor name)
  else
    let use := if isGetter then { use with getter := true } else { use with setter := true }
    .ok (.uses ((name, use) :: table))

def addData (names : PropertyNames) (name : String) : Except Cause PropertyNames :=
  match names with
  | .data names => .ok (.data (name :: names))
  | .uses table =>
    let use := useOf table name
    if use.getter || use.setter then .error (.dataAndAccessor name)
    else .ok (.uses ((name, { use with data := true }) :: table))

end PropertyNames

end EcmaFront
