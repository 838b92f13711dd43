import SheetTypes.Scale
import SheetTypes.Template

/-!
The registry of declared units and tagged types. A declaration enters it only if everything that
it refers to is declared before, so that definitions of units never run in circles; declared names
are never changed.
-/

set_option autoImplicit false

namespace SheetTypes

inductive UnitDefinition where
  | base
  | derived (scale : Scale) (base : GroundUnit)
deriving DecidableEq

inductive Parameter where
  | type (name : String)
  | unit (name : String)
deriving DecidableEq

namespace Parameter

def name : Parameter → String
  | type name => name
  | unit name => name

def render : Parameter → String
  | type name => typeVariableText name
  | unit name => unitVariableText name

end Parameter

structure Tag where
  name : String
  payload : Option Template
deriving DecidableEq

structure TaggedType where
  name : String
  params : List Parameter
  tags : List Tag
deriving DecidableEq

namespace TaggedType

def tag? (definition : TaggedType) (name : String) : Option Tag :=
  definition.tags.find? fun tag => tag.name == name

def tagIndex? (definition : TaggedType) (name : String) : Option Nat :=
  definition.tags.findIdx? fun tag => tag.name == name

def tagNames (definition : TaggedType) : List String := definition.tags.map Tag.name

def payloadLabel (definition : TaggedType) (tag : Tag) : String :=
  definition.name ++ "." ++ tag.name

def references (definition : TaggedType) : List String :=
  definition.tags.flatMap fun tag => (tag.payload.map Template.taggedTypes).getD []

end TaggedType

/-- The declared units and tagged types, in the order of their declaration. -/
structure Registry where
  units : List (String × UnitDefinition)
  types : List TaggedType
deriving DecidableEq

namespace Registry

def empty : Registry := ⟨[], []⟩

def builtin : Registry where
  units :=
    [("m", .base), ("s", .base), ("kg", .base),
      ("km", .derived 1000 (.ofKey "m")), ("g", .derived (Rat.divInt 1 1000) (.ofKey "kg")),
      ("min", .derived 60 (.ofKey "s")), ("h", .derived 3600 (.ofKey "s"))]
  types := [⟨"Optional", [.type "t"], [⟨"None", none⟩, ⟨"Is", some (.var "t")⟩]⟩]

def unit? (registry : Registry) (name : String) : Option UnitDefinition :=
  registry.units.lookup name

def type? (registry : Registry) (name : String) : Option TaggedType :=
  registry.types.find? fun definition => definition.name == name

def hasUnit (registry : Registry) (name : String) : Bool := (registry.unit? name).isSome

def hasType (registry : Registry) (name : String) : Bool := (registry.type? name).isSome

def unitNames (registry : Registry) : List String := orderedNames (registry.units.map Prod.fst)

def typeNames (registry : Registry) : List String :=
  orderedNames (registry.types.map TaggedType.name)

/-- Puts a unit into the registry without any check; it replaces a unit of the same name. -/
def putUnit (registry : Registry) (name : String) (definition : UnitDefinition) : Registry :=
  ⟨registry.units.filter (fun unit => unit.1 != name) ++ [(name, definition)], registry.types⟩

def putType (registry : Registry) (definition : TaggedType) : Registry :=
  ⟨registry.units,
    registry.types.filter (fun type => type.name != definition.name) ++ [definition]⟩

end Registry

inductive RegistryError where
  | duplicateUnit (name : String)
  | duplicateType (name : String)
  | unknownUnit (unit referrer : String)
  | unknownType (type referrer : String)
  | duplicateTag (type tag : String)
  | duplicateParameter (type param : String)
  | unboundParameter (type param : String)
  | invalidScale (unit scale : String)
  | functionPayload (type tag : String)
  | unreadable (subject reason : String)
  | unresolved (names : List String)
  | inaccessible (detail : String)
deriving DecidableEq

def RegistryError.message : RegistryError → String
  | duplicateUnit name => "unit '" ++ name ++ "' is already declared"
  | duplicateType name => "type '" ++ name ++ "' is already declared"
  | unknownUnit unit referrer =>
      "unknown unit '" ++ unit ++ "' referenced by '" ++ referrer ++ "'"
  | unknownType type referrer =>
      "unknown type '" ++ type ++ "' referenced by '" ++ referrer ++ "'"
  | duplicateTag type tag => "type '" ++ type ++ "' declares tag '" ++ tag ++ "' twice"
  | duplicateParameter type param =>
      "type '" ++ type ++ "' declares parameter '" ++ param ++ "' twice"
  | unboundParameter type param =>
      "type '" ++ type ++ "' uses undeclared parameter '" ++ param ++ "'"
  | invalidScale unit scale => "unit '" ++ unit ++ "' has invalid scale '" ++ scale ++ "'"
  | functionPayload type tag =>
      "tag '" ++ tag ++ "' of type '" ++ type ++ "' carries a function payload"
  | unreadable subject reason => "cannot parse " ++ subject ++ ": " ++ reason
  | unresolved names =>
      "declarations reference each other or missing names: " ++ ", ".intercalate names
  | inaccessible detail => "I/O error: " ++ detail

end SheetTypes
