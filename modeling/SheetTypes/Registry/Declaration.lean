import SheetTypes.Registry

set_option autoImplicit false

namespace SheetTypes

/-- An action that extends the registry; it may fail, and keeps what it has declared before. -/
abbrev Declaring := ExceptT RegistryError (StateM Registry)

namespace Registry

def declareBaseUnit (name : String) : Declaring Unit := do
  let registry ← get
  if registry.hasUnit name then throw (.duplicateUnit name)
  set (registry.putUnit name .base)

/-- Declares that one unit is a multiple of others. The scale must be positive, and the units of
the base must be declared. -/
def declareUnit (name : String) (scale : Scale) (base : GroundUnit) : Declaring Unit := do
  if ¬0 < scale then throw (.invalidScale name scale.render)
  let registry ← get
  if registry.hasUnit name then throw (.duplicateUnit name)
  match base.keys.find? fun unit => !registry.hasUnit unit with
  | some missing => throw (.unknownUnit missing name)
  | none => set (registry.putUnit name (.derived scale base))

def firstRepeated {α : Type} [BEq α] (seen : List α) : List α → Option α
  | [] => none
  | item :: items => if seen.contains item then some item else firstRepeated (item :: seen) items

/-- Checks a payload of a tagged type: it holds no function, mentions only parameters of its type,
and refers to declared units and to declared types or its own. -/
def checkPayload (registry : Registry) (definition : TaggedType) (tag : Tag)
    (payload : Template) : Except RegistryError Unit := do
  if payload.hasFunction then throw (.functionPayload definition.name tag.name)
  match payload.typeVars.find? fun name => !definition.params.contains (.type name) with
  | some name => throw (.unboundParameter definition.name name)
  | none => pure ()
  match payload.unitVars.find? fun name => !definition.params.contains (.unit name) with
  | some name => throw (.unboundParameter definition.name name)
  | none => pure ()
  match payload.units.find? fun name => !registry.hasUnit name with
  | some name => throw (.unknownUnit name definition.name)
  | none => pure ()
  match payload.taggedTypes.find? fun name =>
      name != definition.name && !registry.hasType name with
  | some name => throw (.unknownType name definition.name)
  | none => pure ()

def checkTags (registry : Registry) (definition : TaggedType) :
    List String → List Tag → Except RegistryError Unit
  | _, [] => pure ()
  | seen, tag :: tags => do
      if seen.contains tag.name then throw (.duplicateTag definition.name tag.name)
      match tag.payload with
      | none => pure ()
      | some payload => checkPayload registry definition tag payload
      checkTags registry definition (tag.name :: seen) tags

def checkType (registry : Registry) (definition : TaggedType) : Except RegistryError Unit := do
  if registry.hasType definition.name then throw (.duplicateType definition.name)
  match firstRepeated [] definition.params with
  | some param => throw (.duplicateParameter definition.name param.name)
  | none => pure ()
  checkTags registry definition [] definition.tags

def declareType (definition : TaggedType) : Declaring Unit := do
  let registry ← get
  match registry.checkType definition with
  | .error error => throw error
  | .ok () => set (registry.putType definition)

end Registry

end SheetTypes
