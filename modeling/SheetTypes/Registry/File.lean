import SheetTypes.Registry.Declaration
import SheetTypes.Template.Parser
import SheetTypes.Text.Blank

/-!
Collections of declarations whose entries may stand in any order. They are declared in rounds:
each round takes the entries whose references are all declared, and a round that finds none
refuses the rest.
-/

set_option autoImplicit false

namespace SheetTypes

structure UnitEntry where
  name : String
  scale : Option String
  base : Option String

structure TypeEntry where
  name : String
  params : List String
  tags : List Tag

structure RegistryFile where
  units : List UnitEntry
  types : List TypeEntry

inductive AdoptionError where
  | base (error : GroundUnitError)
  | entry (error : RegistryError)

def Parameter.parse (text : String) : Except RegistryError Parameter :=
  let chars := Text.trim text.toList
  let refused := RegistryError.unreadable ("type parameter '" ++ String.ofList chars ++ "'")
    "expected '@TYPEVAR name' or '@UNITVAR name'"
  let marker := String.ofList (chars.takeWhile fun c => !Text.isBlank c)
  let name := Text.trim (chars.dropWhile fun c => !Text.isBlank c)
  if name.isEmpty || !name.all Text.continuesWord then .error refused
  else if marker = "@TYPEVAR" then .ok (.type (String.ofList name))
  else if marker = "@UNITVAR" then .ok (.unit (String.ofList name))
  else .error refused

def Tag.parsePayload (type tag text : String) : Except RegistryError Template :=
  match Template.parse text with
  | .ok payload => .ok payload
  | .error error => .error (.unreadable ("payload of " ++ type ++ "." ++ tag) error.message)

namespace UnitEntry

def references (entry : UnitEntry) : List String :=
  match entry.base.map UnitTemplate.parse with
  | some (.ok unit) => unit.names.keys
  | _ => []

def parseBase (name base : String) : Except RegistryError GroundUnit :=
  match GroundUnit.parse base with
  | .ok unit => .ok unit
  | .error error => .error (.unreadable ("base of unit '" ++ name ++ "'") error.message)

def parseScale (name scale : String) : Except RegistryError Scale :=
  match Scale.parse scale with
  | none => .error (.invalidScale name scale)
  | some scale => .ok scale

def definition (entry : UnitEntry) : Except AdoptionError UnitDefinition :=
  match entry.base with
  | none => .ok .base
  | some base => do
      let scale ← (parseScale entry.name (entry.scale.getD "1")).mapError .entry
      let base ← (GroundUnit.parse base).mapError .base
      return .derived scale base

def declare (entry : UnitEntry) : Declaring Unit :=
  match entry.base with
  | none =>
      match entry.scale with
      | some _ =>
          throw (.unreadable ("unit '" ++ entry.name ++ "'") "a scale needs a base unit")
      | none => Registry.declareBaseUnit entry.name
  | some base => do
      let base ← ExceptT.mk (pure (parseBase entry.name base))
      let scale ← ExceptT.mk (pure (parseScale entry.name (entry.scale.getD "1")))
      Registry.declareUnit entry.name scale base

end UnitEntry

def TypeEntry.definition (entry : TypeEntry) : Except RegistryError TaggedType := do
  let params ← entry.params.mapM Parameter.parse
  return ⟨entry.name, params, entry.tags⟩

namespace RegistryFile

/-- Declares entries round by round. Every round but a refusing one declares at least one entry,
so that `rounds` need not exceed their number. -/
def declareInRounds {ε : Type} (isReady : Registry → ε → Bool) (name : ε → String)
    (declare : ε → Declaring Unit) : Nat → List ε → Declaring Unit
  | _, [] => pure ()
  | 0, _ :: _ => pure ()
  | rounds + 1, entry :: entries => do
      let registry ← get
      let (ready, blocked) := (entry :: entries).partition (isReady registry)
      if ready.isEmpty then throw (.unresolved (blocked.map name))
      ready.forM declare
      declareInRounds isReady name declare rounds blocked

def unitIsReady (registry : Registry) (entry : UnitEntry) : Bool :=
  entry.references.all registry.hasUnit

def typeIsReady (registry : Registry) (definition : TaggedType) : Bool :=
  definition.references.all fun name => name == definition.name || registry.hasType name

def declare (file : RegistryFile) : Declaring Unit := do
  declareInRounds unitIsReady UnitEntry.name UnitEntry.declare file.units.length file.units
  let definitions ← ExceptT.mk (pure (file.types.mapM TypeEntry.definition))
  declareInRounds typeIsReady TaggedType.name Registry.declareType definitions.length definitions

/-- Takes all entries over in their order and without further checks; a later entry replaces an
earlier one of the same name. -/
def adopt (file : RegistryFile) (registry : Registry) : Except AdoptionError Registry := do
  let registry ← file.units.foldlM
    (fun (registry : Registry) entry => do
      return registry.putUnit entry.name (← entry.definition))
    registry
  file.types.foldlM
    (fun (registry : Registry) entry => do
      return registry.putType (← entry.definition.mapError .entry))
    registry

end RegistryFile

def Declaring.run {α : Type} (action : Declaring α) (registry : Registry) :
    Except RegistryError α × Registry :=
  StateT.run (ExceptT.run action) registry

end SheetTypes
