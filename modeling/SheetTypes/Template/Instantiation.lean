import SheetTypes.Store
import SheetTypes.Template

/-!
Instantiating templates for inference: every named variable becomes a variable of the store, one
name the same variable throughout. Errors refer to the nodes of the template by their position in
reading order.
-/

set_option autoImplicit false

namespace SheetTypes

structure Bindings where
  types : List (String × InferredType)
  units : List (String × InferredUnit)

namespace Bindings

def empty : Bindings := ⟨[], []⟩

def putType (bindings : Bindings) (name : String) (type : InferredType) : Bindings :=
  ⟨(name, type) :: bindings.types.filter (fun entry => entry.1 != name), bindings.units⟩

def putUnit (bindings : Bindings) (name : String) (unit : InferredUnit) : Bindings :=
  ⟨bindings.types, (name, unit) :: bindings.units.filter (fun entry => entry.1 != name)⟩

end Bindings

/-- An action that instantiates templates; bindings made before a failure stay. -/
abbrev Instantiating := ExceptT TypeError (StateT Bindings (StateM Store))

def insertField {τ : Type} (fields : List (String × τ)) (name : String) (type : τ) :
    List (String × τ) :=
  OrderedMap.alterEntry name (fun _ => some type) fields

namespace Template

def instantiateTypeVar (name : String) : Instantiating InferredType := do
  let bindings ← getThe Bindings
  match bindings.types.lookup name with
  | some type => return type
  | none =>
      let var ← Store.freshTypeVar .none
      set (bindings.putType name (.var var))
      return .var var

def instantiateUnitVar (name : String) : Instantiating InferredUnit := do
  let bindings ← getThe Bindings
  match bindings.units.lookup name with
  | some unit => return unit
  | none =>
      let var ← Store.freshUnitVar
      set (bindings.putUnit name (.ofVar var))
      return .ofVar var

def instantiatePowers : InferredUnit → List (String × Int) → Instantiating InferredUnit
  | product, [] => pure product
  | product, (name, number) :: powers => do
      let unit ← instantiateUnitVar name
      let product ← Store.multiplyPower product unit number
      instantiatePowers product powers

def instantiateUnit (unit : UnitTemplate) : Instantiating InferredUnit :=
  instantiatePowers (.ofGround unit.names) unit.vars.toList

def duplicateField (label : String) (node : Nat) (name : String) : TypeError :=
  (TypeError.ofCause (.duplicateField name)).atPlace (.node label node)

mutual

/-- Instantiates a template. `label` names the template in errors and `node` is the position of
the root. -/
def instantiateNode (label : String) : Nat → Template → Instantiating InferredType
  | _, .var name => instantiateTypeVar name
  | _, .number unit => do return .number (← instantiateUnit unit)
  | _, .text => pure .text
  | _, .boolean => pure .boolean
  | _, .date kind => pure (.date kind)
  | node, .tuple items => do return .tuple (← instantiateItems label (node + 1) items)
  | node, .array item => do return .array (← instantiateNode label (node + 1) item)
  | node, .function params result => do
      let instances ← instantiateItems label (node + 1) params
      let result ← instantiateNode label (node + 1 + TypeTerm.itemsCount params) result
      return .function instances result
  | node, .record fields => do
      return .record (← instantiateFields label node (node + 1) [] fields)
  | node, .tagged name operands => do
      return .tagged name (← instantiateOperands label (node + 1) operands)

def instantiateItems (label : String) : Nat → List Template → Instantiating (List InferredType)
  | _, [] => pure []
  | node, item :: items => do
      let made ← instantiateNode label node item
      let instances ← instantiateItems label (node + item.nodeCount) items
      return made :: instances

/-- Instantiates the fields of a record whose fields so far are given; a name that comes twice is
noticed once its type is instantiated. -/
def instantiateFields (label : String) (record : Nat) :
    Nat → List (String × InferredType) → List (String × Template) →
      Instantiating (List (String × InferredType))
  | _, done, [] => pure done
  | node, done, (name, type) :: fields => do
      let made ← instantiateNode label node type
      if (done.lookup name).isSome then throw (duplicateField label record name)
      instantiateFields label record (node + type.nodeCount) (insertField done name made)
        fields

def instantiateOperands (label : String) :
    Nat → List (Operand Template UnitTemplate) →
      Instantiating (List (Operand InferredType InferredUnit))
  | _, [] => pure []
  | node, .type value :: operands => do
      let made ← instantiateNode label node value
      let instances ← instantiateOperands label (node + value.nodeCount) operands
      return .type made :: instances
  | node, .unit value :: operands => do
      let made ← instantiateUnit value
      let instances ← instantiateOperands label node operands
      return .unit made :: instances

end

def instantiate (label : String) (template : Template) : Instantiating InferredType :=
  instantiateNode label 0 template

end Template

end SheetTypes
