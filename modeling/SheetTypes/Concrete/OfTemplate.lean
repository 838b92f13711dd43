import SheetTypes.Concrete
import SheetTypes.Registry.Declaration
import SheetTypes.Template.Instantiation

/-!
Concrete types of templates whose variables are all bound, and the tags of concrete tagged types.
The units and tagged types that a template mentions must be declared.
-/

set_option autoImplicit false

namespace SheetTypes

def Registry.checkUnit (registry : Registry) (unit : GroundUnit) : Except TypeError Unit :=
  match unit.keys.find? fun name => !registry.hasUnit name with
  | some name => .error (.unknownUnit name registry.unitNames)
  | none => .ok ()

def Registry.definitionFor (registry : Registry) (name : String) (operands : Nat) :
    Except TypeError TaggedType :=
  match registry.type? name with
  | none => .error (.unknownType name registry.typeNames)
  | some definition =>
      if definition.params.length = operands then .ok definition
      else .error (.ofCause (.arityMismatch name definition.params.length operands))

namespace Template

def concretePowers (bindings : ConcreteBindings) :
    GroundUnit → List (String × Int) → Except TypeError GroundUnit
  | product, [] => .ok product
  | product, (name, number) :: powers =>
      match bindings.units.lookup name with
      | none => .error (.ofCause (.unresolvedVariable (unitVariableText name)))
      | some unit => concretePowers bindings (product.multiply (unit.raise number)) powers

def concreteUnit (registry : Registry) (bindings : ConcreteBindings) (unit : UnitTemplate) :
    Except TypeError GroundUnit := do
  registry.checkUnit unit.names
  concretePowers bindings unit.names unit.vars.toList

mutual

/-- The concrete type of a template. `label` names the template in errors and the number is the
position of the root. -/
def concreteNode (registry : Registry) (bindings : ConcreteBindings) (label : String) :
    Nat → Template → Except TypeError ConcreteType
  | _, .var name =>
      match bindings.types.lookup name with
      | none => .error (.ofCause (.unresolvedVariable (typeVariableText name)))
      | some type => .ok type
  | _, .number unit => do return .number (← concreteUnit registry bindings unit)
  | _, .text => .ok .text
  | _, .boolean => .ok .boolean
  | _, .date kind => .ok (.date kind)
  | node, .tuple items => do
      return .tuple (← concreteItems registry bindings label (node + 1) items)
  | node, .array item => do
      return .array (← concreteNode registry bindings label (node + 1) item)
  | node, .function params result => do
      let made ← concreteItems registry bindings label (node + 1) params
      let result ← concreteNode registry bindings label
        (node + 1 + TypeTerm.itemsCount params) result
      return .function made result
  | node, .record fields => do
      return .record (← concreteFields registry bindings label node (node + 1) [] fields)
  | node, .tagged name operands => do
      let definition ← registry.definitionFor name operands.length
      match Registry.firstRepeated [] definition.tagNames with
      | some tag => throw (duplicateField label node tag)
      | none => pure ()
      let made ← concreteOperands registry bindings label (node + 1) definition.params operands
      return .tagged name made

def concreteItems (registry : Registry) (bindings : ConcreteBindings) (label : String) :
    Nat → List Template → Except TypeError (List ConcreteType)
  | _, [] => .ok []
  | node, item :: items => do
      let made ← concreteNode registry bindings label node item
      let rest ← concreteItems registry bindings label (node + item.nodeCount) items
      return made :: rest

/-- The fields of a record whose fields so far are given; a name that comes twice is noticed once
its type is made. -/
def concreteFields (registry : Registry) (bindings : ConcreteBindings) (label : String)
    (record : Nat) :
    Nat → List (String × ConcreteType) → List (String × Template) →
      Except TypeError (List (String × ConcreteType))
  | _, done, [] => .ok done
  | node, done, (name, type) :: fields => do
      let made ← concreteNode registry bindings label node type
      if (done.lookup name).isSome then throw (duplicateField label record name)
      concreteFields registry bindings label record (node + type.nodeCount)
        (insertField done name made) fields

def concreteOperands (registry : Registry) (bindings : ConcreteBindings) (label : String) :
    Nat → List Parameter → List (Operand Template UnitTemplate) →
      Except TypeError (List ConcreteOperand)
  | _, _, [] => .ok []
  | _, [], _ :: _ => .ok []
  | node, .type _ :: params, .type value :: operands => do
      let made ← concreteNode registry bindings label node value
      let rest ← concreteOperands registry bindings label (node + value.nodeCount) params operands
      return .type made :: rest
  | node, .unit _ :: params, .unit value :: operands => do
      let made ← concreteUnit registry bindings value
      let rest ← concreteOperands registry bindings label node params operands
      return .unit made :: rest
  | _, .type name :: _, .unit value :: _ =>
      .error (.mismatch (Parameter.type name).render
        (Operand.renderWith Template.spelling (.unit value)))
  | _, .unit name :: _, .type value :: _ =>
      .error (.mismatch (Parameter.unit name).render
        (Operand.renderWith Template.spelling (.type value)))

end

def concretize (registry : Registry) (bindings : ConcreteBindings) (label : String)
    (template : Template) : Except TypeError ConcreteType :=
  concreteNode registry bindings label 0 template

end Template

structure ConcreteTag where
  name : String
  index : Nat
  payload : Option ConcreteType
deriving DecidableEq

namespace ConcreteType

def bindOperands : List Parameter → List ConcreteOperand → ConcreteBindings →
    Except TypeError ConcreteBindings
  | .type name :: params, .type value :: operands, bindings =>
      bindOperands params operands (bindings.putType name value)
  | .unit name :: params, .unit value :: operands, bindings =>
      bindOperands params operands (bindings.putUnit name value)
  | param :: _, operand :: _, _ =>
      .error (.mismatch param.render (operand.renderWith spelling))
  | _, _, bindings => .ok bindings

def tagsFrom (registry : Registry) (definition : TaggedType) (bindings : ConcreteBindings) :
    Nat → List String → List Tag → Except TypeError (List ConcreteTag)
  | _, _, [] => .ok []
  | index, seen, tag :: tags => do
      if seen.contains tag.name then throw (.ofCause (.duplicateField tag.name))
      let payload ← tag.payload.mapM
        (Template.concretize registry bindings (definition.payloadLabel tag))
      let rest ← tagsFrom registry definition bindings (index + 1) (tag.name :: seen) tags
      return ⟨tag.name, index, payload⟩ :: rest

/-- The tags of the tagged type with this name and these operands. A tag's payload is made on
demand, so that types that refer to themselves stay finite. -/
def tags (registry : Registry) (name : String) (operands : List ConcreteOperand) :
    Except TypeError (List ConcreteTag) := do
  let definition ← registry.definitionFor name operands.length
  let bindings ← bindOperands definition.params operands .empty
  tagsFrom registry definition bindings 0 [] definition.tags

end ConcreteType

end SheetTypes
