import SheetTypes.Store
import SheetTypes.TypeTerm.Traversal

/-!
Concrete types: types without variables, as the evaluator takes them. `VOID` stands where a type
was left open and nothing was required of it.
-/

set_option autoImplicit false

namespace SheetTypes

/-- What stands in place of a variable in a concrete type. -/
inductive Undetermined where
  | void
deriving DecidableEq

abbrev ConcreteType := TypeTerm Undetermined GroundUnit

abbrev ConcreteOperand := Operand ConcreteType GroundUnit

namespace ConcreteType

def void : ConcreteType := .var .void

def isVoid (type : ConcreteType) : Bool := type.isVar

def spelling : Spelling Undetermined GroundUnit where
  typeVar _ := "VOID"
  unit := GroundUnit.render
  isScalar := PowerProduct.isOne

def render (type : ConcreteType) : String := type.renderWith spelling

def lift? (type : ConcreteType) : Option InferredType :=
  type.substituteM (fun _ => none) fun unit => some (.ofGround unit)

end ConcreteType

structure ConcreteBindings where
  types : List (String × ConcreteType)
  units : List (String × GroundUnit)

namespace ConcreteBindings

def empty : ConcreteBindings := ⟨[], []⟩

def putType (bindings : ConcreteBindings) (name : String) (type : ConcreteType) :
    ConcreteBindings :=
  ⟨(name, type) :: bindings.types, bindings.units⟩

def putUnit (bindings : ConcreteBindings) (name : String) (unit : GroundUnit) :
    ConcreteBindings :=
  ⟨bindings.types, (name, unit) :: bindings.units⟩

end ConcreteBindings

end SheetTypes
