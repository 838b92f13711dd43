import SheetTypes.Concrete.OfTemplate

/-!
Concrete types of inferred types. Links are followed to their ends; a variable that is still
unbound is an error, unless defaults are allowed and nothing is required of it.
-/

set_option autoImplicit false

namespace SheetTypes.Store

def ambiguous (var : String) (requirements : List String) : TypeError :=
  .ofCause (.ambiguousType var requirements)

def multiplyGround (meaning : UnitVar → Except TypeError GroundUnit) :
    GroundUnit → List (UnitVar × Int) → Except TypeError GroundUnit
  | product, [] => .ok product
  | product, (var, number) :: powers => do
      let value ← meaning var
      multiplyGround meaning (product.multiply (value.raise number)) powers

/-- The ground unit that a unit variable stands for. An unbound one is a scalar by default. More
nested links than there are variables run in a circle. -/
def groundUnitVar (store : Store) (allowDefaults : Bool) :
    Nat → UnitVar → Except TypeError GroundUnit
  | links, var =>
      match store.unitLink? var with
      | none => if allowDefaults then .ok .one else .error (ambiguous var.text [])
      | some target =>
          match links with
          | 0 =>
              .error (.internal ("unit variable " ++ var.text ++ " is part of a link cycle"))
          | links + 1 =>
              multiplyGround (store.groundUnitVar allowDefaults links) target.names
                target.vars.toList

def groundUnit (store : Store) (registry : Registry) (allowDefaults : Bool)
    (unit : InferredUnit) : Except TypeError GroundUnit := do
  let ground ← multiplyGround (store.groundUnitVar allowDefaults store.units.size) unit.names
    unit.vars.toList
  registry.checkUnit ground
  return ground

mutual

def concreteTerm (registry : Registry) (onVar : TypeVar → Except TypeError ConcreteType)
    (onUnit : InferredUnit → Except TypeError GroundUnit) :
    InferredType → Except TypeError ConcreteType
  | .var var => onVar var
  | .number unit => do return .number (← onUnit unit)
  | .text => .ok .text
  | .boolean => .ok .boolean
  | .date kind => .ok (.date kind)
  | .tuple items => do return .tuple (← concreteTerms registry onVar onUnit items)
  | .array item => do return .array (← concreteTerm registry onVar onUnit item)
  | .function params result => do
      let params ← concreteTerms registry onVar onUnit params
      let result ← concreteTerm registry onVar onUnit result
      return .function params result
  | .record fields => do return .record (← concreteRecord registry onVar onUnit fields)
  | .tagged name operands => do
      let definition ← registry.definitionFor name operands.length
      let operands ← concreteOperands registry onVar onUnit definition.params operands
      return .tagged name operands

def concreteTerms (registry : Registry) (onVar : TypeVar → Except TypeError ConcreteType)
    (onUnit : InferredUnit → Except TypeError GroundUnit) :
    List InferredType → Except TypeError (List ConcreteType)
  | [] => .ok []
  | item :: items => do
      let item ← concreteTerm registry onVar onUnit item
      let items ← concreteTerms registry onVar onUnit items
      return item :: items

def concreteRecord (registry : Registry) (onVar : TypeVar → Except TypeError ConcreteType)
    (onUnit : InferredUnit → Except TypeError GroundUnit) :
    List (String × InferredType) → Except TypeError (List (String × ConcreteType))
  | [] => .ok []
  | (name, type) :: fields => do
      let type ← concreteTerm registry onVar onUnit type
      let fields ← concreteRecord registry onVar onUnit fields
      return (name, type) :: fields

def concreteOperands (registry : Registry) (onVar : TypeVar → Except TypeError ConcreteType)
    (onUnit : InferredUnit → Except TypeError GroundUnit) :
    List Parameter → List (Operand InferredType InferredUnit) →
      Except TypeError (List ConcreteOperand)
  | _, [] => .ok []
  | [], _ :: _ => .ok []
  | .type _ :: params, .type value :: operands => do
      let value ← concreteTerm registry onVar onUnit value
      let operands ← concreteOperands registry onVar onUnit params operands
      return .type value :: operands
  | .unit _ :: params, .unit value :: operands => do
      let value ← onUnit value
      let operands ← concreteOperands registry onVar onUnit params operands
      return .unit value :: operands
  | .type name :: _, .unit value :: _ =>
      .error (.mismatch (Parameter.type name).render
        (Operand.renderWith InferredType.spelling (.unit value)))
  | .unit name :: _, .type value :: _ =>
      .error (.mismatch (Parameter.unit name).render
        (Operand.renderWith InferredType.spelling (.type value)))

end

/-- The concrete type that a type variable stands for. An unbound one is `VOID` by default if
nothing is required of it. More nested links than there are variables run in a circle. -/
def concreteVar (store : Store) (registry : Registry) (allowDefaults : Bool) :
    Nat → TypeVar → Except TypeError ConcreteType
  | links, var =>
      match store.typeLink? var with
      | none =>
          let required := ((store.requirements? var).getD .none).names
          if allowDefaults && required.isEmpty then .ok ConcreteType.void
          else .error (ambiguous var.text required)
      | some target =>
          match links with
          | 0 =>
              .error (.internal ("type variable " ++ var.text ++ " is part of a link cycle"))
          | links + 1 =>
              concreteTerm registry (store.concreteVar registry allowDefaults links)
                (store.groundUnit registry allowDefaults) target

def concretize (store : Store) (registry : Registry) (allowDefaults : Bool)
    (type : InferredType) : Except TypeError ConcreteType :=
  concreteTerm registry (store.concreteVar registry allowDefaults store.types.size)
    (store.groundUnit registry allowDefaults) type

end SheetTypes.Store
