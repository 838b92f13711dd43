import SheetTypes.Store
import SheetTypes.TypeTerm.Traversal

set_option autoImplicit false

namespace SheetTypes.Store

def multiplyPowers (meaning : UnitVar → StateM Store InferredUnit) :
    InferredUnit → List (UnitVar × Int) → StateM Store InferredUnit
  | product, [] => pure product
  | product, (var, number) :: powers => do
      let value ← meaning var
      let product ← multiplyPower product value number
      multiplyPowers meaning product powers

/-- Substitutes for the linked variables of a unit, and links each of them to what it stands for
in the end. `links` bounds the nesting of links. -/
def pruneUnitWithin : Nat → InferredUnit → StateM Store InferredUnit
  | 0, unit => pure unit
  | links + 1, unit => do
      let store ← get
      if unit.vars.keys.all fun var => !store.isUnitBound var then return unit
      let meaning (var : UnitVar) : StateM Store InferredUnit := do
        let store ← get
        match store.unitLink? var with
        | none => return .ofVar var
        | some target =>
            let value ← pruneUnitWithin links target
            modify fun store => store.setUnit var (.link value)
            return value
      multiplyPowers meaning (.ofGround unit.names) unit.vars.toList

def pruneUnit (unit : InferredUnit) : StateM Store InferredUnit := do
  let store ← get
  pruneUnitWithin (store.units.size + 1) unit

def resolveVar : Nat → TypeVar → StateM Store InferredType
  | 0, var => pure (.var var)
  | links + 1, var => do
      match ← prune (.var var) with
      | .var last => return .var last
      | target => target.substituteM (resolveVar links) pruneUnit

def resolve (type : InferredType) : StateM Store InferredType := do
  let store ← get
  type.substituteM (resolveVar (store.types.size + 1)) pruneUnit

def render (type : InferredType) : StateM Store String := do
  return (← resolve type).render

def renderUnit (unit : InferredUnit) : StateM Store String := do
  return (← pruneUnit unit).render

end SheetTypes.Store
