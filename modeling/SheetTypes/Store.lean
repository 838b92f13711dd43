import SheetTypes.Requirements
import SheetTypes.TypeTerm.Printer

/-!
The store of inference variables. A type variable is either unbound, with requirements on the
types that it may stand for, or linked to a type; a unit variable is unbound or linked to a unit.
A linked variable stays linked. Following links shortens them on the way, which shows in no
result. The store also notes whether an exponent has ever stopped at the limit: until then, the
units in it are exact.
-/

set_option autoImplicit false

namespace SheetTypes

abbrev InferredType := TypeTerm TypeVar InferredUnit

namespace InferredType

def spelling : Spelling TypeVar InferredUnit where
  typeVar := TypeVar.text
  unit := InferredUnit.render
  isScalar := UnitTerm.isScalar

def render (type : InferredType) : String := type.renderWith spelling

end InferredType

inductive TypeCell where
  | unbound (requirements : Requirements)
  | link (target : InferredType)

inductive UnitCell where
  | unbound
  | link (target : InferredUnit)

/-- The variables of a session; a variable's number is its position. `exact` tells whether all
exponents have kept within the limit so far. -/
structure Store where
  types : Array TypeCell
  units : Array UnitCell
  exact : Bool

abbrev Infer := ExceptT TypeError (StateM Store)

namespace Store

def empty : Store := ⟨#[], #[], true⟩

def typeLink? (store : Store) (var : TypeVar) : Option InferredType :=
  match store.types[var.index]? with
  | some (.link target) => some target
  | _ => none

def unitLink? (store : Store) (var : UnitVar) : Option InferredUnit :=
  match store.units[var.index]? with
  | some (.link target) => some target
  | _ => none

def requirements? (store : Store) (var : TypeVar) : Option Requirements :=
  match store.types[var.index]? with
  | some (.unbound requirements) => some requirements
  | _ => none

def isTypeBound (store : Store) (var : TypeVar) : Bool := (store.typeLink? var).isSome

def isUnitBound (store : Store) (var : UnitVar) : Bool := (store.unitLink? var).isSome

def setType (store : Store) (var : TypeVar) (cell : TypeCell) : Store :=
  ⟨store.types.setIfInBounds var.index cell, store.units, store.exact⟩

def setUnit (store : Store) (var : UnitVar) (cell : UnitCell) : Store :=
  ⟨store.types, store.units.setIfInBounds var.index cell, store.exact⟩

def freshTypeVar (requirements : Requirements) : StateM Store TypeVar := do
  let store ← get
  set (Store.mk (store.types.push (.unbound requirements)) store.units store.exact)
  return ⟨store.types.size⟩

def freshUnitVar : StateM Store UnitVar := do
  let store ← get
  set (Store.mk store.types (store.units.push .unbound) store.exact)
  return ⟨store.units.size⟩

def note (within : Bool) : StateM Store Unit :=
  modify fun store => ⟨store.types, store.units, store.exact && within⟩

/-- Multiplies a product by a power of a unit; exponents that stop at the limit are noted. -/
def multiplyPower (product unit : InferredUnit) (number : Int) : StateM Store InferredUnit := do
  note ((unit.checkedRaise number).bind product.checkedMultiply).isSome
  return product.multiply (unit.raise number)

def strange (var : String) : TypeError :=
  .internal ("variable " ++ var ++ " does not belong to this universe")

def addRequirements (var : TypeVar) (extra : Requirements) : Infer Unit := do
  let store ← get
  match store.types[var.index]? with
  | some (.unbound requirements) =>
      set (store.setType var (.unbound (requirements.union extra)))
  | some (.link _) =>
      throw (.internal ("adding capabilities to linked variable " ++ var.text))
  | none => throw (strange var.text)

def linkType (var : TypeVar) (target : InferredType) : Infer Unit := do
  let store ← get
  match store.types[var.index]? with
  | some (.unbound _) => set (store.setType var (.link target))
  | some (.link _) => throw (.internal ("variable " ++ var.text ++ " linked twice"))
  | none => throw (strange var.text)

def linkUnit (var : UnitVar) (target : InferredUnit) : Infer Unit := do
  let store ← get
  match store.units[var.index]? with
  | some .unbound => set (store.setUnit var (.link target))
  | some (.link _) => throw (.internal ("unit variable " ++ var.text ++ " linked twice"))
  | none => throw (strange var.text)

/-- Follows the links of a type that is a variable, at most the given number of them: the type at
the end, and the variables passed. -/
def follow (store : Store) : Nat → InferredType → InferredType × List TypeVar
  | links + 1, .var var =>
      match store.typeLink? var with
      | some target =>
          let (last, passed) := store.follow links target
          (last, var :: passed)
      | none => (.var var, [])
  | _, type => (type, [])

/-- The type that a type stands for: an unbound variable, or a type that is no variable. Without
circles there are no more links to follow than variables. A chain of links is shortened, so that
each of its variables is linked to the end of the chain. -/
def prune (type : InferredType) : StateM Store InferredType := do
  let store ← get
  let (last, passed) := store.follow store.types.size type
  if 1 < passed.length then
    set (passed.foldl (fun store var => store.setType var (.link last)) store)
  return last

end Store

end SheetTypes
