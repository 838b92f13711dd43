import SheetTypes.Diagnostic
import SheetTypes.Registry

/-!
Canonical forms of units, in which every derived unit is replaced by its definition, and the
factors that convert quantities between units with the same canonical form.
-/

set_option autoImplicit false

namespace SheetTypes

/-- A scale and a unit: a quantity in some unit is `scale` times as large in this one. -/
structure ScaledUnit where
  scale : Scale
  unit : GroundUnit
deriving DecidableEq

namespace ScaledUnit

/-- Multiplies by a power of a unit name, or of its definition if it has one. -/
def addExpanded (registry : Registry) (form : ScaledUnit) (name : String) (number : Int) :
    ScaledUnit :=
  match registry.unit? name with
  | some (.derived scale base) =>
      ⟨form.scale * scale ^ number, form.unit.multiply (base.raise number)⟩
  | _ => ⟨form.scale, form.unit.add name number⟩

def render (form : ScaledUnit) : String := form.scale.render ++ " " ++ GroundUnit.render form.unit

end ScaledUnit

namespace Registry

def isDerived (registry : Registry) (name : String) : Bool :=
  match registry.unit? name with
  | some (.derived _ _) => true
  | _ => false

def expandOnce (registry : Registry) (form : ScaledUnit) : ScaledUnit :=
  form.unit.toList.foldl
    (fun expanded power => expanded.addExpanded registry power.1 power.2) ⟨form.scale, .one⟩

def expandWithin (registry : Registry) : Nat → ScaledUnit → Option ScaledUnit
  | 0, _ => none
  | rounds + 1, form =>
      let expanded := registry.expandOnce form
      if form.unit.keys.any registry.isDerived then expandWithin registry rounds expanded
      else some expanded

def expansionRounds : Nat := 64

def canonicalize (registry : Registry) (unit : GroundUnit) : Except TypeError ScaledUnit :=
  match registry.expandWithin expansionRounds ⟨1, unit⟩ with
  | some form => .ok form
  | none =>
      .error (.internal ("unit " ++ GroundUnit.render unit ++
        " does not reach a canonical form; the unit registry is inconsistent"))

def canonicalizeTerm (registry : Registry) (unit : InferredUnit) :
    Except TypeError (Scale × InferredUnit) := do
  let form ← registry.canonicalize unit.names
  return (form.scale, ⟨form.unit, unit.vars⟩)

/-- The factor by which a quantity in one unit is multiplied to express it in another, or nothing
where the two do not measure the same. -/
def conversionFactor (registry : Registry) (source target : GroundUnit) :
    Except TypeError (Option Scale) := do
  let source ← registry.canonicalize source
  let target ← registry.canonicalize target
  return if source.unit = target.unit then some (source.scale / target.scale) else none

def convertible (registry : Registry) (source target : GroundUnit) : Except TypeError Bool := do
  return (← registry.conversionFactor source target).isSome

end Registry

end SheetTypes
