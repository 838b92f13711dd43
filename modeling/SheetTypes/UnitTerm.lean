import SheetTypes.PowerProduct
import SheetTypes.Variable

/-!
Units of measure: products of powers of declared names and of unit variables. A ground unit has
no variables. The text of a product lists the factors with positive exponents, joined by `*`, and
then each factor with a negative exponent after a `/`; without a positive factor it starts
with `1`.
-/

set_option autoImplicit false

namespace SheetTypes

/-- A unit without variables: a product of powers of declared unit names. -/
abbrev GroundUnit := PowerProduct String

structure UnitTerm (ν : Type) [Ord ν] where
  names : GroundUnit
  vars : PowerProduct ν
deriving DecidableEq

namespace UnitTerm

variable {ν : Type} [Ord ν]

def scalar : UnitTerm ν := ⟨.one, .one⟩

instance : Inhabited (UnitTerm ν) := ⟨scalar⟩

def ofGround (unit : GroundUnit) : UnitTerm ν := ⟨unit, .one⟩

def named (name : String) : UnitTerm ν := ofGround (.ofKey name)

def ofVar [Std.TransOrd ν] (var : ν) : UnitTerm ν := ⟨.one, .ofKey var⟩

def isScalar (unit : UnitTerm ν) : Bool := unit.names.isOne && unit.vars.isOne

def isGround (unit : UnitTerm ν) : Bool := unit.vars.isOne

def ground? (unit : UnitTerm ν) : Option GroundUnit :=
  if unit.isGround then some unit.names else none

/-- The variable of a unit that is just one variable to the first power. -/
def asVar? (unit : UnitTerm ν) : Option ν :=
  match unit.names.isOne, unit.vars.toList with
  | true, [(var, 1)] => some var
  | _, _ => none

def raise (unit : UnitTerm ν) (number : Int) : UnitTerm ν :=
  ⟨unit.names.raise number, unit.vars.raise number⟩

def checkedRaise (unit : UnitTerm ν) (number : Int) : Option (UnitTerm ν) := do
  return ⟨← unit.names.checkedRaise number, ← unit.vars.checkedRaise number⟩

def reciprocal (unit : UnitTerm ν) : UnitTerm ν := unit.raise (-1)

def exponents (unit : UnitTerm ν) : List Int :=
  unit.names.toList.map Prod.snd ++ unit.vars.toList.map Prod.snd

section Operations

variable [Std.TransOrd ν]

def multiply (left right : UnitTerm ν) : UnitTerm ν :=
  ⟨left.names.multiply right.names, left.vars.multiply right.vars⟩

def checkedMultiply (left right : UnitTerm ν) : Option (UnitTerm ν) := do
  return ⟨← left.names.checkedMultiply right.names, ← left.vars.checkedMultiply right.vars⟩

def divide (left right : UnitTerm ν) : UnitTerm ν := left.multiply right.reciprocal

def eraseVar (unit : UnitTerm ν) (var : ν) : UnitTerm ν := ⟨unit.names, unit.vars.erase var⟩

def mapExponents (unit : UnitTerm ν) (change : Int → Int) : UnitTerm ν :=
  ⟨unit.names.mapExponents change, unit.vars.mapExponents change⟩

end Operations

end UnitTerm

abbrev InferredUnit := UnitTerm UnitVar

abbrev UnitTemplate := UnitTerm String

def factorText (name : String) (number : Nat) : String :=
  if number = 1 then name else name ++ "^" ++ toString number

def productText (powers : List (String × Int)) : String :=
  let above := powers.filter fun power => 0 < power.2
  let below := powers.filter fun power => power.2 < 0
  let numerator :=
    if above.isEmpty then "1"
    else "*".intercalate (above.map fun power => factorText power.1 power.2.natAbs)
  numerator ++ String.join (below.map fun power => "/" ++ factorText power.1 power.2.natAbs)

def GroundUnit.render (unit : GroundUnit) : String := productText unit.toList

def UnitTerm.renderWith {ν : Type} [Ord ν] (spell : ν → String) (unit : UnitTerm ν) : String :=
  productText (unit.names.toList ++ unit.vars.toList.map fun power => (spell power.1, power.2))

def InferredUnit.render (unit : InferredUnit) : String := unit.renderWith UnitVar.text

def unitVariableText (name : String) : String := "@UNITVAR " ++ name

def UnitTemplate.render (unit : UnitTemplate) : String := unit.renderWith unitVariableText

end SheetTypes
