import SheetTypes.Canonical
import SheetTypes.Store.Resolve

/-!
Unification of units. Units form a free abelian group over declared names and variables, so an
equation `a = b` is solved as `a / b = 1`, one variable at a time: the variable with the smallest
exponent is linked to a unit that removes it, or that reduces all other exponents by it.
Declared names stay apart here, even if their units can be converted into each other.
-/

set_option autoImplicit false

namespace SheetTypes.Unification

open Store

def smallerPower (first second : UnitVar × Int) : UnitVar × Int :=
  if second.2.natAbs < first.2.natAbs then second else first

/-- The variable with the smallest absolute exponent, and of several the lowest. -/
def pivot? : List (UnitVar × Int) → Option (UnitVar × Int)
  | [] => none
  | power :: powers => some (powers.foldl smallerPower power)

def bindUnit (var : UnitVar) (value : InferredUnit) : Infer Unit := do
  let value ← pruneUnit value
  if value.vars.contains var then
    throw (.ofCause (.cyclicType var.text (InferredUnit.render value)))
  linkUnit var value

/-- Solves `quotient = 1`, and tells whether there is a solution. Every round but the last makes
the smallest exponent of a variable smaller, which bounds their number. -/
def solveWithin : Nat → InferredUnit → Infer Bool
  | 0, _ => return false
  | rounds + 1, quotient => do
      let quotient ← pruneUnit quotient
      match pivot? quotient.vars.toList with
      | none => return quotient.isScalar
      | some (var, number) =>
          let rest := quotient.eraseVar var
          -- The pivot divides every other exponent: one link solves the equation.
          if rest.exponents.all fun other => other.tmod number == 0 then
            bindUnit var (rest.mapExponents fun other => (-other).tdiv number)
            return true
          -- Only names stand beside the pivot, and their product has no such root.
          if quotient.vars.size = 1 then return false
          -- The other exponents are reduced modulo the pivot's; the new variable takes its place.
          let fresh ← freshUnitVar
          let reduced := rest.mapExponents fun other => -(other / number)
          bindUnit var ((UnitTerm.ofVar fresh).multiply reduced)
          solveWithin rounds quotient

def solvingRounds (quotient : InferredUnit) : Nat :=
  quotient.vars.toList.foldr (fun power total => power.2.natAbs + total) 2

def hintUnit (unit : GroundUnit) : String :=
  if unit.isOne then "a scalar" else GroundUnit.render unit

/-- The error for units that differ. Where the registry can convert one into the other, it says
so and gives the factor. -/
def unitMismatch (registry : Option Registry) (left right : InferredUnit) : TypeError :=
  let differ (convertible : Bool) : TypeError :=
    .ofCause (.unitMismatch (InferredUnit.render left) (InferredUnit.render right) convertible)
  match registry, left.ground?, right.ground? with
  | some registry, some source, some target =>
      match registry.conversionFactor source target with
      | .error error => error
      | .ok none => differ false
      | .ok (some factor) =>
          (differ true).withHint ("multiply by " ++ factor.render ++ " to convert " ++
            hintUnit source ++ " to " ++ hintUnit target)
  | _, _, _ => differ false

/-- Makes two units equal. The error shows them as they were before the attempt. -/
def unifyUnits (registry : Option Registry) (left right : InferredUnit) : Infer Unit := do
  let left ← pruneUnit left
  let right ← pruneUnit right
  if left = right then return
  let quotient ← multiplyPower left right (-1)
  if ← solveWithin (solvingRounds quotient) quotient then return
  throw (unitMismatch registry left right)

end SheetTypes.Unification
