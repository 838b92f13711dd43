import SheetTypes.Store.Enforce
import SheetTypes.Unification.Units

/-!
Unification of types. Two types are compared shape by shape; a variable is linked to the type that
it meets, unless it occurs in that type or the type lacks a capability that is required of the
variable.
-/

set_option autoImplicit false

namespace SheetTypes.Unification

open Store

def occursInVar (var : TypeVar) : Nat → TypeVar → StateM Store Bool
  | 0, _ => return false
  | links + 1, candidate => do
      match ← prune (.var candidate) with
      | .var last => return last = var
      | target => target.anyVarM (occursInVar var links)

def occurs (var : TypeVar) (type : InferredType) : StateM Store Bool := do
  let store ← get
  type.anyVarM (occursInVar var (store.types.size + 1))

/-- Links a variable to a type that is no variable: it must not occur there, and the type must
meet its requirements. -/
def bindVar (var : TypeVar) (type : InferredType) : Infer InferredType := do
  if ← occurs var type then throw (.ofCause (.cyclicType var.text (← render type)))
  let store ← get
  enforce ((store.requirements? var).getD .none) type
  linkType var type
  return type

/-- Makes two unbound variables one: the lower survives and takes over the requirements of the
other. -/
def mergeVars (left right : TypeVar) : Infer InferredType := do
  let (survivor, linked) := if left.index < right.index then (left, right) else (right, left)
  let store ← get
  addRequirements survivor ((store.requirements? linked).getD .none)
  linkType linked (.var survivor)
  return .var survivor

/-- What has to be equal for two types of one shape to be equal. Operands of different kinds
never are. -/
inductive Equation where
  | types (left right : InferredType)
  | units (left right : InferredUnit)
  | clash

def operandEquation : Operand InferredType InferredUnit → Operand InferredType InferredUnit →
    Equation
  | .type left, .type right => .types left right
  | .unit left, .unit right => .units left right
  | .type _, .unit _ => .clash
  | .unit _, .type _ => .clash

def decompose : InferredType → InferredType → Option (List Equation)
  | .number left, .number right => some [.units left right]
  | .text, .text => some []
  | .boolean, .boolean => some []
  | .date left, .date right => if left = right then some [] else none
  | .tuple left, .tuple right =>
      if left.length = right.length then some (List.zipWith .types left right) else none
  | .array left, .array right => some [.types left right]
  | .function left leftResult, .function right rightResult =>
      if left.length = right.length then
        some (List.zipWith .types left right ++ [.types leftResult rightResult])
      else none
  | .record left, .record right =>
      if left.map Prod.fst = right.map Prod.fst then
        some (List.zipWith .types (left.map Prod.snd) (right.map Prod.snd))
      else none
  | .tagged leftName left, .tagged rightName right =>
      if leftName = rightName ∧ left.length = right.length then
        some (List.zipWith operandEquation left right)
      else none
  | _, _ => none

def mismatch {α : Type} (left right : InferredType) : Infer α := do
  let expected ← render left
  let found ← render right
  throw (.mismatch expected found)

def solveEquations (registry : Option Registry)
    (unifyTypes : InferredType → InferredType → Infer InferredType) (left right : InferredType) :
    List Equation → Infer Unit
  | [] => pure ()
  | .types first second :: equations => do
      discard (unifyTypes first second)
      solveEquations registry unifyTypes left right equations
  | .units first second :: equations => do
      unifyUnits registry first second
      solveEquations registry unifyTypes left right equations
  | .clash :: _ => mismatch left right

/-- Makes two types equal; `levels` bounds how deep they go, links included. -/
def unifyWithin (registry : Option Registry) :
    Nat → InferredType → InferredType → Infer InferredType
  | 0, left, right => mismatch left right
  | levels + 1, left, right => do
      let left ← prune left
      let right ← prune right
      match left, right with
      | .var leftVar, .var rightVar =>
          if leftVar = rightVar then return left else mergeVars leftVar rightVar
      | .var leftVar, right => bindVar leftVar right
      | left, .var rightVar => bindVar rightVar left
      | left, right =>
          match decompose left right with
          | none => mismatch left right
          | some equations =>
              solveEquations registry (unifyWithin registry levels) left right equations
              return left

def cellDepth : TypeCell → Nat
  | .unbound _ => 0
  | .link target => target.depth

/-- How deep two types can go at most, links included. Links that unification adds lead to parts
of the types at hand, and a way down passes every variable once at most. -/
def unificationLevels (store : Store) (left right : InferredType) : Nat :=
  let depths := left.depth + right.depth +
    store.types.toList.foldr (fun cell total => cellDepth cell + total) 0
  (store.types.size + 1) * (depths + 1) + 1

/-- Makes two types equal and returns the first as it then stands. A mismatch names the innermost
pair that differs, with the given types as its context. -/
def unify (registry : Option Registry) (left right : InferredType) : Infer InferredType := do
  let store ← get
  try unifyWithin registry (unificationLevels store left right) left right
  catch error =>
    let outer ← render left
    let other ← render right
    throw (error.withContext outer other)

end SheetTypes.Unification
