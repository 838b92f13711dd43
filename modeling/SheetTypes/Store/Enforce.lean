import SheetTypes.Store.Resolve

/-!
Asking capabilities of types. A requirement on an unbound variable waits in the store until the
variable is linked. On any other type it is checked against what the outermost shape offers, and
passed on to the children where the shape offers a capability only together with them.
-/

set_option autoImplicit false

namespace SheetTypes.Store

def checkOffered (required : Requirements) (type : InferredType) : Infer Unit := do
  match required.shortfall? type.offered with
  | some shortfall => throw (shortfall.toError (← render type))
  | none => pure ()

mutual

def enforceTerm (onVar : TypeVar → Infer Unit) (required : Requirements) :
    InferredType → Infer Unit
  | .var var => onVar var
  | .number unit => checkOffered required (.number unit)
  | .text => checkOffered required .text
  | .boolean => checkOffered required .boolean
  | .date kind => checkOffered required (.date kind)
  | .tuple items => do
      checkOffered required (.tuple items)
      enforceItems onVar required items
  | .array item => do
      checkOffered required (.array item)
      enforceTerm onVar required item
  | .function params result => checkOffered required (.function params result)
  | .record fields => do
      checkOffered required (.record fields)
      enforceFields onVar required fields
  | .tagged name operands => do
      checkOffered required (.tagged name operands)
      enforceOperands onVar required operands

def enforceItems (onVar : TypeVar → Infer Unit) (required : Requirements) :
    List InferredType → Infer Unit
  | [] => pure ()
  | item :: items => do
      enforceTerm onVar required item
      enforceItems onVar required items

def enforceFields (onVar : TypeVar → Infer Unit) (required : Requirements) :
    List (String × InferredType) → Infer Unit
  | [] => pure ()
  | (_, type) :: fields => do
      enforceTerm onVar required type
      enforceFields onVar required fields

def enforceOperands (onVar : TypeVar → Infer Unit) (required : Requirements) :
    List (Operand InferredType InferredUnit) → Infer Unit
  | [] => pure ()
  | .type value :: operands => do
      enforceTerm onVar required value
      enforceOperands onVar required operands
  | .unit _ :: operands => enforceOperands onVar required operands

end

/-- Requires capabilities of a variable: they wait if it is unbound, else they are required of the
type that it stands for. -/
def enforceVar (required : Requirements) : Nat → TypeVar → Infer Unit
  | 0, _ => pure ()
  | links + 1, var => do
      match ← prune (.var var) with
      | .var last => addRequirements last required
      | target => enforceTerm (enforceVar required links) required target

def enforce (required : Requirements) (type : InferredType) : Infer Unit := do
  if required.isEmpty then return
  let store ← get
  enforceTerm (enforceVar required (store.types.size + 1)) required type

mutual

def offersTerm (onVar : TypeVar → StateM Store Bool) (capability : String) :
    InferredType → StateM Store Bool
  | .var var => onVar var
  | .function _ _ => return false
  | .number _ | .text | .boolean | .date _ => return allCapabilities.contains capability
  | .tuple items =>
      if allCapabilities.contains capability then offersItems onVar capability items
      else return false
  | .array item =>
      if allCapabilities.contains capability then offersTerm onVar capability item
      else return false
  | .record fields =>
      if allCapabilities.contains capability then offersFields onVar capability fields
      else return false
  | .tagged _ operands =>
      if allCapabilities.contains capability then offersOperands onVar capability operands
      else return false

def offersItems (onVar : TypeVar → StateM Store Bool) (capability : String) :
    List InferredType → StateM Store Bool
  | [] => return true
  | item :: items => do
      if ← offersTerm onVar capability item then offersItems onVar capability items
      else return false

def offersFields (onVar : TypeVar → StateM Store Bool) (capability : String) :
    List (String × InferredType) → StateM Store Bool
  | [] => return true
  | (_, type) :: fields => do
      if ← offersTerm onVar capability type then offersFields onVar capability fields
      else return false

def offersOperands (onVar : TypeVar → StateM Store Bool) (capability : String) :
    List (Operand InferredType InferredUnit) → StateM Store Bool
  | [] => return true
  | .type value :: operands => do
      if ← offersTerm onVar capability value then offersOperands onVar capability operands
      else return false
  | .unit _ :: operands => offersOperands onVar capability operands

end

/-- Whether the type that a variable stands for offers a capability; unbound variables do. -/
def offersVar (capability : String) : Nat → TypeVar → StateM Store Bool
  | 0, _ => return true
  | links + 1, var => do
      match ← prune (.var var) with
      | .var _ => return true
      | target => offersTerm (offersVar capability links) capability target

def offers (type : InferredType) (capability : String) : StateM Store Bool := do
  let store ← get
  offersTerm (offersVar capability (store.types.size + 1)) capability type

end SheetTypes.Store
