import SheetTypes.Powers

/-!
Products of integer powers, such as `m*s^-2`: exponents by key that never hold zero or a number
beyond the limit. Every operation is the one on exponents, which keeps them so.
-/

set_option autoImplicit false

namespace SheetTypes

@[ext]
structure PowerProduct (κ : Type) [Ord κ] where
  factors : Powers κ
  normal : factors.Normal
deriving DecidableEq

namespace PowerProduct

variable {κ : Type} [Ord κ]

def one : PowerProduct κ := ⟨.empty, Powers.normal_empty⟩

instance : Inhabited (PowerProduct κ) := ⟨one⟩

def exponent (product : PowerProduct κ) (key : κ) : Int := product.factors.exponent key

def contains (product : PowerProduct κ) (key : κ) : Bool := product.factors.contains key

def isOne (product : PowerProduct κ) : Bool := product.factors.isEmpty

def size (product : PowerProduct κ) : Nat := product.factors.size

/-- The keys with an exponent other than zero, in ascending order. -/
def keys (product : PowerProduct κ) : List κ := product.factors.keys

def toList (product : PowerProduct κ) : List (κ × Int) := product.factors.toList

def raise (product : PowerProduct κ) (number : Int) : PowerProduct κ :=
  ⟨product.factors.raise number, product.normal.raise number⟩

def checkedRaise (product : PowerProduct κ) (number : Int) : Option (PowerProduct κ) :=
  (product.factors.checkedRaise number).pmap mk fun _ => product.normal.checkedRaise

def reciprocal (product : PowerProduct κ) : PowerProduct κ := product.raise (-1)

section Operations

variable [Std.TransOrd κ]

def add (product : PowerProduct κ) (key : κ) (number : Int) : PowerProduct κ :=
  ⟨product.factors.add key number, product.normal.add key number⟩

def checkedAdd (product : PowerProduct κ) (key : κ) (number : Int) : Option (PowerProduct κ) :=
  (product.factors.checkedAdd key number).1.map fun _ =>
    ⟨(product.factors.checkedAdd key number).2, product.normal.checkedAdd key number⟩

def erase (product : PowerProduct κ) (key : κ) : PowerProduct κ :=
  ⟨(product.factors.remove key).2, product.normal.remove key⟩

def ofList (powers : List (κ × Int)) : PowerProduct κ :=
  ⟨.collect powers, Powers.normal_empty.addAll powers⟩

def single (key : κ) (number : Int) : PowerProduct κ :=
  ⟨.single key number, Powers.normal_empty.add key number⟩

def ofKey (key : κ) : PowerProduct κ := single key 1

def multiply (left right : PowerProduct κ) : PowerProduct κ :=
  ⟨left.factors.multiply right.factors, left.normal.addAll right.toList⟩

def checkedMultiply (left right : PowerProduct κ) : Option (PowerProduct κ) :=
  (left.factors.checkedMultiply right.factors).pmap mk fun _ => left.normal.checkedMultiply

def divide (left right : PowerProduct κ) : PowerProduct κ := left.multiply right.reciprocal

/-- Changes every exponent; the results stop at the limit. -/
def mapExponents (product : PowerProduct κ) (change : Int → Int) : PowerProduct κ :=
  ofList (product.toList.map fun power => (power.1, change power.2))

end Operations

/-- Orders lists of powers by their first difference: by name, then by exponent, and a list that
ends first comes first. -/
def powersPrecede : List (String × Int) → List (String × Int) → Bool
  | _, [] => false
  | [], _ :: _ => true
  | (leftName, leftExponent) :: leftRest, (rightName, rightExponent) :: rightRest =>
      match compare leftName rightName with
      | .lt => true
      | .gt => false
      | .eq =>
          if leftExponent < rightExponent then true
          else if rightExponent < leftExponent then false
          else powersPrecede leftRest rightRest

def precedes (left right : PowerProduct String) : Bool :=
  powersPrecede left.toList right.toList

end PowerProduct

end SheetTypes
