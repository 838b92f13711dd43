import SheetTypes.Diagnostic
import SheetTypes.OrderedMap
import SheetTypes.TypeTerm

/-!
Capabilities are what operators ask of the types of their operands, such as being comparable.
Requirements name capabilities together with the origins that asked for them.
-/

set_option autoImplicit false

namespace SheetTypes

def allCapabilities : List String := ["Comparable", "Equatable", "Readable", "Showable"]

/-- The capabilities that are asked of a type, each with its origins. -/
structure Requirements where
  origins : OrderedMap String (List String)
deriving DecidableEq

structure Shortfall where
  missing : List String
  origins : List String
deriving DecidableEq

namespace Requirements

def none : Requirements := ⟨.empty⟩

instance : Inhabited Requirements := ⟨none⟩

def single (capability origin : String) : Requirements :=
  ⟨OrderedMap.empty.insert capability [origin]⟩

def names (requirements : Requirements) : List String := requirements.origins.keys

def isEmpty (requirements : Requirements) : Bool := requirements.origins.isEmpty

def size (requirements : Requirements) : Nat := requirements.origins.size

def contains (requirements : Requirements) (capability : String) : Bool :=
  requirements.origins.contains capability

def originsOf (requirements : Requirements) (capability : String) : List String :=
  (requirements.origins.find? capability).getD []

def add (requirements : Requirements) (capability : String) (origins : List String) :
    Requirements :=
  ⟨requirements.origins.alter capability fun old => some (old.getD [] ++ origins)⟩

/-- The requirements of both; origins of one capability are put one after the other. -/
def union (left right : Requirements) : Requirements :=
  right.origins.entries.foldl (fun merged entry => merged.add entry.1 entry.2) left

def render (requirements : Requirements) : String :=
  "\x7b" ++ ", ".intercalate requirements.names ++ "\x7d"

/-- What the given capabilities leave open, or nothing where they meet all requirements. -/
def shortfall? (requirements : Requirements) (offered : List String) : Option Shortfall :=
  let missing := requirements.names.filter fun name => !offered.contains name
  if missing.isEmpty then Option.none
  else
    some ⟨missing, missing.flatMap fun name =>
      (requirements.originsOf name).map fun origin => name ++ " needed by " ++ origin⟩

end Requirements

def Shortfall.toError (shortfall : Shortfall) (type : String) : TypeError :=
  .ofCause (.missingCapability type shortfall.missing shortfall.origins)

namespace TypeTerm

variable {ν υ : Type}

/-- The capabilities that the outermost shape of a type offers: functions offer none, and neither
do variables, whose requirements are kept elsewhere. -/
def offered : TypeTerm ν υ → List String
  | .var _ | .function _ _ => []
  | .number _ | .text | .boolean | .date _ | .tuple _ | .array _ | .record _ | .tagged _ _ =>
      allCapabilities

def offersThroughChildren : TypeTerm ν υ → Bool
  | .tuple _ | .array _ | .record _ | .tagged _ _ => true
  | .var _ | .number _ | .text | .boolean | .date _ | .function _ _ => false

end TypeTerm

end SheetTypes
