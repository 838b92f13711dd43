import SheetTypes.Text.EditDistance

/-!
Diagnostics: what can be wrong with types, the places in templates that an error refers to, and
the hints that go with it. Internal errors report a broken invariant of the engine itself. A log
keeps a limited number of errors and counts the others.
-/

set_option autoImplicit false

namespace SheetTypes

/-- A place that an error refers to: a node of a template, counted from the root in reading order,
or a place that the caller has named. -/
inductive Place where
  | node (template : String) (index : Nat)
  | named (name : String)
deriving DecidableEq

def Place.label : Place → String
  | .node template index => template ++ "#" ++ toString index
  | .named name => name

/-- What is wrong. Types and units stand here in the form in which the message shows them. -/
inductive Cause where
  | mismatch (expected found : String) (context : Option (String × String))
  | unitMismatch (expected found : String) (convertible : Bool)
  | cyclicType (var type : String)
  | missingCapability (type : String) (missing origins : List String)
  | unknownType (name : String)
  | unknownUnit (name : String)
  | duplicateField (name : String)
  | arityMismatch (name : String) (expected found : Nat)
  | ambiguousType (var : String) (requirements : List String)
  | unresolvedVariable (name : String)
  | noSuchTag (type tag : String)
  | noSuchField (type field : String)
  | notFunction (type : String)
  | internal (detail : String)
deriving DecidableEq

namespace Cause

def remark (start separator : String) (items : List String) : String :=
  if items.isEmpty then "" else " (" ++ start ++ separator.intercalate items ++ ")"

def message : Cause → String
  | mismatch expected found context =>
      let report := "Type mismatch: expected " ++ expected ++ ", found " ++ found
      match context with
      | none => report
      | some (outer, other) =>
          if outer = expected ∧ other = found then report
          else report ++ " (while unifying " ++ outer ++ " with " ++ other ++ ")"
  | unitMismatch expected found true =>
      "Unit mismatch: " ++ expected ++ " and " ++ found ++ " are convertible but not identical"
  | unitMismatch expected found false =>
      "Unit mismatch: expected " ++ expected ++ ", found " ++ found
  | cyclicType var type => "Cyclic type: " ++ var ++ " occurs in " ++ type
  | missingCapability type missing origins =>
      "Type " ++ type ++ " does not support " ++ " or ".intercalate missing ++
        remark "" ", " origins
  | unknownType name => "Unknown type: " ++ name
  | unknownUnit name => "Unknown unit: " ++ name
  | duplicateField name => "Duplicate field: " ++ name
  | arityMismatch name expected found =>
      "Wrong number of type arguments for " ++ name ++ ": expected " ++ toString expected ++
        ", found " ++ toString found
  | ambiguousType var requirements =>
      "Ambiguous type: " ++ var ++ " could not be determined" ++
        remark "must support " " and " requirements
  | unresolvedVariable name => "Unresolved type variable: " ++ name
  | noSuchTag type tag => "Type " ++ type ++ " has no tag '" ++ tag ++ "'"
  | noSuchField type field => "Type " ++ type ++ " has no field '" ++ field ++ "'"
  | notFunction type => "Type " ++ type ++ " is not a function"
  | internal detail => "internal error: " ++ detail

def isInternal : Cause → Bool
  | internal _ => true
  | _ => false

end Cause

structure TypeError where
  cause : Cause
  places : List Place := []
  hints : List String := []
deriving DecidableEq

def didYouMean (name : String) (candidates : List String) : List String :=
  ((Text.similarNames name candidates 2).take 3).map fun near => "Did you mean '" ++ near ++ "'?"

namespace TypeError

def ofCause (cause : Cause) : TypeError := ⟨cause, [], []⟩

def message (error : TypeError) : String := error.cause.message

def isInternal (error : TypeError) : Bool := error.cause.isInternal

def report (error : TypeError) : String :=
  if error.hints.isEmpty then error.message
  else error.message ++ "\n" ++ String.join (error.hints.map fun hint => "  hint: " ++ hint ++ "\n")

def atPlace (error : TypeError) (place : Place) : TypeError :=
  if error.places.contains place then error
  else ⟨error.cause, error.places ++ [place], error.hints⟩

def atPlaces (error : TypeError) (places : List Place) : TypeError := places.foldl atPlace error

def withHint (error : TypeError) (hint : String) : TypeError :=
  ⟨error.cause, error.places, error.hints ++ [hint]⟩

/-- Notes the outermost pair of types of a failed unification; only a mismatch keeps it. -/
def withContext (error : TypeError) (outer other : String) : TypeError :=
  match error.cause with
  | .mismatch expected found _ =>
      ⟨.mismatch expected found (some (outer, other)), error.places, error.hints⟩
  | _ => error

def mismatch (expected found : String) : TypeError := ofCause (.mismatch expected found none)

def internal (detail : String) : TypeError := ofCause (.internal detail)

def unknownType (name : String) (candidates : List String) : TypeError :=
  ⟨.unknownType name, [], didYouMean name candidates⟩

def unknownUnit (name : String) (candidates : List String) : TypeError :=
  ⟨.unknownUnit name, [], didYouMean name candidates⟩

def noSuchTag (type tag : String) (candidates : List String) : TypeError :=
  ⟨.noSuchTag type tag, [], didYouMean tag candidates⟩

def noSuchField (type field : String) (candidates : List String) : TypeError :=
  ⟨.noSuchField type field, [], didYouMean field candidates⟩

end TypeError

/-- How an operation fails: with an error that its caller handles, or by giving up because of an
internal error. -/
inductive Failure where
  | error (error : TypeError)
  | abort (message : String)
deriving DecidableEq

def TypeError.escalate (error : TypeError) (abortOnInternal : Bool) : Failure :=
  if error.isInternal && abortOnInternal then .abort error.message else .error error

/-- The errors of a session: the first ones up to a limit, and the number of the others. -/
structure ErrorLog where
  limit : Nat
  kept : List TypeError := []
  dropped : Nat := 0

namespace ErrorLog

def add (log : ErrorLog) (error : TypeError) : ErrorLog :=
  if log.kept.length < log.limit then ⟨log.limit, log.kept ++ [error], log.dropped⟩
  else ⟨log.limit, log.kept, log.dropped + 1⟩

def hasRoom (log : ErrorLog) : Bool := log.kept.length < log.limit

def messages (log : ErrorLog) : List String := log.kept.map TypeError.message

end ErrorLog

end SheetTypes
