import SheetTypes.Diagnostic
import SheetTypes.Json

set_option autoImplicit false

namespace SheetTypes

namespace Cause

def kind : Cause → String
  | mismatch _ _ _ => "mismatch"
  | unitMismatch _ _ _ => "unit_mismatch"
  | cyclicType _ _ => "cyclic_type"
  | missingCapability _ _ _ => "missing_capability"
  | unknownType _ => "unknown_type"
  | unknownUnit _ => "unknown_unit"
  | duplicateField _ => "duplicate_field"
  | arityMismatch _ _ _ => "arity_mismatch"
  | ambiguousType _ _ => "ambiguous_type"
  | unresolvedVariable _ => "unresolved_variable"
  | noSuchTag _ _ => "no_such_tag"
  | noSuchField _ _ => "no_such_field"
  | notFunction _ => "not_a_function"
  | internal _ => "internal"

def contextJson : Option (String × String) → Json
  | none => .null
  | some (outer, other) => .strings [outer, other]

def fields : Cause → List (String × Json)
  | mismatch expected found context =>
      [("expected", .string expected), ("found", .string found),
        ("context", contextJson context)]
  | unitMismatch expected found convertible =>
      [("expected", .string expected), ("found", .string found),
        ("convertible", .boolean convertible)]
  | cyclicType var type => [("var", .string var), ("ty", .string type)]
  | missingCapability type missing origins =>
      [("ty", .string type), ("missing", .strings missing), ("origins", .strings origins)]
  | unknownType name | unknownUnit name | duplicateField name | unresolvedVariable name =>
      [("name", .string name)]
  | arityMismatch name expected found =>
      [("name", .string name), ("expected", .integer expected), ("found", .integer found)]
  | ambiguousType var requirements =>
      [("var", .string var), ("requirements", .strings requirements)]
  | noSuchTag type tag => [("ty", .string type), ("tag", .string tag)]
  | noSuchField type field => [("ty", .string type), ("field", .string field)]
  | notFunction type => [("ty", .string type)]
  | internal detail => [("detail", .string detail)]

end Cause

def TypeError.toJson (number : Place → Nat) (error : TypeError) : Json :=
  .object (error.cause.fields ++
    [("kind", .string error.cause.kind), ("message", .string error.message),
      ("keys", .array (error.places.map fun place => .integer (number place))),
      ("suggestions", .strings error.hints)])

end SheetTypes
