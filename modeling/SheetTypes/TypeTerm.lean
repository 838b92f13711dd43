/-!
Type terms: the shapes of spreadsheet types over variables `ν` and units `υ`. Signatures, inferred
types and concrete types are type terms that differ in what stands for a variable and for a unit.
-/

set_option autoImplicit false

namespace SheetTypes

inductive DateKind where
  | yearMonthDay
  | yearMonth
  | timeOfDay
  | dateTime
  | dateTimeZoned
deriving DecidableEq

namespace DateKind

def all : List DateKind := [yearMonthDay, yearMonth, timeOfDay, dateTime, dateTimeZoned]

def keyword : DateKind → String
  | yearMonthDay => "YEARMONTHDAY"
  | yearMonth => "YEARMONTH"
  | timeOfDay => "TIMEOFDAY"
  | dateTime => "DATETIME"
  | dateTimeZoned => "DATETIMEZONED"

def ofKeyword? (word : String) : Option DateKind := all.find? fun kind => kind.keyword == word

end DateKind

inductive Operand (τ υ : Type) where
  | type (value : τ)
  | unit (value : υ)
deriving DecidableEq

inductive TypeTerm (ν υ : Type) where
  | var (name : ν)
  | number (unit : υ)
  | text
  | boolean
  | date (kind : DateKind)
  | tuple (items : List (TypeTerm ν υ))
  | array (item : TypeTerm ν υ)
  | function (params : List (TypeTerm ν υ)) (result : TypeTerm ν υ)
  | record (fields : List (String × TypeTerm ν υ))
  | tagged (name : String) (operands : List (Operand (TypeTerm ν υ) υ))

namespace TypeTerm

variable {ν υ : Type}

instance : Inhabited (TypeTerm ν υ) := ⟨.text⟩

section Equality

variable [DecidableEq ν] [DecidableEq υ]

mutual

def decideEq : (left right : TypeTerm ν υ) → Decidable (left = right)
  | .var name, right =>
      match right with
      | .var other => decidable_of_iff (name = other) (by simp)
      | .number _ | .text | .boolean | .date _ | .tuple _ | .array _ | .function _ _ | .record _
      | .tagged _ _ => isFalse (by simp)
  | .number unit, right =>
      match right with
      | .number other => decidable_of_iff (unit = other) (by simp)
      | .var _ | .text | .boolean | .date _ | .tuple _ | .array _ | .function _ _ | .record _
      | .tagged _ _ => isFalse (by simp)
  | .text, right =>
      match right with
      | .text => isTrue rfl
      | .var _ | .number _ | .boolean | .date _ | .tuple _ | .array _ | .function _ _ | .record _
      | .tagged _ _ => isFalse (by simp)
  | .boolean, right =>
      match right with
      | .boolean => isTrue rfl
      | .var _ | .number _ | .text | .date _ | .tuple _ | .array _ | .function _ _ | .record _
      | .tagged _ _ => isFalse (by simp)
  | .date kind, right =>
      match right with
      | .date other => decidable_of_iff (kind = other) (by simp)
      | .var _ | .number _ | .text | .boolean | .tuple _ | .array _ | .function _ _ | .record _
      | .tagged _ _ => isFalse (by simp)
  | .tuple items, right =>
      match right with
      | .tuple others =>
          have := decideItems items others
          decidable_of_iff (items = others) (by simp)
      | .var _ | .number _ | .text | .boolean | .date _ | .array _ | .function _ _ | .record _
      | .tagged _ _ => isFalse (by simp)
  | .array item, right =>
      match right with
      | .array other =>
          have := decideEq item other
          decidable_of_iff (item = other) (by simp)
      | .var _ | .number _ | .text | .boolean | .date _ | .tuple _ | .function _ _ | .record _
      | .tagged _ _ => isFalse (by simp)
  | .function params result, right =>
      match right with
      | .function others otherResult =>
          have := decideItems params others
          have := decideEq result otherResult
          decidable_of_iff (params = others ∧ result = otherResult) (by simp)
      | .var _ | .number _ | .text | .boolean | .date _ | .tuple _ | .array _ | .record _
      | .tagged _ _ => isFalse (by simp)
  | .record fields, right =>
      match right with
      | .record others =>
          have := decideFields fields others
          decidable_of_iff (fields = others) (by simp)
      | .var _ | .number _ | .text | .boolean | .date _ | .tuple _ | .array _ | .function _ _
      | .tagged _ _ => isFalse (by simp)
  | .tagged name operands, right =>
      match right with
      | .tagged otherName others =>
          have := decideOperands operands others
          decidable_of_iff (name = otherName ∧ operands = others) (by simp)
      | .var _ | .number _ | .text | .boolean | .date _ | .tuple _ | .array _ | .function _ _
      | .record _ => isFalse (by simp)

def decideItems : (left right : List (TypeTerm ν υ)) → Decidable (left = right)
  | [], [] => isTrue rfl
  | [], _ :: _ => isFalse (by simp)
  | _ :: _, [] => isFalse (by simp)
  | item :: items, other :: others =>
      have := decideEq item other
      have := decideItems items others
      decidable_of_iff (item = other ∧ items = others) (by simp)

def decideFields : (left right : List (String × TypeTerm ν υ)) → Decidable (left = right)
  | [], [] => isTrue rfl
  | [], _ :: _ => isFalse (by simp)
  | _ :: _, [] => isFalse (by simp)
  | (name, type) :: fields, (otherName, otherType) :: others =>
      have := decideEq type otherType
      have := decideFields fields others
      decidable_of_iff ((name = otherName ∧ type = otherType) ∧ fields = others) (by simp)

def decideOperands : (left right : List (Operand (TypeTerm ν υ) υ)) → Decidable (left = right)
  | [], [] => isTrue rfl
  | [], _ :: _ => isFalse (by simp)
  | _ :: _, [] => isFalse (by simp)
  | .type value :: operands, .type other :: others =>
      have := decideEq value other
      have := decideOperands operands others
      decidable_of_iff (value = other ∧ operands = others) (by simp)
  | .unit value :: operands, .unit other :: others =>
      have := decideOperands operands others
      decidable_of_iff (value = other ∧ operands = others) (by simp)
  | .type _ :: _, .unit _ :: _ => isFalse (by simp)
  | .unit _ :: _, .type _ :: _ => isFalse (by simp)

end

instance : DecidableEq (TypeTerm ν υ) := decideEq

end Equality

def asVar? : TypeTerm ν υ → Option ν
  | .var name => some name
  | _ => none

def isVar (type : TypeTerm ν υ) : Bool := type.asVar?.isSome

def operandTypes (operands : List (Operand (TypeTerm ν υ) υ)) : List (TypeTerm ν υ) :=
  operands.filterMap fun operand =>
    match operand with
    | .type value => some value
    | .unit _ => none

def children : TypeTerm ν υ → List (TypeTerm ν υ)
  | .var _ | .number _ | .text | .boolean | .date _ => []
  | .tuple items => items
  | .array item => [item]
  | .function params result => params ++ [result]
  | .record fields => fields.map Prod.snd
  | .tagged _ operands => operandTypes operands

mutual

def nodeCount : TypeTerm ν υ → Nat
  | .var _ | .number _ | .text | .boolean | .date _ => 1
  | .tuple items => 1 + itemsCount items
  | .array item => 1 + nodeCount item
  | .function params result => 1 + itemsCount params + nodeCount result
  | .record fields => 1 + fieldsCount fields
  | .tagged _ operands => 1 + operandsCount operands

def itemsCount : List (TypeTerm ν υ) → Nat
  | [] => 0
  | item :: items => nodeCount item + itemsCount items

def fieldsCount : List (String × TypeTerm ν υ) → Nat
  | [] => 0
  | (_, type) :: fields => nodeCount type + fieldsCount fields

def operandsCount : List (Operand (TypeTerm ν υ) υ) → Nat
  | [] => 0
  | .type value :: operands => nodeCount value + operandsCount operands
  | .unit _ :: operands => operandsCount operands

end

mutual

/-- The length of the longest way down in a type; a type without children has depth one. -/
def depth : TypeTerm ν υ → Nat
  | .var _ | .number _ | .text | .boolean | .date _ => 1
  | .tuple items => 1 + itemsDepth items
  | .array item => 1 + depth item
  | .function params result => 1 + max (itemsDepth params) (depth result)
  | .record fields => 1 + fieldsDepth fields
  | .tagged _ operands => 1 + operandsDepth operands

def itemsDepth : List (TypeTerm ν υ) → Nat
  | [] => 0
  | item :: items => max (depth item) (itemsDepth items)

def fieldsDepth : List (String × TypeTerm ν υ) → Nat
  | [] => 0
  | (_, type) :: fields => max (depth type) (fieldsDepth fields)

def operandsDepth : List (Operand (TypeTerm ν υ) υ) → Nat
  | [] => 0
  | .type value :: operands => max (depth value) (operandsDepth operands)
  | .unit _ :: operands => operandsDepth operands

end

mutual

def hasFunction : TypeTerm ν υ → Bool
  | .var _ | .number _ | .text | .boolean | .date _ => false
  | .tuple items => itemsHaveFunction items
  | .array item => hasFunction item
  | .function _ _ => true
  | .record fields => fieldsHaveFunction fields
  | .tagged _ operands => operandsHaveFunction operands

def itemsHaveFunction : List (TypeTerm ν υ) → Bool
  | [] => false
  | item :: items => hasFunction item || itemsHaveFunction items

def fieldsHaveFunction : List (String × TypeTerm ν υ) → Bool
  | [] => false
  | (_, type) :: fields => hasFunction type || fieldsHaveFunction fields

def operandsHaveFunction : List (Operand (TypeTerm ν υ) υ) → Bool
  | [] => false
  | .type value :: operands => hasFunction value || operandsHaveFunction operands
  | .unit _ :: operands => operandsHaveFunction operands

end

end TypeTerm

end SheetTypes
