import SheetTypes.TypeTerm

set_option autoImplicit false

namespace SheetTypes.TypeTerm

variable {ν υ μ ω : Type} {m : Type → Type} [Monad m]

mutual

def substituteM (onVar : ν → m (TypeTerm μ ω)) (onUnit : υ → m ω) :
    TypeTerm ν υ → m (TypeTerm μ ω)
  | .var name => onVar name
  | .number unit => do return .number (← onUnit unit)
  | .text => pure .text
  | .boolean => pure .boolean
  | .date kind => pure (.date kind)
  | .tuple items => do return .tuple (← substituteItemsM onVar onUnit items)
  | .array item => do return .array (← substituteM onVar onUnit item)
  | .function params result => do
      let params ← substituteItemsM onVar onUnit params
      let result ← substituteM onVar onUnit result
      return .function params result
  | .record fields => do return .record (← substituteFieldsM onVar onUnit fields)
  | .tagged name operands => do
      return .tagged name (← substituteOperandsM onVar onUnit operands)

def substituteItemsM (onVar : ν → m (TypeTerm μ ω)) (onUnit : υ → m ω) :
    List (TypeTerm ν υ) → m (List (TypeTerm μ ω))
  | [] => pure []
  | item :: items => do
      let item ← substituteM onVar onUnit item
      let items ← substituteItemsM onVar onUnit items
      return item :: items

def substituteFieldsM (onVar : ν → m (TypeTerm μ ω)) (onUnit : υ → m ω) :
    List (String × TypeTerm ν υ) → m (List (String × TypeTerm μ ω))
  | [] => pure []
  | (name, type) :: fields => do
      let type ← substituteM onVar onUnit type
      let fields ← substituteFieldsM onVar onUnit fields
      return (name, type) :: fields

def substituteOperandsM (onVar : ν → m (TypeTerm μ ω)) (onUnit : υ → m ω) :
    List (Operand (TypeTerm ν υ) υ) → m (List (Operand (TypeTerm μ ω) ω))
  | [] => pure []
  | .type value :: operands => do
      let value ← substituteM onVar onUnit value
      let operands ← substituteOperandsM onVar onUnit operands
      return .type value :: operands
  | .unit value :: operands => do
      let value ← onUnit value
      let operands ← substituteOperandsM onVar onUnit operands
      return .unit value :: operands

end

mutual

/-- Whether some variable of a type passes a test; the search stops at the first that does. -/
def anyVarM (test : ν → m Bool) : TypeTerm ν υ → m Bool
  | .var name => test name
  | .number _ | .text | .boolean | .date _ => pure false
  | .tuple items => anyItemVarM test items
  | .array item => anyVarM test item
  | .function params result => do
      if ← anyItemVarM test params then return true
      anyVarM test result
  | .record fields => anyFieldVarM test fields
  | .tagged _ operands => anyOperandVarM test operands

def anyItemVarM (test : ν → m Bool) : List (TypeTerm ν υ) → m Bool
  | [] => pure false
  | item :: items => do
      if ← anyVarM test item then return true
      anyItemVarM test items

def anyFieldVarM (test : ν → m Bool) : List (String × TypeTerm ν υ) → m Bool
  | [] => pure false
  | (_, type) :: fields => do
      if ← anyVarM test type then return true
      anyFieldVarM test fields

def anyOperandVarM (test : ν → m Bool) : List (Operand (TypeTerm ν υ) υ) → m Bool
  | [] => pure false
  | .type value :: operands => do
      if ← anyVarM test value then return true
      anyOperandVarM test operands
  | .unit _ :: operands => anyOperandVarM test operands

end

end SheetTypes.TypeTerm
