import SheetTypes.OrderedMap
import SheetTypes.TypeTerm.Printer

/-!
Templates: types with named variables, as signatures and annotations write them. A template keeps
record fields in the order of its text, repeated names included.
-/

set_option autoImplicit false

namespace SheetTypes

abbrev Template := TypeTerm String UnitTemplate

def typeVariableText (name : String) : String := "@TYPEVAR " ++ name

namespace Template

def spelling : Spelling String UnitTemplate where
  typeVar := typeVariableText
  unit := UnitTemplate.render
  isScalar := UnitTerm.isScalar

def render (template : Template) : String := template.renderWith spelling

end Template

inductive Mention where
  | typeVar (name : String)
  | unitVar (name : String)
  | unit (name : String)
  | taggedType (name : String)
deriving DecidableEq

namespace UnitTemplate

def mentions (unit : UnitTemplate) : List Mention :=
  unit.names.keys.map .unit ++ unit.vars.keys.map .unitVar

end UnitTemplate

namespace Template

mutual

def mentions : Template → List Mention
  | .var name => [.typeVar name]
  | .number unit => UnitTemplate.mentions unit
  | .text | .boolean | .date _ => []
  | .tuple items => itemsMentions items
  | .array item => mentions item
  | .function params result => itemsMentions params ++ mentions result
  | .record fields => fieldsMentions fields
  | .tagged name operands => .taggedType name :: operandsMentions operands

def itemsMentions : List Template → List Mention
  | [] => []
  | item :: items => mentions item ++ itemsMentions items

def fieldsMentions : List (String × Template) → List Mention
  | [] => []
  | (_, type) :: fields => mentions type ++ fieldsMentions fields

def operandsMentions : List (Operand Template UnitTemplate) → List Mention
  | [] => []
  | .type value :: operands => mentions value ++ operandsMentions operands
  | .unit value :: operands => UnitTemplate.mentions value ++ operandsMentions operands

end

end Template

def orderedNames (names : List String) : List String :=
  (OrderedMap.ofList (names.map fun name => (name, ()))).keys

namespace Template

def typeVars (template : Template) : List String :=
  orderedNames (template.mentions.filterMap fun mention =>
    match mention with
    | .typeVar name => some name
    | _ => none)

def unitVars (template : Template) : List String :=
  orderedNames (template.mentions.filterMap fun mention =>
    match mention with
    | .unitVar name => some name
    | _ => none)

def units (template : Template) : List String :=
  orderedNames (template.mentions.filterMap fun mention =>
    match mention with
    | .unit name => some name
    | _ => none)

def taggedTypes (template : Template) : List String :=
  orderedNames (template.mentions.filterMap fun mention =>
    match mention with
    | .taggedType name => some name
    | _ => none)

end Template

end SheetTypes
