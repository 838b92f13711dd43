import SheetTypes.Text.Quoted
import SheetTypes.Text.Word
import SheetTypes.TypeTerm
import SheetTypes.UnitTerm

set_option autoImplicit false

namespace SheetTypes

def reservedWords : List String :=
  ["NUMBER", "TEXT", "BOOLEAN", "RECORD", "TAGGED", "VOID"] ++ DateKind.all.map DateKind.keyword

/-- A field name: as it is if it is a word without a meaning of its own, else quoted. -/
def fieldNameText (name : String) : String :=
  if Text.isWord name && !reservedWords.contains name then name else Text.quoted name

structure Spelling (ν υ : Type) where
  typeVar : ν → String
  unit : υ → String
  isScalar : υ → Bool

namespace TypeTerm

variable {ν υ : Type}

mutual

def renderWith (spelling : Spelling ν υ) : TypeTerm ν υ → String
  | .var name => spelling.typeVar name
  | .number unit =>
      if spelling.isScalar unit then "NUMBER" else "NUMBER\x7b" ++ spelling.unit unit ++ "\x7d"
  | .text => "TEXT"
  | .boolean => "BOOLEAN"
  | .date kind => kind.keyword
  | .tuple items => "(" ++ renderItems spelling items ++ ")"
  | .array item => "[" ++ renderWith spelling item ++ "]"
  | .function params result =>
      "((" ++ renderItems spelling params ++ ") -> " ++ renderWith spelling result ++ ")"
  | .record fields => "RECORD\x7b" ++ renderFields spelling fields ++ "\x7d"
  | .tagged name operands => "TAGGED " ++ Text.quoted name ++ renderOperands spelling operands

def renderItems (spelling : Spelling ν υ) : List (TypeTerm ν υ) → String
  | [] => ""
  | [item] => renderWith spelling item
  | item :: next :: items =>
      renderWith spelling item ++ ", " ++ renderItems spelling (next :: items)

def renderFields (spelling : Spelling ν υ) : List (String × TypeTerm ν υ) → String
  | [] => ""
  | [(name, type)] => fieldNameText name ++ ": " ++ renderWith spelling type
  | (name, type) :: next :: fields =>
      fieldNameText name ++ ": " ++ renderWith spelling type ++ ", " ++
        renderFields spelling (next :: fields)

def renderOperands (spelling : Spelling ν υ) : List (Operand (TypeTerm ν υ) υ) → String
  | [] => ""
  | .type value :: operands =>
      " (" ++ renderWith spelling value ++ ")" ++ renderOperands spelling operands
  | .unit value :: operands =>
      " \x7b" ++ spelling.unit value ++ "\x7d" ++ renderOperands spelling operands

end

end TypeTerm

def Operand.renderWith {ν υ : Type} (spelling : Spelling ν υ) :
    Operand (TypeTerm ν υ) υ → String
  | .type value => "(" ++ value.renderWith spelling ++ ")"
  | .unit value => "\x7b" ++ spelling.unit value ++ "\x7d"

end SheetTypes
