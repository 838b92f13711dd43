import SheetTypes.OrderedMap

set_option autoImplicit false

namespace SheetTypes

inductive Json where
  | null
  | boolean (value : Bool)
  | integer (value : Int)
  | string (value : String)
  | array (items : List Json)
  | object (members : List (String × Json))

namespace Json

def strings (values : List String) : Json := .array (values.map .string)

def hexDigit (value : Nat) : Char :=
  if value < 10 then Char.ofNat ('0'.toNat + value) else Char.ofNat ('a'.toNat + value - 10)

def escapeChar (c : Char) : List Char :=
  if c = '"' then ['\\', '"']
  else if c = '\\' then ['\\', '\\']
  else if c = '\n' then ['\\', 'n']
  else if c = '\r' then ['\\', 'r']
  else if c = '\t' then ['\\', 't']
  else if c.toNat = 8 then ['\\', 'b']
  else if c.toNat = 12 then ['\\', 'f']
  else if c.toNat < 32 then
    ['\\', 'u', '0', '0', hexDigit (c.toNat / 16), hexDigit (c.toNat % 16)]
  else [c]

def quote (text : String) : String :=
  "\"" ++ String.ofList (text.toList.flatMap escapeChar) ++ "\""

def newline (level : Nat) : String := "\n" ++ "".pushn ' ' (2 * level)

def ordered {β : Type} (members : List (String × β)) : List (String × β) :=
  (OrderedMap.ofList members).entries

mutual

def pretty (level : Nat) : Json → String
  | .null => "null"
  | .boolean true => "true"
  | .boolean false => "false"
  | .integer value => toString value
  | .string value => quote value
  | .array [] => "[]"
  | .array (item :: items) =>
      "[" ++ newline (level + 1) ++ pretty (level + 1) item ++ prettyItems (level + 1) items ++
        newline level ++ "]"
  | .object members =>
      match ordered (prettyMembers (level + 1) members) with
      | [] => "\x7b\x7d"
      | member :: rest =>
          "\x7b" ++ newline (level + 1) ++
            ("," ++ newline (level + 1)).intercalate ((member :: rest).map Prod.snd) ++
            newline level ++ "\x7d"

def prettyItems (level : Nat) : List Json → String
  | [] => ""
  | item :: items => "," ++ newline level ++ pretty level item ++ prettyItems level items

def prettyMembers (level : Nat) : List (String × Json) → List (String × String)
  | [] => []
  | (name, value) :: members =>
      (name, quote name ++ ": " ++ pretty level value) :: prettyMembers level members

end

end Json

end SheetTypes
