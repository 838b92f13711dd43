set_option autoImplicit false

namespace SheetTypes

/-- A TOML value. Of numbers with a fraction or an exponent, and of dates and times, only the kind
is kept. -/
inductive Toml where
  | string (value : String)
  | integer (value : Int)
  | float
  | moment
  | boolean (value : Bool)
  | array (items : List Toml)
  | table (members : List (String × Toml))

namespace Toml

def asString? : Toml → Option String
  | string value => some value
  | _ => none

def asBoolean? : Toml → Option Bool
  | boolean value => some value
  | _ => none

def asNat? : Toml → Option Nat
  | integer value => value.toNat?
  | _ => none

def asArray? : Toml → Option (List Toml)
  | array items => some items
  | _ => none

def isEmpty : Toml → Bool
  | array items => items.isEmpty
  | table members => members.isEmpty
  | _ => false

/-- The members of a record with the given field names, which is written as a table, or as an array
of its first fields in order. A date or time counts as a record of parts with other names. -/
def members? (names : List String) : Toml → Option (List (String × Toml))
  | table members => some members
  | array items => some (names.zip items)
  | moment => some []
  | _ => none

/-- A choice, which is written as its name, or as a table with the details of the choice under its
name. -/
def choice? : Toml → Option (String × Option Toml)
  | string name => some (name, none)
  | table [(name, details)] => some (name, some details)
  | _ => none

def kind : Toml → String
  | string _ => "string"
  | integer _ => "integer"
  | float => "float"
  | moment => "datetime"
  | boolean _ => "boolean"
  | array _ => "array"
  | table _ => "inline table"

/-- What is wrong with a document: a text or value has not the form that it should have, a key of a
table is there already, a key goes through a value that is no table, a choice is not known, or the
reader of a value refuses it. The path of the table is empty for the document itself, and left out
where it plays no part. -/
inductive Fault where
  | malformed
  | duplicateKey (key : String) (table : Option (List String))
  | notTable (path : List String) (kind : String)
  | unknownChoice (name : String) (choices : List String)
  | refused (message : String)

namespace Fault

def quoted (text : String) : String := "`" ++ text ++ "`"

def message : Fault → String
  | malformed => "malformed document"
  | duplicateKey key none => "duplicate key " ++ quoted key
  | duplicateKey key (some []) => "duplicate key " ++ quoted key ++ " in document root"
  | duplicateKey key (some path) =>
      "duplicate key " ++ quoted key ++ " in table " ++ quoted (String.intercalate "." path)
  | notTable path kind =>
      "dotted key " ++ quoted (String.intercalate "." path) ++
        " attempted to extend non-table type (" ++ kind ++ ")"
  | unknownChoice name choices =>
      "unknown variant " ++ quoted name ++ ", expected one of " ++
        String.intercalate ", " (choices.map quoted)
  | refused message => message

end Fault

def wellFormed {α : Type} : Option α → Except Fault α
  | some value => .ok value
  | none => .error .malformed

end Toml

end SheetTypes
