import SheetTypes.Text.Numeric

set_option autoImplicit false

namespace SheetTypes.Text

def startsWord (c : Char) : Bool :=
  isAlphabetic c || c == '_'

def continuesWord (c : Char) : Bool :=
  isAlphanumeric c || c == '_'

def isWord (text : String) : Bool :=
  match text.toList with
  | [] => false
  | first :: rest => startsWord first && (first :: rest).all continuesWord

def isDigit (c : Char) : Bool :=
  '0' ≤ c && c ≤ '9'

def digitValue (c : Char) : Nat :=
  c.toNat - '0'.toNat

def ofDigits (digits : List Char) : Nat :=
  digits.foldl (fun number c => number * 10 + digitValue c) 0

end SheetTypes.Text
