set_option autoImplicit false

namespace SheetTypes.Text

def escapeQuotes : List Char → List Char
  | [] => []
  | c :: rest =>
      if c = '"' ∨ c = '\\' then '\\' :: c :: escapeQuotes rest else c :: escapeQuotes rest

def quoted (text : String) : String :=
  "\"" ++ String.ofList (escapeQuotes text.toList) ++ "\""

end SheetTypes.Text
