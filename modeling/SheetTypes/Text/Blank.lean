import SheetTypes.Text.CodeRange

set_option autoImplicit false

namespace SheetTypes.Text

def blankRanges : List CodeRange :=
  [(0x9, 0xD), (0x20, 0x20), (0x85, 0x85), (0xA0, 0xA0), (0x1680, 0x1680), (0x2000, 0x200A),
  (0x2028, 0x2029), (0x202F, 0x202F), (0x205F, 0x205F), (0x3000, 0x3000)]

def isBlank (c : Char) : Bool :=
  CodeRange.covers c.toNat blankRanges

def trimStart (chars : List Char) : List Char :=
  chars.dropWhile isBlank

def trimEnd (chars : List Char) : List Char :=
  (chars.reverse.dropWhile isBlank).reverse

def trim (chars : List Char) : List Char :=
  trimEnd (trimStart chars)

end SheetTypes.Text
