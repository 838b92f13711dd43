set_option autoImplicit false

namespace SheetTypes.Text

abbrev CodeRange := Nat × Nat

/-- Looks for a code point in ranges that ascend and do not overlap: the search stops at the first
range that starts beyond it. -/
def CodeRange.covers (code : Nat) : List CodeRange → Bool
  | [] => false
  | (first, last) :: rest =>
      if code < first then false
      else if code ≤ last then true
      else covers code rest

end SheetTypes.Text
