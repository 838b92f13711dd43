set_option autoImplicit false

namespace SheetTypes

structure TypeVar where
  index : Nat
deriving DecidableEq

structure UnitVar where
  index : Nat
deriving DecidableEq

def TypeVar.text (var : TypeVar) : String := "_t" ++ toString var.index

def UnitVar.text (var : UnitVar) : String := "_u" ++ toString var.index

namespace UnitVar

instance : Ord UnitVar := ⟨fun left right => compare left.index right.index⟩

instance : Std.TransOrd UnitVar := inferInstanceAs (Std.TransCmp (compareOn UnitVar.index))

instance : Std.LawfulEqOrd UnitVar where
  compare_self {var} := by
    change compare var.index var.index = .eq
    exact Std.compare_eq_iff_eq.mpr rfl
  eq_of_compare {left right} same := by
    obtain ⟨leftIndex⟩ := left
    obtain ⟨rightIndex⟩ := right
    have sameIndex : leftIndex = rightIndex := Std.compare_eq_iff_eq.mp same
    rw [sameIndex]

end UnitVar

end SheetTypes
