import Mathlib.LinearAlgebra.Finsupp.LinearCombination
import SheetTypes.Proofs.Exponents
import SheetTypes.UnitTerm

/-!
The values of units in an abelian group that has a value for every declared name. A product stands
for the sum of its powers there, and as long as no exponent passes the limit, multiplying units is
adding values. In the free group over names and variables different units have different values.
-/

set_option autoImplicit false

namespace SheetTypes

class UnitGroup (G : Type) extends AddCommGroup G where
  named : String → G

namespace PowerProduct

variable {κ : Type} [Ord κ] [Std.LawfulEqOrd κ]

noncomputable def powers (product : PowerProduct κ) : κ →₀ ℤ :=
  Finsupp.ofSupportFinite product.exponent <| by
    refine Set.Finite.subset (List.finite_toSet product.keys) fun key nonzero => ?_
    exact mem_keys.mpr nonzero

@[simp]
theorem powers_apply (product : PowerProduct κ) (key : κ) :
    product.powers key = product.exponent key := rfl

theorem powers_injective {left right : PowerProduct κ} [Std.TransOrd κ]
    (same : left.powers = right.powers) : left = right :=
  ext_exponent fun key => DFunLike.congr_fun same key

@[simp]
theorem powers_one : (one : PowerProduct κ).powers = 0 := by
  ext key
  rfl

theorem powers_raise {product : PowerProduct κ} {number : Int}
    (within : ∀ key, WithinLimit (product.exponent key * number)) :
    (product.raise number).powers = number • product.powers := by
  ext key
  rw [powers_apply, exponent_raise, clampToLimit_of_within (within key), Int.mul_comm]
  rfl

section Powers

variable [Std.TransOrd κ]

@[simp]
theorem powers_ofKey (key : κ) : (ofKey key).powers = Finsupp.single key 1 := by
  ext query
  by_cases same : query = key
  · rw [same, powers_apply, exponent_ofKey_self, Finsupp.single_eq_same]
  · rw [powers_apply, exponent_ofKey_of_ne same, Finsupp.single_eq_of_ne same]

theorem powers_multiply {left right : PowerProduct κ}
    (within : ∀ key, WithinLimit (left.exponent key + right.exponent key)) :
    (left.multiply right).powers = left.powers + right.powers := by
  ext key
  rw [powers_apply, exponent_multiply, clampToLimit_of_within (within key)]
  rfl

theorem powers_erase (product : PowerProduct κ) (key : κ) :
    (product.erase key).powers + Finsupp.single key (product.exponent key) = product.powers := by
  ext query
  rw [Finsupp.add_apply, powers_apply, powers_apply]
  by_cases same : query = key
  · rw [same, exponent_erase_self, Finsupp.single_eq_same, Int.zero_add]
  · rw [exponent_erase_of_ne product same, Finsupp.single_eq_of_ne same, Int.add_zero]

end Powers

section Values

variable {G : Type} [AddCommGroup G]

noncomputable def value (meaning : κ → G) (product : PowerProduct κ) : G :=
  Finsupp.linearCombination ℤ meaning product.powers

theorem value_congr {meaning meaning' : κ → G} (product : PowerProduct κ)
    (same : ∀ key ∈ product.keys, meaning key = meaning' key) :
    product.value meaning = product.value meaning' := by
  unfold value
  rw [Finsupp.linearCombination_apply, Finsupp.linearCombination_apply]
  refine Finsupp.sum_congr fun key member => ?_
  rw [same key (mem_keys.mpr (Finsupp.mem_support_iff.mp member))]

theorem toList_eq (product : PowerProduct κ) :
    product.toList = product.keys.map fun key => (key, product.exponent key) := by
  rw [← toList_keys, List.map_map]
  refine (List.map_id' _).symm.trans (List.map_congr_left fun power member => ?_)
  obtain ⟨key, number⟩ := power
  rw [Function.comp_apply, (mem_toList.mp member).1]

theorem support_powers [DecidableEq κ] (product : PowerProduct κ) :
    product.powers.support = product.keys.toFinset := by
  ext key
  rw [Finsupp.mem_support_iff, List.mem_toFinset, mem_keys, powers_apply]

theorem value_eq_sum (meaning : κ → G) (product : PowerProduct κ) :
    product.value meaning = (product.toList.map fun power => power.2 • meaning power.1).sum := by
  classical
  have distinct : product.keys.Nodup := product.toList_nodup
  rw [toList_eq, List.map_map, value, Finsupp.linearCombination_apply, Finsupp.sum,
    support_powers, List.sum_toFinset _ distinct]
  rfl

@[simp]
theorem value_one (meaning : κ → G) : (one : PowerProduct κ).value meaning = 0 := by
  rw [value, powers_one, map_zero]

@[simp]
theorem value_ofKey [Std.TransOrd κ] (meaning : κ → G) (key : κ) :
    (ofKey key).value meaning = meaning key := by
  rw [value, powers_ofKey, Finsupp.linearCombination_single, one_smul]

theorem value_erase [Std.TransOrd κ] (meaning : κ → G) (product : PowerProduct κ) (key : κ) :
    product.value meaning =
      (product.erase key).value meaning + product.exponent key • meaning key := by
  unfold value
  rw [← powers_erase product key, map_add, Finsupp.linearCombination_single]

end Values

end PowerProduct

namespace UnitTerm

variable {ν G : Type} [Ord ν] [Std.LawfulEqOrd ν] [UnitGroup G] {number : Int}
  {product unit : UnitTerm ν}

omit [Std.LawfulEqOrd ν] in
theorem names_of_ground? {ground : GroundUnit} (same : unit.ground? = some ground) :
    unit.names = ground := by
  unfold ground? at same
  split at same
  · exact Option.some.inj same
  · cases same

noncomputable def value (meaning : ν → G) (unit : UnitTerm ν) : G :=
  unit.names.value UnitGroup.named + unit.vars.value meaning

theorem value_congr {meaning meaning' : ν → G} (unit : UnitTerm ν)
    (same : ∀ var ∈ unit.vars.keys, meaning var = meaning' var) :
    unit.value meaning = unit.value meaning' := by
  unfold value
  rw [PowerProduct.value_congr unit.vars same]

theorem value_ofGround (meaning : ν → G) (unit : GroundUnit) :
    (ofGround unit : UnitTerm ν).value meaning = unit.value UnitGroup.named := by
  rw [value, ofGround, PowerProduct.value_one, add_zero]

variable [Std.TransOrd ν]

@[simp]
theorem value_ofVar (meaning : ν → G) (var : ν) : (ofVar var).value meaning = meaning var := by
  rw [value, ofVar, PowerProduct.value_one, PowerProduct.value_ofKey, zero_add]

/-- Where the exponents of a product and of a power keep within the limit, the value of the whole
is the sum of the values. -/
theorem value_multiply_raise (meaning : ν → G)
    (checked : ((unit.checkedRaise number).bind product.checkedMultiply).isSome = true) :
    (product.multiply (unit.raise number)).value meaning =
      product.value meaning + number • unit.value meaning := by
  obtain ⟨whole, found⟩ := Option.isSome_iff_exists.mp checked
  simp only [checkedRaise, checkedMultiply, Option.bind_eq_bind, Option.bind_eq_some_iff,
    Option.pure_def, Option.some.injEq] at found
  obtain ⟨raised, ⟨names, namesRaised, vars, varsRaised, rfl⟩, first, namesProduct, second,
    varsProduct, rfl⟩ := found
  have sameNames := PowerProduct.eq_of_checkedRaise namesRaised
  have sameVars := PowerProduct.eq_of_checkedRaise varsRaised
  subst sameNames sameVars
  have namesSum := PowerProduct.powers_multiply
    (PowerProduct.within_of_checkedMultiply (Option.isSome_of_eq_some namesProduct))
  have varsSum := PowerProduct.powers_multiply
    (PowerProduct.within_of_checkedMultiply (Option.isSome_of_eq_some varsProduct))
  have namesPower := PowerProduct.powers_raise
    (PowerProduct.within_of_checkedRaise (Option.isSome_of_eq_some namesRaised))
  have varsPower := PowerProduct.powers_raise
    (PowerProduct.within_of_checkedRaise (Option.isSome_of_eq_some varsRaised))
  unfold value multiply raise PowerProduct.value
  rw [namesSum, varsSum, namesPower, varsPower, map_add, map_add, map_zsmul, map_zsmul, smul_add]
  exact add_add_add_comm _ _ _ _

theorem mem_keys_multiply_raise {var : ν}
    (member : var ∈ (product.multiply (unit.raise number)).vars.keys) :
    var ∈ product.vars.keys ∨ var ∈ unit.vars.keys := by
  rcases PowerProduct.mem_keys_multiply member with before | added
  · exact .inl before
  · exact .inr (PowerProduct.mem_keys_raise added)

end UnitTerm

/-- Units without variables, with exponents of any size. -/
abbrev ExactUnit := String →₀ ℤ

noncomputable instance : UnitGroup ExactUnit where
  named name := Finsupp.single name 1

/-- Units over names and unit variables, with exponents of any size. -/
abbrev FreeUnit := (String →₀ ℤ) × (UnitVar →₀ ℤ)

noncomputable instance : UnitGroup FreeUnit where
  named name := (Finsupp.single name 1, 0)

instance : UnitGroup Unit where
  named _ := ()

/-- The free value of a unit, in which its variables stand for themselves. -/
noncomputable def InferredUnit.free (unit : InferredUnit) : FreeUnit :=
  unit.value fun var => (0, Finsupp.single var 1)

theorem InferredUnit.free_eq (unit : InferredUnit) :
    InferredUnit.free unit = (unit.names.powers, unit.vars.powers) := by
  have names (powers : String →₀ ℤ) : Finsupp.linearCombination ℤ
      (UnitGroup.named : String → FreeUnit) powers = (powers, 0) := by
    induction powers using Finsupp.induction_linear with
    | zero => rw [map_zero]; rfl
    | add first second ihFirst ihSecond => rw [map_add, ihFirst, ihSecond]; simp
    | single key number =>
      rw [Finsupp.linearCombination_single]
      change number • ((Finsupp.single key 1, 0) : FreeUnit) = _
      simp
  have vars (powers : UnitVar →₀ ℤ) : Finsupp.linearCombination ℤ
      (fun var => ((0, Finsupp.single var 1) : FreeUnit)) powers = (0, powers) := by
    induction powers using Finsupp.induction_linear with
    | zero => rw [map_zero]; rfl
    | add first second ihFirst ihSecond => rw [map_add, ihFirst, ihSecond]; simp
    | single key number =>
      rw [Finsupp.linearCombination_single]
      simp
  unfold InferredUnit.free UnitTerm.value PowerProduct.value
  rw [names, vars, Prod.mk_add_mk, add_zero, zero_add]

theorem InferredUnit.free_injective {left right : InferredUnit}
    (same : InferredUnit.free left = InferredUnit.free right) : left = right := by
  rw [InferredUnit.free_eq, InferredUnit.free_eq, Prod.mk.injEq] at same
  have sameNames := PowerProduct.powers_injective same.1
  have sameVars := PowerProduct.powers_injective same.2
  cases left
  cases right
  cases sameNames
  cases sameVars
  rfl

end SheetTypes
