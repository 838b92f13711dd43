import SheetTypes.Proofs.Powers

/-!
The exponents of products of powers: each operation adds, scales, changes or removes exponents key
by key and stops at the limit. A checked operation succeeds exactly if no limit is passed, and there
the plain operation is exact.
-/

set_option autoImplicit false

namespace SheetTypes

namespace PowerProduct

variable {κ : Type} [Ord κ] {key query : κ} {left product result right : PowerProduct κ}
  {number : Int}

theorem exponent_within (product : PowerProduct κ) (key : κ) :
    WithinLimit (product.exponent key) :=
  product.normal.exponent_within key

@[simp]
theorem clampToLimit_exponent (product : PowerProduct κ) (key : κ) :
    clampToLimit (product.exponent key) = product.exponent key :=
  clampToLimit_of_within (product.exponent_within key)

@[simp]
theorem exponent_one (key : κ) : (one : PowerProduct κ).exponent key = 0 := rfl

theorem exponent_raise (product : PowerProduct κ) (number : Int) (query : κ) :
    (product.raise number).exponent query = clampToLimit (product.exponent query * number) :=
  product.factors.exponent_raise number query

theorem toList_keys (product : PowerProduct κ) : product.toList.map Prod.fst = product.keys := rfl

theorem mem_keys_of_toList {power : κ × Int} (member : power ∈ product.toList) :
    power.1 ∈ product.keys :=
  toList_keys product ▸ List.mem_map_of_mem member

theorem contains_iff : product.contains key = true ↔ product.exponent key ≠ 0 :=
  product.normal.exponent_ne_zero.symm

private theorem pmap_eq_some {found : Option (Powers κ)}
    {normal : ∀ made, found = some made → made.Normal} :
    found.pmap mk normal = some result ↔ found = some result.factors := by
  rw [Option.pmap_eq_some_iff]
  constructor
  · rintro ⟨_, _, done, rfl⟩
    exact done
  · intro done
    exact ⟨result.factors, result.normal, done, rfl⟩

variable [Std.LawfulEqOrd κ]

theorem mem_keys : key ∈ product.keys ↔ product.exponent key ≠ 0 :=
  OrderedMap.mem_keys.trans product.normal.exponent_ne_zero.symm

theorem mem_toList :
    (key, number) ∈ product.toList ↔ product.exponent key = number ∧ number ≠ 0 :=
  product.normal.mem_toList

theorem toList_nodup (product : PowerProduct κ) : (product.toList.map Prod.fst).Nodup :=
  product.factors.toList_nodup

theorem checkedRaise_eq_some_iff :
    product.checkedRaise number = some result ↔
      (∀ key, WithinLimit (product.exponent key * number)) ∧ result = product.raise number := by
  rw [checkedRaise, pmap_eq_some, product.normal.checkedRaise_eq_some_iff, PowerProduct.ext_iff]
  rfl

theorem eq_of_checkedRaise (checked : product.checkedRaise number = some result) :
    result = product.raise number :=
  (checkedRaise_eq_some_iff.mp checked).2

theorem within_of_checkedRaise (checked : (product.checkedRaise number).isSome = true) (query : κ) :
    WithinLimit (product.exponent query * number) := by
  obtain ⟨result, done⟩ := Option.isSome_iff_exists.mp checked
  exact (checkedRaise_eq_some_iff.mp done).1 query

theorem mem_keys_raise (member : key ∈ (product.raise number).keys) : key ∈ product.keys := by
  rw [mem_keys, exponent_raise] at member
  rw [mem_keys]
  intro zero
  rw [zero, Int.zero_mul] at member
  exact member (by decide)

variable [Std.TransOrd κ]

theorem ext_exponent (same : ∀ key, left.exponent key = right.exponent key) : left = right :=
  PowerProduct.ext (left.normal.ext right.normal same)

theorem eq_one_of_keys (absent : ∀ key, key ∉ product.keys) : product = one := by
  refine ext_exponent fun key => Decidable.not_not.mp fun nonzero => ?_
  exact absent key (mem_keys.mpr nonzero)

theorem isOne_iff : product.isOne = true ↔ product = one := by
  constructor
  · intro empty
    have none : product.toList = [] := List.isEmpty_iff.mp empty
    exact eq_one_of_keys fun key => by simp [← toList_keys, none]
  · rintro rfl
    rfl

theorem exponent_add_self (product : PowerProduct κ) (key : κ) (number : Int) :
    (product.add key number).exponent key = clampToLimit (product.exponent key + number) :=
  product.factors.exponent_add_self key number

theorem exponent_add_of_ne (product : PowerProduct κ) (number : Int) (different : query ≠ key) :
    (product.add key number).exponent query = product.exponent query :=
  product.factors.exponent_add_of_ne number different

@[simp]
theorem exponent_ofKey_self (key : κ) : (ofKey key).exponent key = 1 := by
  change (one.add key 1).exponent key = 1
  rw [exponent_add_self, exponent_one]
  decide

theorem exponent_ofKey_of_ne (different : query ≠ key) : (ofKey key).exponent query = 0 := by
  change (one.add key 1).exponent query = 0
  rw [exponent_add_of_ne one 1 different, exponent_one]

theorem exponent_erase_self (product : PowerProduct κ) (key : κ) :
    (product.erase key).exponent key = 0 := by
  refine (product.factors.exponent_remove key key).trans ?_
  rw [if_pos Std.compare_self]

theorem exponent_erase_of_ne (product : PowerProduct κ) (different : query ≠ key) :
    (product.erase key).exponent query = product.exponent query := by
  refine (product.factors.exponent_remove key query).trans ?_
  rw [if_neg]
  · rfl
  · intro same
    exact different (Std.compare_eq_iff_eq.mp same)

omit [Std.LawfulEqOrd κ] in
theorem checkedAdd_eq (product : PowerProduct κ) (key : κ) (number : Int) :
    product.checkedAdd key number =
      if WithinLimit (product.exponent key + number) then some (product.add key number)
      else none := by
  have raw : product.factors.checkedAdd key number =
      if WithinLimit (product.exponent key + number) then (some (), product.factors.add key number)
      else (none, product.factors) :=
    product.factors.checkedAdd_eq key number
  unfold checkedAdd
  by_cases within : WithinLimit (product.exponent key + number)
  · simp only [raw, if_pos within]
    rfl
  · simp only [raw, if_neg within, Option.map_none]

omit [Std.LawfulEqOrd κ] in
theorem factors_foldl_add (powers : List (κ × Int)) (product : PowerProduct κ) :
    (powers.foldl (fun product power => product.add power.1 power.2) product).factors =
      product.factors.addAll powers := by
  induction powers generalizing product with
  | nil => rfl
  | cons power powers ih => exact ih (product.add power.1 power.2)

omit [Std.LawfulEqOrd κ] in
theorem multiply_eq (left right : PowerProduct κ) :
    left.multiply right =
      right.toList.foldl (fun product power => product.add power.1 power.2) left :=
  PowerProduct.ext (factors_foldl_add right.toList left).symm

omit [Std.LawfulEqOrd κ] in
theorem ofList_eq (powers : List (κ × Int)) :
    ofList powers = powers.foldl (fun product power => product.add power.1 power.2) one :=
  PowerProduct.ext (factors_foldl_add powers one).symm

theorem exponent_foldl_add (powers : List (κ × Int)) (product : PowerProduct κ)
    (distinct : (powers.map Prod.fst).Nodup) (query : κ) :
    (∀ number, (query, number) ∈ powers →
      (powers.foldl (fun product power => product.add power.1 power.2) product).exponent query =
        clampToLimit (product.exponent query + number)) ∧
    (query ∉ powers.map Prod.fst →
      (powers.foldl (fun product power => product.add power.1 power.2) product).exponent query =
        product.exponent query) := by
  rw [exponent, factors_foldl_add]
  exact product.factors.exponent_addAll powers distinct query

theorem exponent_ofList {powers : List (κ × Int)} (distinct : (powers.map Prod.fst).Nodup)
    (query : κ) :
    (∀ number, (query, number) ∈ powers →
      (ofList powers).exponent query = clampToLimit number) ∧
    (query ∉ powers.map Prod.fst → (ofList powers).exponent query = 0) := by
  have added := exponent_foldl_add powers one distinct query
  simp only [exponent_one, Int.zero_add, ← ofList_eq] at added
  exact added

theorem exponent_mapExponents (product : PowerProduct κ) {change : Int → Int}
    (zero : change 0 = 0) (query : κ) :
    (product.mapExponents change).exponent query =
      clampToLimit (change (product.exponent query)) := by
  have keys : (product.toList.map fun power => (power.1, change power.2)).map Prod.fst =
      product.keys := by
    rw [List.map_map]
    rfl
  have distinct :
      ((product.toList.map fun power => (power.1, change power.2)).map Prod.fst).Nodup :=
    keys ▸ product.toList_nodup
  obtain ⟨present, missing⟩ := exponent_ofList distinct query
  by_cases absent : product.exponent query = 0
  · have outside : query ∉ product.keys := fun member => mem_keys.mp member absent
    rw [mapExponents, missing (keys ▸ outside), absent, zero]
    decide
  · exact present _ (List.mem_map.mpr ⟨_, mem_toList.mpr ⟨rfl, absent⟩, rfl⟩)

theorem exponent_multiply (left right : PowerProduct κ) (query : κ) :
    (left.multiply right).exponent query =
      clampToLimit (left.exponent query + right.exponent query) :=
  Powers.exponent_multiply left.normal right.normal query

theorem mem_keys_multiply (member : key ∈ (left.multiply right).keys) :
    key ∈ left.keys ∨ key ∈ right.keys := by
  rw [mem_keys, exponent_multiply] at member
  rw [mem_keys, mem_keys]
  by_cases zero : left.exponent key = 0
  · refine .inr fun otherZero => member ?_
    rw [zero, otherZero]
    decide
  · exact .inl zero

theorem checkedMultiply_eq_some_iff :
    left.checkedMultiply right = some result ↔
      (∀ key, WithinLimit (left.exponent key + right.exponent key)) ∧
        result = left.multiply right := by
  rw [checkedMultiply, pmap_eq_some, left.normal.checkedMultiply_eq_some_iff right.normal,
    PowerProduct.ext_iff]
  rfl

theorem eq_of_checkedMultiply (checked : left.checkedMultiply right = some result) :
    result = left.multiply right :=
  (checkedMultiply_eq_some_iff.mp checked).2

theorem within_of_checkedMultiply (checked : (left.checkedMultiply right).isSome = true)
    (query : κ) : WithinLimit (left.exponent query + right.exponent query) := by
  obtain ⟨result, done⟩ := Option.isSome_iff_exists.mp checked
  exact (checkedMultiply_eq_some_iff.mp done).1 query

/-- Checked multiplication gives the product whose exponents are the sums, if there is one. -/
theorem checkedMultiply_eq_some :
    left.checkedMultiply right = some result ↔
      ∀ key, result.exponent key = left.exponent key + right.exponent key := by
  rw [checkedMultiply_eq_some_iff]
  constructor
  · rintro ⟨within, rfl⟩ key
    rw [exponent_multiply, clampToLimit_of_within (within key)]
  · intro sums
    have within (key : κ) := sums key ▸ result.exponent_within key
    refine ⟨within, ext_exponent fun key => ?_⟩
    rw [exponent_multiply, clampToLimit_of_within (within key), sums]

/-- A checked power is the product whose exponents are the multiples, if there is one. -/
theorem checkedRaise_eq_some :
    product.checkedRaise number = some result ↔
      ∀ key, result.exponent key = product.exponent key * number := by
  rw [checkedRaise_eq_some_iff]
  constructor
  · rintro ⟨within, rfl⟩ key
    rw [exponent_raise, clampToLimit_of_within (within key)]
  · intro multiples
    have within (key : κ) := multiples key ▸ result.exponent_within key
    refine ⟨within, ext_exponent fun key => ?_⟩
    rw [exponent_raise, clampToLimit_of_within (within key), multiples]

theorem multiply_raise_one (product : PowerProduct κ) (number : Int) :
    product.multiply (one.raise number) = product := by
  refine ext_exponent fun key => ?_
  rw [exponent_multiply, exponent_raise, exponent_one, Int.zero_mul]
  exact (congrArg _ (Int.add_zero _)).trans (product.clampToLimit_exponent key)

theorem one_multiply (product : PowerProduct κ) : one.multiply product = product := by
  refine ext_exponent fun key => ?_
  rw [exponent_multiply, exponent_one, Int.zero_add, clampToLimit_exponent]

theorem raise_one (product : PowerProduct κ) : product.raise 1 = product := by
  refine ext_exponent fun key => ?_
  rw [exponent_raise, Int.mul_one, clampToLimit_exponent]

end PowerProduct

end SheetTypes
