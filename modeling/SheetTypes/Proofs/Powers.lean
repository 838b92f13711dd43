import SheetTypes.PowerProduct

/-!
Exponents by key, as the operations make them in any sequence: they never hold zero or a number
beyond the limit, so that they are determined key by key. The checked operations are the plain ones
where no exact exponent passes the limit, and nothing elsewhere.
-/

set_option autoImplicit false

namespace SheetTypes

namespace OrderedMap

variable {κ β : Type} [Ord κ] [Std.LawfulEqOrd κ] {key : κ} {map : OrderedMap κ β}

private theorem mem_iff_findEntry (key : κ) (value : β) (entries : List (κ × β))
    (ascending : entries.Pairwise (fun left right => compare left.1 right.1 = .lt)) :
    (key, value) ∈ entries ↔ findEntry key entries = some value := by
  induction entries with
  | nil => simp [findEntry]
  | cons head rest ih =>
    obtain ⟨here, found⟩ := head
    obtain ⟨before, restAscending⟩ := List.pairwise_cons.mp ascending
    rw [List.mem_cons, ih restAscending]
    cases order : compare key here with
    | eq =>
      have sameKey : key = here := Std.compare_eq_iff_eq.mp order
      subst sameKey
      constructor
      · rintro (same | later)
        · cases same
          simp [findEntry]
        · have member := (ih restAscending).mpr later
          have below := before _ member
          simp at below
      · intro same
        simp only [findEntry, order, Option.some.injEq] at same
        exact .inl (by rw [same])
    | lt =>
      simp only [findEntry, order, Prod.mk.injEq]
      refine or_iff_right fun both => ?_
      rw [both.1] at order
      simp at order
    | gt =>
      simp only [findEntry, order, Prod.mk.injEq]
      refine or_iff_right fun both => ?_
      rw [both.1] at order
      simp at order

theorem mem_entries {value : β} : (key, value) ∈ map.entries ↔ map.find? key = some value :=
  mem_iff_findEntry key value map.entries map.ascending

theorem mem_keys : key ∈ map.keys ↔ (map.find? key).isSome = true := by
  unfold keys
  rw [List.mem_map, Option.isSome_iff_exists]
  constructor
  · rintro ⟨⟨here, value⟩, member, same⟩
    cases same
    exact ⟨value, mem_entries.mp member⟩
  · rintro ⟨value, found⟩
    exact ⟨(key, value), mem_entries.mpr found, rfl⟩

omit [Std.LawfulEqOrd κ] in
theorem exists_mem_of_find? {value : β} (found : map.find? key = some value) :
    ∃ here, (here, value) ∈ map.entries := by
  unfold find? at found
  generalize map.entries = entries at found ⊢
  induction entries with
  | nil => cases found
  | cons head rest ih =>
    rw [findEntry] at found
    split at found
    · cases found
      exact ⟨head.1, List.mem_cons_self⟩
    · obtain ⟨here, inside⟩ := ih found
      exact ⟨here, List.mem_cons_of_mem _ inside⟩

theorem mem_alterEntry_of_fresh {entries : List (κ × β)} (value : β)
    (fresh : ∀ entry ∈ entries, entry.1 ≠ key) {entry : κ × β} :
    entry ∈ alterEntry key (fun _ => some value) entries ↔
      entry = (key, value) ∨ entry ∈ entries := by
  induction entries with
  | nil => simp [alterEntry, consEntry]
  | cons first entries ih =>
    obtain ⟨different, others⟩ := List.forall_mem_cons.mp fresh
    rw [alterEntry]
    cases order : compare key first.1 with
    | lt => simp [consEntry]
    | eq => exact absurd (Std.compare_eq_iff_eq.mp order).symm different
    | gt =>
      rw [List.mem_cons, ih others, List.mem_cons]
      exact or_left_comm

theorem keys_nodup (map : OrderedMap κ β) : map.keys.Nodup := by
  unfold keys
  refine List.Pairwise.map Prod.fst ?_ map.ascending
  intro left right below same
  rw [same] at below
  simp at below

end OrderedMap

namespace Powers

variable {κ : Type} [Ord κ] {key query : κ} {left powers result right : Powers κ} {number : Int}

section Building

variable [Std.TransOrd κ]

/-- What the operations make, in any sequence. -/
inductive Built : Powers κ → Prop where
  | single (key : κ) (number : Int) : Built (.single key number)
  | collect (list : List (κ × Int)) : Built (.collect list)
  | add {powers : Powers κ} (built : Built powers) (key : κ) (number : Int) :
      Built (powers.add key number)
  | checkedAdd {powers : Powers κ} (built : Built powers) (key : κ) (number : Int) :
      Built (powers.checkedAdd key number).2
  | remove {powers : Powers κ} (built : Built powers) (key : κ) : Built (powers.remove key).2
  | multiply {left right : Powers κ} (leftBuilt : Built left) (rightBuilt : Built right) :
      Built (left.multiply right)
  | checkedMultiply {left right result : Powers κ} (leftBuilt : Built left)
      (rightBuilt : Built right) (done : left.checkedMultiply right = some result) : Built result
  | raise {powers : Powers κ} (built : Built powers) (number : Int) : Built (powers.raise number)
  | checkedRaise {powers result : Powers κ} {number : Int} (built : Built powers)
      (done : powers.checkedRaise number = some result) : Built result

theorem Built.normal (built : powers.Built) : powers.Normal := by
  induction built with
  | single key number => exact normal_empty.add key number
  | collect list => exact normal_empty.addAll list
  | add _ key number ih => exact ih.add key number
  | checkedAdd _ key number ih => exact ih.checkedAdd key number
  | remove _ key ih => exact ih.remove key
  | multiply _ _ ih _ => exact ih.addAll _
  | checkedMultiply _ _ done ih _ => exact ih.checkedMultiply done
  | raise _ number ih => exact ih.raise number
  | checkedRaise _ done ih => exact ih.checkedRaise done

end Building

theorem Normal.exponent_within (normal : powers.Normal) (key : κ) :
    WithinLimit (powers.exponent key) := by
  unfold exponent
  cases found : powers.exponents.find? key with
  | none => exact ⟨by decide, by decide⟩
  | some number =>
    obtain ⟨here, inside⟩ := OrderedMap.exists_mem_of_find? found
    exact (normal _ inside).2

theorem Normal.exponent_ne_zero (normal : powers.Normal) :
    powers.exponent key ≠ 0 ↔ (powers.exponents.find? key).isSome = true := by
  unfold exponent
  cases found : powers.exponents.find? key with
  | none => simp
  | some number =>
    obtain ⟨here, inside⟩ := OrderedMap.exists_mem_of_find? found
    simpa using (normal _ inside).1

theorem exponent_raise (powers : Powers κ) (number : Int) (query : κ) :
    (powers.raise number).exponent query = clampToLimit (powers.exponent query * number) := by
  have zero : clampToLimit 0 = 0 := by decide
  unfold raise
  split
  next none => rw [none, Int.mul_zero, zero]; rfl
  next =>
    unfold exponent
    rw [OrderedMap.find?_mapValues]
    cases powers.exponents.find? query with
    | none => simp [zero]
    | some found => rfl

variable [Std.LawfulEqOrd κ]

theorem toList_nodup (powers : Powers κ) : (powers.toList.map Prod.fst).Nodup :=
  powers.exponents.keys_nodup

theorem Normal.mem_toList (normal : powers.Normal) :
    (key, number) ∈ powers.toList ↔ powers.exponent key = number ∧ number ≠ 0 := by
  constructor
  · intro member
    have found : powers.exponents.find? key = some number := OrderedMap.mem_entries.mp member
    rw [exponent, found]
    exact ⟨rfl, (normal _ member).1⟩
  · rintro ⟨rfl, nonzero⟩
    obtain ⟨number, found⟩ := Option.isSome_iff_exists.mp (normal.exponent_ne_zero.mp nonzero)
    rw [exponent, found]
    exact OrderedMap.mem_entries.mpr found

theorem Normal.within_multiples (normal : powers.Normal) :
    (∀ power ∈ powers.toList, WithinLimit (power.2 * number)) ↔
      ∀ key, WithinLimit (powers.exponent key * number) := by
  constructor
  · intro within key
    by_cases zero : powers.exponent key = 0
    · rw [zero, Int.zero_mul]
      exact ⟨by decide, by decide⟩
    · exact within _ (normal.mem_toList.mpr ⟨rfl, zero⟩)
  · intro within power member
    exact (normal.mem_toList.mp member).1 ▸ within power.1

theorem Normal.within_sums (leftNormal : left.Normal) (rightNormal : right.Normal) :
    (∀ power ∈ right.toList, WithinLimit (left.exponent power.1 + power.2)) ↔
      ∀ key, WithinLimit (left.exponent key + right.exponent key) := by
  constructor
  · intro within key
    by_cases zero : right.exponent key = 0
    · rw [zero, Int.add_zero]
      exact leftNormal.exponent_within key
    · exact within _ (rightNormal.mem_toList.mpr ⟨rfl, zero⟩)
  · intro within power member
    exact (rightNormal.mem_toList.mp member).1 ▸ within power.1

theorem Normal.checkedRaise_eq_some_iff (normal : powers.Normal) :
    powers.checkedRaise number = some result ↔
      (∀ key, WithinLimit (powers.exponent key * number)) ∧ result = powers.raise number := by
  rw [checkedRaise_eq, Option.ite_none_right_eq_some, Option.some.injEq, normal.within_multiples]
  exact and_congr_right fun _ => eq_comm

variable [Std.TransOrd κ]

theorem Normal.ext (leftNormal : left.Normal) (rightNormal : right.Normal)
    (same : ∀ key, left.exponent key = right.exponent key) : left = right := by
  have exponents : left.exponents = right.exponents := by
    refine OrderedMap.ext_find? fun key => Option.ext fun number => ?_
    rw [← OrderedMap.mem_entries, ← OrderedMap.mem_entries]
    exact leftNormal.mem_toList.trans (same key ▸ rightNormal.mem_toList.symm)
  obtain ⟨leftExponents⟩ := left
  cases exponents
  rfl

theorem exponent_remove (powers : Powers κ) (key query : κ) :
    (powers.remove key).2.exponent query =
      if compare query key = .eq then 0 else powers.exponent query := by
  unfold remove exponent OrderedMap.erase
  rw [OrderedMap.find?_alter]
  split <;> rfl

theorem exponent_add (powers : Powers κ) (key query : κ) (number : Int) :
    (powers.add key number).exponent query =
      if compare query key = .eq then clampToLimit (powers.exponent key + number)
      else powers.exponent query := by
  rw [add_eq]
  dsimp only
  split
  next zero => exact (exponent_remove powers key query).trans (by rw [zero])
  next =>
    unfold exponent OrderedMap.insert
    rw [OrderedMap.find?_alter]
    split <;> rfl

theorem exponent_add_self (powers : Powers κ) (key : κ) (number : Int) :
    (powers.add key number).exponent key = clampToLimit (powers.exponent key + number) := by
  simp [exponent_add]

theorem exponent_add_of_ne (powers : Powers κ) (number : Int) (different : query ≠ key) :
    (powers.add key number).exponent query = powers.exponent query := by
  rw [exponent_add, if_neg]
  intro same
  exact different (Std.compare_eq_iff_eq.mp same)

/-- Adding powers of different keys changes the exponents of these keys only. -/
theorem exponent_addAll (list : List (κ × Int)) (powers : Powers κ)
    (distinct : (list.map Prod.fst).Nodup) (query : κ) :
    (∀ number, (query, number) ∈ list →
      (powers.addAll list).exponent query = clampToLimit (powers.exponent query + number)) ∧
    (query ∉ list.map Prod.fst → (powers.addAll list).exponent query = powers.exponent query) := by
  induction list generalizing powers with
  | nil => exact ⟨fun _ member => absurd member List.not_mem_nil, fun _ => rfl⟩
  | cons power list ih =>
    obtain ⟨absent, restDistinct⟩ := List.nodup_cons.mp distinct
    obtain ⟨present, missing⟩ := ih (powers.add power.1 power.2) restDistinct
    constructor
    · intro number member
      rcases List.mem_cons.mp member with rfl | later
      · exact (missing absent).trans (exponent_add_self powers query number)
      · have different : query ≠ power.1 := by
          rintro rfl
          exact absent (List.mem_map.mpr ⟨_, later, rfl⟩)
        rw [exponent_add_of_ne powers power.2 different] at present
        exact present number later
    · intro outside
      obtain ⟨different, behind⟩ := not_or.mp (mt List.mem_cons.mpr outside)
      exact (missing behind).trans (exponent_add_of_ne powers power.2 different)

theorem exponent_multiply (leftNormal : left.Normal) (rightNormal : right.Normal) (query : κ) :
    (left.multiply right).exponent query =
      clampToLimit (left.exponent query + right.exponent query) := by
  obtain ⟨present, missing⟩ := exponent_addAll right.toList left right.toList_nodup query
  by_cases zero : right.exponent query = 0
  · have outside : query ∉ right.toList.map Prod.fst := by
      rintro inside
      obtain ⟨power, member, rfl⟩ := List.mem_map.mp inside
      obtain ⟨same, nonzero⟩ := rightNormal.mem_toList.mp member
      exact nonzero (same.symm.trans zero)
    rw [zero, Int.add_zero, clampToLimit_of_within (leftNormal.exponent_within query)]
    exact missing outside
  · exact present _ (rightNormal.mem_toList.mpr ⟨rfl, zero⟩)

theorem checkedAddAll_eq_some (list : List (κ × Int)) (powers : Powers κ)
    (distinct : (list.map Prod.fst).Nodup) :
    powers.checkedAddAll list = some result ↔
      (∀ power ∈ list, WithinLimit (powers.exponent power.1 + power.2)) ∧
        result = powers.addAll list := by
  induction list generalizing powers with
  | nil => exact Option.some_inj.trans (by simp [addAll, eq_comm])
  | cons power list ih =>
    obtain ⟨absent, restDistinct⟩ := List.nodup_cons.mp distinct
    have later : (∀ other ∈ list,
        WithinLimit ((powers.add power.1 power.2).exponent other.1 + other.2)) ↔
          ∀ other ∈ list, WithinLimit (powers.exponent other.1 + other.2) := by
      refine forall₂_congr fun other member => ?_
      rw [exponent_add_of_ne powers power.2]
      intro same
      exact absent (List.mem_map.mpr ⟨other, member, same⟩)
    rw [checkedAddAll_cons, Option.ite_none_right_eq_some, ih _ restDistinct, later,
      List.forall_mem_cons, and_assoc]
    rfl

theorem Normal.checkedMultiply_eq_some_iff (leftNormal : left.Normal) (rightNormal : right.Normal) :
    left.checkedMultiply right = some result ↔
      (∀ key, WithinLimit (left.exponent key + right.exponent key)) ∧
        result = left.multiply right := by
  rw [← leftNormal.within_sums rightNormal]
  exact checkedAddAll_eq_some right.toList left right.toList_nodup

theorem Normal.multiply_comm (leftNormal : left.Normal) (rightNormal : right.Normal) :
    left.multiply right = right.multiply left := by
  refine (leftNormal.addAll _).ext (rightNormal.addAll _) fun key => ?_
  have here := exponent_multiply leftNormal rightNormal key
  have there := exponent_multiply rightNormal leftNormal key
  exact here.trans (there.trans (by rw [Int.add_comm])).symm

/-- No exponent stops at the limit on the way to its negative, so the sums are zero. -/
theorem Normal.multiply_reciprocal (normal : powers.Normal) :
    powers.multiply (powers.raise (-1)) = empty := by
  refine (normal.addAll _).ext normal_empty fun key => ?_
  obtain ⟨above, below⟩ := normal.exponent_within key
  have within : WithinLimit (powers.exponent key * -1) := ⟨by omega, by omega⟩
  have cancels : powers.exponent key + powers.exponent key * -1 = 0 := by omega
  refine (exponent_multiply normal (normal.raise (-1)) key).trans ?_
  rw [exponent_raise, clampToLimit_of_within within, cancels]
  rfl

theorem Normal.collect_toList (normal : powers.Normal) : collect powers.toList = powers := by
  refine (normal_empty.addAll _).ext normal fun key => ?_
  refine (exponent_multiply normal_empty normal key).trans ?_
  rw [exponent, empty, OrderedMap.find?_empty, Option.getD_none, Int.zero_add,
    clampToLimit_of_within (normal.exponent_within key)]

theorem Normal.built (normal : powers.Normal) : powers.Built :=
  normal.collect_toList ▸ .collect powers.toList

/-- Whatever the operations make holds neither zero nor a number beyond the limit, so that its
exponents determine it. Checked operations have the result of the plain ones if no exact exponent
passes the limit, and else none and no effect; the exponents of the result are exact. Even at the
limit factors may change places, and powers cancel with their reciprocals. The products of powers
are what is made so, and compute as it does. -/
theorem checked_iff_exact (leftBuilt : left.Built) (rightBuilt : right.Built) (number : Int) :
    (∀ power ∈ left.toList, power.2 ≠ 0 ∧ WithinLimit power.2) ∧
    (left = right ↔ ∀ key, left.exponent key = right.exponent key) ∧
    (∀ key, left.checkedAdd key number =
      if WithinLimit (left.exponent key + number) then (some (), left.add key number)
      else (none, left)) ∧
    (∀ result, left.checkedMultiply right = some result ↔
      (∀ key, WithinLimit (left.exponent key + right.exponent key)) ∧
        result = left.multiply right) ∧
    (∀ result, left.checkedMultiply right = some result →
      ∀ key, result.exponent key = left.exponent key + right.exponent key) ∧
    (∀ result, left.checkedRaise number = some result ↔
      (∀ key, WithinLimit (left.exponent key * number)) ∧ result = left.raise number) ∧
    (∀ result, left.checkedRaise number = some result →
      ∀ key, result.exponent key = left.exponent key * number) ∧
    left.multiply right = right.multiply left ∧
    (left.multiply (left.raise (-1))).isEmpty = true ∧
    (∀ product : PowerProduct κ, product.factors.Built) ∧
    ∃ product other : PowerProduct κ, product.factors = left ∧ other.factors = right ∧
      (product.multiply other).factors = left.multiply right ∧
      (product.checkedMultiply other).map PowerProduct.factors = left.checkedMultiply right ∧
      (product.raise number).factors = left.raise number ∧
      (product.checkedRaise number).map PowerProduct.factors = left.checkedRaise number := by
  have leftNormal := leftBuilt.normal
  have rightNormal := rightBuilt.normal
  refine ⟨leftNormal, ⟨fun same _ => same ▸ rfl, leftNormal.ext rightNormal⟩,
    fun key => checkedAdd_eq left key number,
    fun _ => leftNormal.checkedMultiply_eq_some_iff rightNormal, ?_,
    fun _ => leftNormal.checkedRaise_eq_some_iff, ?_, leftNormal.multiply_comm rightNormal, ?_,
    fun product => product.normal.built, ⟨left, leftNormal⟩, ⟨right, rightNormal⟩, rfl, rfl, rfl,
    ?_, rfl, ?_⟩
  · intro result done key
    obtain ⟨within, rfl⟩ := (leftNormal.checkedMultiply_eq_some_iff rightNormal).mp done
    rw [exponent_multiply leftNormal rightNormal, clampToLimit_of_within (within key)]
  · intro result done key
    obtain ⟨within, rfl⟩ := leftNormal.checkedRaise_eq_some_iff.mp done
    rw [exponent_raise, clampToLimit_of_within (within key)]
  · rw [leftNormal.multiply_reciprocal]
    rfl
  · rw [PowerProduct.checkedMultiply, Option.map_pmap, Option.pmap_eq_map, Option.map_id']
  · rw [PowerProduct.checkedRaise, Option.map_pmap, Option.pmap_eq_map, Option.map_id']

theorem checked_iff_exact_meters :
    let left : Powers String := (Powers.single "m" (-2147483648)).add "s" 1
    let right : Powers String := .collect [("m", 1), ("s", exponentLimit)]
    left.toList = [("m", -exponentLimit), ("s", 1)] ∧
      left.checkedAdd "m" (-1) = (none, left) ∧ left.checkedMultiply right = none ∧
      left.checkedRaise (-1) = some (left.raise (-1)) ∧
      left.multiply right = right.multiply left ∧
      (left.multiply (left.raise (-1))).isEmpty = true := by
  intro left right
  have leftBuilt : left.Built := (Built.single "m" (-2147483648)).add "s" 1
  obtain ⟨_, _, adds, _, _, _, _, commutes, cancels, _⟩ :=
    checked_iff_exact leftBuilt (Built.collect [("m", 1), ("s", exponentLimit)]) (-1)
  have beyond : ¬WithinLimit (left.exponent "m" + -1) := by decide +kernel
  exact ⟨by decide +kernel, (adds "m").trans (if_neg beyond), by decide +kernel,
    by decide +kernel, commutes, cancels⟩

end Powers

end SheetTypes
