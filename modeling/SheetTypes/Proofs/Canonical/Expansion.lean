import Mathlib.Algebra.Order.Field.Rat
import SheetTypes.Proofs.Canonical.Rounds
import SheetTypes.Proofs.UnitValue

/-!
The full expansion of units, by recursion over their definitions and with exponents of any size.
Expanding round by round comes to the same, as long as no exponent passes the limit: a round
replaces names of all depths at once, and changes neither the scale nor the base units that the
whole stands for. So canonical forms multiply and are raised to powers like the units themselves.
-/

set_option autoImplicit false

namespace SheetTypes

namespace PowerProduct

variable {κ : Type} [Ord κ] [Std.LawfulEqOrd κ]

theorem prod_powers {M : Type} [CommMonoid M] (product : PowerProduct κ) (factor : κ → ℤ → M) :
    product.powers.prod factor =
      (product.toList.map fun power => factor power.1 power.2).prod := by
  classical
  have distinct : product.keys.Nodup := product.toList_nodup
  rw [toList_eq, List.map_map, Finsupp.prod, support_powers, List.prod_toFinset _ distinct]
  rfl

end PowerProduct

/-- A scale and a product of unit names, with exponents of any size. -/
@[ext]
structure Expansion where
  scale : ℚ
  powers : ExactUnit

namespace Expansion

variable {expand expand' : String → Expansion} {left right unit : GroundUnit} {number : Int}

noncomputable def ofName (name : String) : Expansion := ⟨1, Finsupp.single name 1⟩

noncomputable def multiply (left right : Expansion) : Expansion :=
  ⟨left.scale * right.scale, left.powers + right.powers⟩

noncomputable def raise (expansion : Expansion) (number : Int) : Expansion :=
  ⟨expansion.scale ^ number, number • expansion.powers⟩

def scaleBy (factor : ℚ) (expansion : Expansion) : Expansion :=
  ⟨factor * expansion.scale, expansion.powers⟩

noncomputable def ofPowers (expand : String → Expansion) (powers : ExactUnit) : Expansion where
  scale := powers.prod fun name number => (expand name).scale ^ number
  powers := Finsupp.linearCombination ℤ (fun name => (expand name).powers) powers

noncomputable def ofUnit (expand : String → Expansion) (unit : GroundUnit) : Expansion :=
  ofPowers expand unit.powers

theorem ofUnit_eq (expand : String → Expansion) (unit : GroundUnit) :
    ofUnit expand unit =
      ⟨(unit.toList.map fun power => (expand power.1).scale ^ power.2).prod,
        (unit.toList.map fun power => power.2 • (expand power.1).powers).sum⟩ :=
  Expansion.ext (unit.prod_powers _) (unit.value_eq_sum _)

theorem ofUnit_congr (same : ∀ name ∈ unit.keys, expand name = expand' name) :
    ofUnit expand unit = ofUnit expand' unit := by
  refine Expansion.ext ?_ ?_
  · refine Finsupp.prod_congr fun name member => ?_
    rw [same name (PowerProduct.mem_keys.mpr (Finsupp.mem_support_iff.mp member))]
  · refine PowerProduct.value_congr unit fun name member => ?_
    rw [same name member]

theorem ofUnit_ofName (unit : GroundUnit) : ofUnit ofName unit = ⟨1, unit.powers⟩ := by
  refine Expansion.ext ?_ ?_
  · exact Finset.prod_eq_one fun name _ => one_zpow _
  · simp [ofUnit, ofPowers, ofName, Finsupp.linearCombination_apply]

theorem ofPowers_zero : ofPowers expand 0 = ⟨1, 0⟩ := by
  simp [ofPowers]

theorem ofPowers_single (name : String) (number : Int) :
    ofPowers expand (Finsupp.single name number) = (expand name).raise number := by
  refine Expansion.ext ?_ ?_
  · exact Finsupp.prod_single_index (zpow_zero _)
  · exact Finsupp.linearCombination_single ℤ number name

theorem ofPowers_add (nonzero : ∀ name, (expand name).scale ≠ 0) (left right : ExactUnit) :
    ofPowers expand (left + right) = (ofPowers expand left).multiply (ofPowers expand right) := by
  refine Expansion.ext ?_ ?_
  · exact Finsupp.prod_add_index' (fun name => zpow_zero _)
      fun name first second => zpow_add₀ (nonzero name) first second
  · exact map_add _ left right

theorem ofPowers_smul (nonzero : ∀ name, (expand name).scale ≠ 0) (number : Int)
    (powers : ExactUnit) :
    ofPowers expand (number • powers) = (ofPowers expand powers).raise number := by
  refine Expansion.ext ?_ (map_zsmul _ number powers)
  induction powers using Finsupp.induction_linear with
  | zero => simp [ofPowers_zero, raise]
  | add left right ihLeft ihRight =>
    rw [smul_add, ofPowers_add nonzero, ofPowers_add nonzero]
    exact (congrArg₂ (· * ·) ihLeft ihRight).trans (mul_zpow _ _ number).symm
  | single name exponent =>
    rw [Finsupp.smul_single, ofPowers_single, ofPowers_single]
    simp only [raise, smul_eq_mul]
    rw [mul_comm, zpow_mul]

theorem ofUnit_multiply (nonzero : ∀ name, (expand name).scale ≠ 0)
    (within : ∀ name, WithinLimit (left.exponent name + right.exponent name)) :
    ofUnit expand (left.multiply right) = (ofUnit expand left).multiply (ofUnit expand right) := by
  unfold ofUnit
  rw [PowerProduct.powers_multiply within, ofPowers_add nonzero]

theorem ofUnit_raise (nonzero : ∀ name, (expand name).scale ≠ 0)
    (within : ∀ name, WithinLimit (unit.exponent name * number)) :
    ofUnit expand (unit.raise number) = (ofUnit expand unit).raise number := by
  unfold ofUnit
  rw [PowerProduct.powers_raise within, ofPowers_smul nonzero]

/-- Names that contribute nothing may have any exponents. -/
theorem ofPowers_congr {watched : String → Bool} {left right : ExactUnit}
    (ignored : ∀ name, watched name = false → expand name = ⟨1, 0⟩)
    (same : ∀ name, watched name = true → left name = right name) :
    ofPowers expand left = ofPowers expand right := by
  classical
  have onLeft : left.support ⊆ left.support ∪ right.support := Finset.subset_union_left
  have onRight : right.support ⊆ left.support ∪ right.support := Finset.subset_union_right
  refine Expansion.ext ?_ ?_
  · simp only [ofPowers]
    rw [Finsupp.prod_of_support_subset left onLeft _ fun name _ => zpow_zero _,
      Finsupp.prod_of_support_subset right onRight _ fun name _ => zpow_zero _]
    refine Finset.prod_congr rfl fun name _ => ?_
    cases seen : watched name with
    | true => rw [same name seen]
    | false => rw [ignored name seen, one_zpow, one_zpow]
  · simp only [ofPowers, Finsupp.linearCombination_apply]
    rw [Finsupp.sum_of_support_subset left onLeft _
        fun name _ => zero_smul ℤ (expand name).powers,
      Finsupp.sum_of_support_subset right onRight _
        fun name _ => zero_smul ℤ (expand name).powers]
    refine Finset.sum_congr rfl fun name _ => ?_
    cases seen : watched name with
    | true => rw [same name seen]
    | false => rw [ignored name seen, smul_zero, smul_zero]

theorem ofUnit_ofKey (name : String) : ofUnit expand (.ofKey name) = expand name := by
  rw [ofUnit, PowerProduct.powers_ofKey, ofPowers_single]
  exact Expansion.ext (zpow_one _) (one_smul _ _)

noncomputable def ofForm (expand : String → Expansion) (form : ScaledUnit) : Expansion :=
  (ofUnit expand form.unit).scaleBy form.scale

end Expansion

namespace ScaledUnit

variable {form left right : ScaledUnit}

def multiply (left right : ScaledUnit) : ScaledUnit :=
  ⟨left.scale * right.scale, left.unit.multiply right.unit⟩

def raise (form : ScaledUnit) (number : Int) : ScaledUnit :=
  ⟨form.scale ^ number, form.unit.raise number⟩

/-- A form with the limit on its exponents forgotten. -/
noncomputable def toExpansion (form : ScaledUnit) : Expansion := ⟨form.scale, form.unit.powers⟩

/-- A form that stands for a product is the product, and no exponent of it is at the limit only
because it stopped there. -/
theorem eq_multiply (value : form.toExpansion = left.toExpansion.multiply right.toExpansion) :
    form = left.multiply right := by
  obtain ⟨scale, powers⟩ := Expansion.ext_iff.mp value
  have sums : left.unit.checkedMultiply right.unit = some form.unit :=
    PowerProduct.checkedMultiply_eq_some.mpr fun key => DFunLike.congr_fun powers key
  rw [multiply, ← PowerProduct.eq_of_checkedMultiply sums]
  exact congrArg (ScaledUnit.mk · form.unit) scale

theorem eq_raise {number : Int} (value : form.toExpansion = left.toExpansion.raise number) :
    form = left.raise number := by
  obtain ⟨scale, powers⟩ := Expansion.ext_iff.mp value
  have multiples : left.unit.checkedRaise number = some form.unit := by
    refine PowerProduct.checkedRaise_eq_some.mpr fun key => ?_
    rw [Int.mul_comm]
    exact DFunLike.congr_fun powers key
  rw [raise, ← PowerProduct.eq_of_checkedRaise multiples]
  exact congrArg (ScaledUnit.mk · form.unit) scale

end ScaledUnit

namespace Registry

open Expansion

variable {registry : Registry} {name : String} {number : Int}

/-- The expansion of a name: of a derived unit, its scale times the product of the expansions of
its base; any other name stands for itself. -/
noncomputable def Consistent.expand (consistent : registry.Consistent) : String → Expansion :=
  consistent.unitsFounded.fix fun name expand =>
    match found : registry.unit? name with
    | some (.derived scale base) =>
      (ofUnit (fun inner =>
        if inside : inner ∈ base.keys then expand inner ⟨scale, base, found, inside⟩
        else ofName inner) base).scaleBy scale
    | _ => ofName name

theorem Consistent.expand_of_derived (consistent : registry.Consistent) {scale : Scale}
    {base : GroundUnit} (found : registry.unit? name = some (.derived scale base)) :
    consistent.expand name = (ofUnit consistent.expand base).scaleBy scale := by
  unfold expand
  rw [WellFounded.fix_eq]
  split
  next factor unit own =>
    cases found.symm.trans own
    congr 1
    refine ofUnit_congr fun inner inside => ?_
    rw [dif_pos inside]
  next other => exact absurd found (other scale base)

theorem Consistent.expand_of_plain (consistent : registry.Consistent)
    (plain : registry.isDerived name = false) : consistent.expand name = ofName name := by
  unfold expand
  rw [WellFounded.fix_eq]
  split
  next scale base found =>
    rw [isDerived_of_unit? found] at plain
    cases plain
  next => rfl

theorem Consistent.expand_scale_pos (consistent : registry.Consistent) (name : String) :
    0 < (consistent.expand name).scale := by
  induction name using consistent.unitsFounded.induction with
  | _ name ih =>
    cases derived : registry.isDerived name with
    | false =>
      rw [consistent.expand_of_plain derived]
      exact one_pos
    | true =>
      obtain ⟨scale, base, found⟩ := exists_of_isDerived derived
      rw [consistent.expand_of_derived found]
      refine mul_pos (consistent.scalesPositive name scale base found) ?_
      refine Finset.prod_pos fun inner member => zpow_pos (ih inner ?_) _
      have inside : inner ∈ base.keys :=
        PowerProduct.mem_keys.mpr (Finsupp.mem_support_iff.mp member)
      exact ⟨scale, base, found, inside⟩

theorem Consistent.expand_scale_ne_zero (consistent : registry.Consistent) (name : String) :
    (consistent.expand name).scale ≠ 0 :=
  (consistent.expand_scale_pos name).ne'

/-- Whether multiplying by a power of a name, or of its definition, keeps all exponents within the
limit. -/
def addsExactly (registry : Registry) (form : ScaledUnit) (name : String) (number : Int) : Bool :=
  match registry.unit? name with
  | some (.derived _ base) => ((base.checkedRaise number).bind form.unit.checkedMultiply).isSome
  | _ => (form.unit.checkedAdd name number).isSome

def expandsExactly (registry : Registry) : ScaledUnit → List (String × Int) → Bool
  | _, [] => true
  | form, (name, number) :: powers =>
    registry.addsExactly form name number &&
      registry.expandsExactly (form.addExpanded registry name number) powers

def exactWithin (registry : Registry) : Nat → ScaledUnit → Bool
  | 0, _ => true
  | rounds + 1, form =>
    registry.expandsExactly ⟨form.scale, .one⟩ form.unit.toList &&
      (!form.unit.keys.any registry.isDerived ||
        registry.exactWithin rounds (registry.expandOnce form))

/-- Whether no exponent stops at the limit on the way to the canonical form of a unit. -/
def canonicalizesExactly (registry : Registry) (unit : GroundUnit) : Bool :=
  registry.exactWithin expansionRounds ⟨1, unit⟩

/-- What a round puts in the place of a name: its definition, or the name itself. -/
def replacement (registry : Registry) (name : String) : ScaledUnit :=
  match registry.unit? name with
  | some (.derived scale base) => ⟨scale, base⟩
  | _ => ⟨1, .ofKey name⟩

def addsExactlyOn (registry : Registry) (watched : String → Bool) (form : ScaledUnit)
    (name : String) (number : Int) : Bool :=
  (registry.replacement name).unit.keys.all fun key =>
    !watched key || decide ((form.addExpanded registry name number).unit.exponent key =
      form.unit.exponent key + (registry.replacement name).unit.exponent key * number)

def expandsExactlyOn (registry : Registry) (watched : String → Bool) :
    ScaledUnit → List (String × Int) → Bool
  | _, [] => true
  | form, (name, number) :: powers =>
    registry.addsExactlyOn watched form name number &&
      registry.expandsExactlyOn watched (form.addExpanded registry name number) powers

def exactWithinOn (registry : Registry) (watched : String → Bool) : Nat → ScaledUnit → Bool
  | 0, _ => true
  | rounds + 1, form =>
    registry.expandsExactlyOn watched ⟨form.scale, .one⟩ form.unit.toList &&
      (!form.unit.keys.any registry.isDerived ||
        registry.exactWithinOn watched rounds (registry.expandOnce form))

/-- Whether no exponent of a watched name stops at the limit on the way to the canonical form of a
unit. -/
def canonicalizesExactlyOn (registry : Registry) (watched : String → Bool) (unit : GroundUnit) :
    Bool :=
  registry.exactWithinOn watched expansionRounds ⟨1, unit⟩

variable {form result : ScaledUnit} {watched : String → Bool} {value : String → Expansion}

theorem replacement_of_derived {scale : Scale} {base : GroundUnit}
    (found : registry.unit? name = some (.derived scale base)) :
    registry.replacement name = ⟨scale, base⟩ := by
  rw [replacement, found]

theorem replacement_of_plain (plain : registry.isDerived name = false) :
    registry.replacement name = ⟨1, .ofKey name⟩ := by
  unfold replacement
  split
  next scale base found =>
    rw [isDerived_of_unit? found] at plain
    cases plain
  next => rfl

theorem scale_addExpanded (form : ScaledUnit) (name : String) (number : Int) :
    (form.addExpanded registry name number).scale =
      form.scale * (registry.replacement name).scale ^ number := by
  cases derived : registry.isDerived name with
  | true =>
    obtain ⟨scale, base, found⟩ := exists_of_isDerived derived
    rw [addExpanded_of_derived found, replacement_of_derived found]
  | false => rw [addExpanded_of_plain derived, replacement_of_plain derived, one_zpow, mul_one]

theorem exponent_addExpanded_of_not_mem {key : String}
    (absent : key ∉ (registry.replacement name).unit.keys) (form : ScaledUnit) (number : Int) :
    (form.addExpanded registry name number).unit.exponent key = form.unit.exponent key := by
  cases derived : registry.isDerived name with
  | true =>
    obtain ⟨scale, base, found⟩ := exists_of_isDerived derived
    rw [replacement_of_derived found, PowerProduct.mem_keys, not_not] at absent
    have zero : clampToLimit 0 = 0 := by decide
    rw [addExpanded_of_derived found, PowerProduct.exponent_multiply, PowerProduct.exponent_raise,
      absent, Int.zero_mul, zero, Int.add_zero, PowerProduct.clampToLimit_exponent]
  | false =>
    rw [addExpanded_of_plain derived]
    refine PowerProduct.exponent_add_of_ne _ _ ?_
    rintro rfl
    rw [replacement_of_plain derived, PowerProduct.mem_keys, PowerProduct.exponent_ofKey_self]
      at absent
    exact absent one_ne_zero

theorem exponent_addExpanded {key : String} (seen : watched key = true)
    (exact : registry.addsExactlyOn watched form name number = true) :
    (form.addExpanded registry name number).unit.exponent key =
      form.unit.exponent key + (registry.replacement name).unit.exponent key * number := by
  by_cases inside : key ∈ (registry.replacement name).unit.keys
  · simpa [seen] using List.all_eq_true.mp exact key inside
  · rw [exponent_addExpanded_of_not_mem inside]
    rw [PowerProduct.mem_keys, not_not] at inside
    rw [inside, Int.zero_mul, Int.add_zero]

/-- Values of names that follow the definitions, and to which names that are not watched contribute
nothing. -/
structure Interprets (registry : Registry) (watched : String → Bool) (value : String → Expansion) :
    Prop where
  nonzero : ∀ name, (value name).scale ≠ 0
  replaced : ∀ name, value name =
    (ofUnit value (registry.replacement name).unit).scaleBy (registry.replacement name).scale
  ignored : ∀ name, watched name = false → value name = ⟨1, 0⟩

namespace Interprets

theorem addExpanded (interprets : registry.Interprets watched value)
    (exact : registry.addsExactlyOn watched form name number = true) :
    ofForm value (form.addExpanded registry name number) =
      (ofForm value form).multiply ((value name).raise number) := by
  have unit : ofUnit value (form.addExpanded registry name number).unit =
      (ofUnit value form.unit).multiply
        ((ofUnit value (registry.replacement name).unit).raise number) := by
    unfold ofUnit
    rw [← ofPowers_smul interprets.nonzero, ← ofPowers_add interprets.nonzero]
    refine ofPowers_congr interprets.ignored fun key seen => ?_
    refine (exponent_addExpanded seen exact).trans ?_
    rw [Int.mul_comm]
    rfl
  rw [ofForm, unit, scale_addExpanded, interprets.replaced name]
  refine Expansion.ext ?_ rfl
  simp only [ofForm, scaleBy, Expansion.multiply, raise, mul_zpow]
  exact mul_mul_mul_comm _ _ _ _

theorem foldl (interprets : registry.Interprets watched value) {powers : List (String × Int)}
    (exact : registry.expandsExactlyOn watched form powers = true) :
    ofForm value (powers.foldl
        (fun expanded power => expanded.addExpanded registry power.1 power.2) form) =
      (ofForm value form).multiply
        ⟨(powers.map fun power => (value power.1).scale ^ power.2).prod,
          (powers.map fun power => power.2 • (value power.1).powers).sum⟩ := by
  induction powers generalizing form with
  | nil => simp [Expansion.multiply]
  | cons power powers ih =>
    obtain ⟨here, rest⟩ := Bool.and_eq_true_iff.mp exact
    rw [List.foldl_cons, ih rest, interprets.addExpanded here]
    simp [Expansion.multiply, raise, mul_assoc, add_assoc]

/-- A round that is exact changes nothing of what a form stands for. -/
theorem expandOnce (interprets : registry.Interprets watched value)
    (exact : registry.expandsExactlyOn watched ⟨form.scale, .one⟩ form.unit.toList = true) :
    ofForm value (registry.expandOnce form) = ofForm value form := by
  rw [Registry.expandOnce, interprets.foldl exact, ← ofUnit_eq]
  unfold ofForm
  rw [ofUnit, PowerProduct.powers_one, ofPowers_zero]
  simp [Expansion.multiply, scaleBy]

theorem expandWithin (interprets : registry.Interprets watched value) {rounds : Nat}
    (exact : registry.exactWithinOn watched rounds form = true)
    (done : registry.expandWithin rounds form = some result) :
    ofForm value result = ofForm value form := by
  induction rounds generalizing form with
  | zero => cases done
  | succ rounds ih =>
    obtain ⟨here, rest⟩ := Bool.and_eq_true_iff.mp exact
    have same := interprets.expandOnce here
    rw [Registry.expandWithin] at done
    cases derived : form.unit.keys.any registry.isDerived with
    | true =>
      rw [derived] at done rest
      exact (ih rest done).trans same
    | false =>
      rw [derived] at done
      cases done
      exact same

theorem canonicalize (interprets : registry.Interprets watched value) {unit : GroundUnit}
    (exact : registry.canonicalizesExactlyOn watched unit = true)
    (done : registry.canonicalize unit = .ok form) : ofForm value form = ofUnit value unit := by
  rw [interprets.expandWithin exact (canonicalize_eq_ok.mp done), ofForm, scaleBy, one_mul]

end Interprets

theorem Consistent.interprets (consistent : registry.Consistent) :
    registry.Interprets (fun _ => true) consistent.expand where
  nonzero := consistent.expand_scale_ne_zero
  replaced name := by
    cases derived : registry.isDerived name with
    | true =>
      obtain ⟨scale, base, found⟩ := exists_of_isDerived derived
      rw [replacement_of_derived found, consistent.expand_of_derived found]
    | false =>
      rw [replacement_of_plain derived, ofUnit_ofKey]
      exact Expansion.ext (one_mul _).symm rfl
  ignored _ impossible := Bool.noConfusion impossible

theorem addsExactlyOn_of_addsExactly (exact : registry.addsExactly form name number = true) :
    registry.addsExactlyOn (fun _ => true) form name number = true := by
  refine List.all_eq_true.mpr fun key inside => decide_eq_true ?_
  unfold addsExactly at exact
  split at exact
  next scale base found =>
    obtain ⟨product, whole⟩ := Option.isSome_iff_exists.mp exact
    obtain ⟨raised, power, times⟩ := Option.bind_eq_some_iff.mp whole
    have sums := PowerProduct.checkedMultiply_eq_some.mp times key
    rw [PowerProduct.checkedRaise_eq_some.mp power key, PowerProduct.eq_of_checkedMultiply times,
      PowerProduct.eq_of_checkedRaise power] at sums
    rw [addExpanded_of_derived found, replacement_of_derived found]
    exact sums
  next other =>
    have plain : registry.isDerived name = false := by
      rw [← Bool.not_eq_true]
      intro derived
      obtain ⟨scale, base, found⟩ := exists_of_isDerived derived
      exact other scale base found
    rw [replacement_of_plain plain, PowerProduct.mem_keys] at inside
    obtain rfl : key = name := by
      by_contra different
      exact inside (PowerProduct.exponent_ofKey_of_ne different)
    rw [PowerProduct.checkedAdd_eq] at exact
    split at exact
    next within =>
      rw [addExpanded_of_plain plain, replacement_of_plain plain, PowerProduct.exponent_add_self,
        clampToLimit_of_within within, PowerProduct.exponent_ofKey_self, Int.one_mul]
    next => cases exact

theorem expandsExactlyOn_of_expandsExactly {powers : List (String × Int)}
    (exact : registry.expandsExactly form powers = true) :
    registry.expandsExactlyOn (fun _ => true) form powers = true := by
  induction powers generalizing form with
  | nil => rfl
  | cons power powers ih =>
    obtain ⟨here, rest⟩ := Bool.and_eq_true_iff.mp exact
    exact Bool.and_eq_true_iff.mpr ⟨addsExactlyOn_of_addsExactly here, ih rest⟩

theorem exactWithinOn_of_exactWithin {rounds : Nat}
    (exact : registry.exactWithin rounds form = true) :
    registry.exactWithinOn (fun _ => true) rounds form = true := by
  induction rounds generalizing form with
  | zero => rfl
  | succ rounds ih =>
    obtain ⟨here, rest⟩ := Bool.and_eq_true_iff.mp exact
    refine Bool.and_eq_true_iff.mpr ⟨expandsExactlyOn_of_expandsExactly here, ?_⟩
    exact Bool.or_eq_true_iff.mpr ((Bool.or_eq_true_iff.mp rest).imp_right ih)

theorem Consistent.ofForm_of_reduced (consistent : registry.Consistent)
    (reduced : registry.Reduced form.unit) :
    ofForm consistent.expand form = form.toExpansion := by
  rw [ofForm, ofUnit_congr fun name member => consistent.expand_of_plain (reduced name member),
    ofUnit_ofName, scaleBy, mul_one, ScaledUnit.toExpansion]

theorem Consistent.canonicalize_exact (consistent : registry.Consistent) {unit : GroundUnit}
    (exact : registry.canonicalizesExactly unit = true)
    (done : registry.canonicalize unit = .ok form) :
    form.toExpansion = ofUnit consistent.expand unit := by
  rw [← consistent.ofForm_of_reduced (reduced_of_canonicalize done)]
  exact consistent.interprets.canonicalize (exactWithinOn_of_exactWithin exact) done

theorem Consistent.exists_canonicalize (consistent : registry.Consistent) {unit : GroundUnit}
    (shallow : registry.ShallowUnit unit) (exact : registry.canonicalizesExactly unit = true) :
    ∃ form, registry.canonicalize unit = .ok form ∧
      form.toExpansion = ofUnit consistent.expand unit := by
  obtain ⟨form, done⟩ := shallow.canonicalize
  exact ⟨form, done, consistent.canonicalize_exact exact done⟩

/-- Expanding round by round is expanding by recursion, wherever the definitions are not too deep
and no exponent stops at the limit. So the canonical form of a product is the product of the
canonical forms, and that of a power the power of the canonical form. -/
theorem canonicalize_expands (reachable : registry.Reachable) :
    let expand := reachable.consistent.expand
    (∀ name, registry.isDerived name = false → expand name = ofName name) ∧
    (∀ name scale base, registry.unit? name = some (.derived scale base) →
      expand name = (ofUnit expand base).scaleBy scale) ∧
    (∀ unit, registry.ShallowUnit unit → registry.canonicalizesExactly unit = true →
      ∃ form, registry.canonicalize unit = .ok form ∧ form.toExpansion = ofUnit expand unit) ∧
    (∀ left right, registry.ShallowUnit left → registry.ShallowUnit right →
      registry.canonicalizesExactly left = true → registry.canonicalizesExactly right = true →
      (left.checkedMultiply right).isSome = true →
      registry.canonicalizesExactly (left.multiply right) = true →
      ∃ first second, registry.canonicalize left = .ok first ∧
        registry.canonicalize right = .ok second ∧
        registry.canonicalize (left.multiply right) = .ok (first.multiply second)) ∧
    ∀ unit number, registry.ShallowUnit unit → registry.canonicalizesExactly unit = true →
      (unit.checkedRaise number).isSome = true →
      registry.canonicalizesExactly (unit.raise number) = true →
      ∃ form, registry.canonicalize unit = .ok form ∧
        registry.canonicalize (unit.raise number) = .ok (form.raise number) := by
  have consistent := reachable.consistent
  refine ⟨fun name => consistent.expand_of_plain,
    fun name scale base => consistent.expand_of_derived, fun unit => consistent.exists_canonicalize,
    ?_, ?_⟩
  · intro left right leftShallow rightShallow leftExact rightExact within exact
    obtain ⟨first, firstDone, firstValue⟩ := consistent.exists_canonicalize leftShallow leftExact
    obtain ⟨second, secondDone, secondValue⟩ :=
      consistent.exists_canonicalize rightShallow rightExact
    have shallow : registry.ShallowUnit (left.multiply right) := fun name member =>
      (PowerProduct.mem_keys_multiply member).elim (leftShallow name) (rightShallow name)
    obtain ⟨whole, done, value⟩ := consistent.exists_canonicalize shallow exact
    rw [ofUnit_multiply consistent.expand_scale_ne_zero
      (PowerProduct.within_of_checkedMultiply within), ← firstValue, ← secondValue] at value
    refine ⟨first, second, firstDone, secondDone, ?_⟩
    rw [done, ScaledUnit.eq_multiply value]
  · intro unit number unitShallow unitExact within exact
    obtain ⟨form, formDone, formValue⟩ := consistent.exists_canonicalize unitShallow unitExact
    have shallow : registry.ShallowUnit (unit.raise number) := fun name member =>
      unitShallow name (PowerProduct.mem_keys_raise member)
    obtain ⟨whole, done, value⟩ := consistent.exists_canonicalize shallow exact
    rw [ofUnit_raise consistent.expand_scale_ne_zero (PowerProduct.within_of_checkedRaise within),
      ← formValue] at value
    refine ⟨form, formDone, ?_⟩
    rw [done, ScaledUnit.eq_raise value]

/-- Kilometres per hour, and their inverse square. -/
theorem canonicalize_expands_speed :
    let speed : GroundUnit := (PowerProduct.ofKey "km").add "h" (-1)
    let expand := Reachable.builtin.consistent.expand
    (builtin.canonicalize speed).toOption =
        some ⟨Rat.divInt 5 18, (PowerProduct.ofKey "m").add "s" (-1)⟩ ∧
      ∃ form, builtin.canonicalize speed = .ok form ∧ form.toExpansion = ofUnit expand speed ∧
        builtin.canonicalize (speed.raise (-2)) = .ok (form.raise (-2)) := by
  have shallow : ∀ name ∈ ((PowerProduct.ofKey "km").add "h" (-1)).keys,
      builtin.depthWithin 63 name = true := by decide +kernel
  have exact : builtin.canonicalizesExactly ((PowerProduct.ofKey "km").add "h" (-1)) = true := by
    decide +kernel
  have theory := canonicalize_expands Reachable.builtin
  obtain ⟨form, done, value⟩ := theory.2.2.1 _ shallow exact
  obtain ⟨same, sameDone, power⟩ :=
    theory.2.2.2.2 _ (-2) shallow exact (by decide +kernel) (by decide +kernel)
  cases sameDone.symm.trans done
  exact ⟨by decide +kernel, form, done, value, power⟩

end Registry

end SheetTypes
