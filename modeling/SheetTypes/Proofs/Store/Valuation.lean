import SheetTypes.Proofs.Store.Links
import SheetTypes.Proofs.UnitValue

/-!
Valuations: values for the variables of a store. A valuation satisfies a store if every linked
variable has the value of its target. In a well formed store, values for the unbound variables
extend to a satisfying valuation in exactly one way; with every unbound variable for itself, that
is the meaning of types in the store. Where units are left out of account, the meaning of a type
is its shape.
-/

set_option autoImplicit false

namespace SheetTypes

structure Valuation (ν G : Type) where
  types : TypeVar → TypeTerm ν G
  units : UnitVar → G

namespace Valuation

variable {ν μ G : Type} [UnitGroup G]

noncomputable def unit (valuation : Valuation ν G) (unit : InferredUnit) : G :=
  unit.value valuation.units

noncomputable def type (valuation : Valuation ν G) (type : InferredType) : TypeTerm ν G :=
  type.substitute valuation.types valuation.unit

/-- Whether every linked variable has the value of its target. -/
structure Satisfies (valuation : Valuation ν G) (store : Store) : Prop where
  types : ∀ var target, store.typeLink? var = some target →
    valuation.types var = valuation.type target
  units : ∀ var target, store.unitLink? var = some target →
    valuation.units var = valuation.unit target

theorem satisfies_of_links {valuation : Valuation ν G} {before after : Store}
    (typeLinks : after.typeLink? = before.typeLink?)
    (unitLinks : after.unitLink? = before.unitLink?) :
    valuation.Satisfies after ↔ valuation.Satisfies before := by
  constructor
  · rintro ⟨types, units⟩
    rw [typeLinks] at types
    rw [unitLinks] at units
    exact ⟨types, units⟩
  · rintro ⟨types, units⟩
    rw [← typeLinks] at types
    rw [← unitLinks] at units
    exact ⟨types, units⟩

omit [UnitGroup G] in
theorem ext_values {first second : Valuation ν G}
    (types : ∀ var, first.types var = second.types var)
    (units : ∀ var, first.units var = second.units var) : first = second := by
  cases first
  cases second
  congr 1
  · exact funext types
  · exact funext units

@[simp]
theorem type_var (valuation : Valuation ν G) (var : TypeVar) :
    valuation.type (.var var) = valuation.types var := rfl

@[simp]
theorem unit_ofVar (valuation : Valuation ν G) (var : UnitVar) :
    valuation.unit (.ofVar var) = valuation.units var :=
  UnitTerm.value_ofVar valuation.units var

theorem unit_congr {first second : Valuation ν G} (unit : InferredUnit)
    (same : ∀ var ∈ unit.vars.keys, first.units var = second.units var) :
    first.unit unit = second.unit unit :=
  UnitTerm.value_congr unit same

theorem type_congr {first second : Valuation ν G} (type : InferredType)
    (sameTypes : ∀ var, type.HasVar var → first.types var = second.types var)
    (sameUnits : ∀ unit, type.HasUnit unit → ∀ var ∈ unit.vars.keys,
      first.units var = second.units var) :
    first.type type = second.type type :=
  TypeTerm.substitute_congr type sameTypes fun unit has => unit_congr unit (sameUnits unit has)

end Valuation

namespace Store

variable {ν μ G : Type} [UnitGroup G]

/-- The value of a unit variable after at most the given number of links. -/
noncomputable def unitMeaning (store : Store) (base : UnitVar → G) : Nat → UnitVar → G
  | 0, var => base var
  | links + 1, var =>
    match store.unitLink? var with
    | none => base var
    | some target => target.value (store.unitMeaning base links)

def typeMeaning (store : Store) (base : TypeVar → TypeTerm ν G) (onUnit : InferredUnit → G) :
    Nat → TypeVar → TypeTerm ν G
  | 0, var => base var
  | links + 1, var =>
    match store.typeLink? var with
    | none => base var
    | some target => target.substitute (store.typeMeaning base onUnit links) onUnit

/-- The values of all variables, from those of the unbound ones. -/
noncomputable def extend (store : Store) (base : Valuation ν G) : Valuation ν G where
  types := store.typeMeaning base.types
    (fun unit => unit.value (store.unitMeaning base.units store.units.size)) store.types.size
  units := store.unitMeaning base.units store.units.size

variable {store : Store} {rank : UnitVar → Nat} {type : InferredType} {var : TypeVar}

theorem unitMeaning_unbound (base : UnitVar → G) (links : Nat) {var : UnitVar}
    (free : store.unitLink? var = none) : store.unitMeaning base links var = base var := by
  cases links with
  | zero => rfl
  | succ links => simp only [unitMeaning, free]

omit [UnitGroup G] in
theorem typeMeaning_unbound (base : TypeVar → TypeTerm ν G) (onUnit : InferredUnit → G)
    (links : Nat) (free : store.typeLink? var = none) :
    store.typeMeaning base onUnit links var = base var := by
  cases links with
  | zero => rfl
  | succ links => simp only [typeMeaning, free]

theorem unitLink?_of_rank_zero (ranking : store.UnitRanking rank) {var : UnitVar}
    (zero : rank var = 0) : store.unitLink? var = none := by
  cases linked : store.unitLink? var with
  | none => rfl
  | some target =>
    have positive := ranking.positive var (isUnitBound_iff.mpr ⟨target, linked⟩)
    omega

theorem typeLink?_of_rank_zero {rank : TypeVar → Nat} (ranking : store.TypeRanking rank)
    (zero : rank var = 0) : store.typeLink? var = none := by
  cases linked : store.typeLink? var with
  | none => rfl
  | some target =>
    have positive := ranking.positive var (isTypeBound_iff.mpr ⟨target, linked⟩)
    omega

private theorem unitMeaning_stable (ranking : store.UnitRanking rank) (base : UnitVar → G)
    (links more : Nat) (var : UnitVar) (enough : rank var ≤ links) (moreEnough : rank var ≤ more) :
    store.unitMeaning base links var = store.unitMeaning base more var := by
  induction links generalizing more var with
  | zero =>
    have free := unitLink?_of_rank_zero ranking (Nat.le_zero.mp enough)
    rw [unitMeaning_unbound base more free, unitMeaning_unbound base 0 free]
  | succ links ih =>
    cases more with
    | zero =>
      have free := unitLink?_of_rank_zero ranking (Nat.le_zero.mp moreEnough)
      rw [unitMeaning_unbound base _ free, unitMeaning_unbound base _ free]
    | succ more =>
      cases linked : store.unitLink? var with
      | none => rw [unitMeaning_unbound base _ linked, unitMeaning_unbound base _ linked]
      | some target =>
        simp only [unitMeaning, linked]
        refine UnitTerm.value_congr target fun next member => ?_
        have less := ranking.below var next ⟨target, linked, member⟩
        exact ih more next (by omega) (by omega)

omit [UnitGroup G] in
private theorem typeMeaning_stable {rank : TypeVar → Nat} (ranking : store.TypeRanking rank)
    (base : TypeVar → TypeTerm ν G) (onUnit : InferredUnit → G) (links more : Nat)
    (var : TypeVar) (enough : rank var ≤ links) (moreEnough : rank var ≤ more) :
    store.typeMeaning base onUnit links var = store.typeMeaning base onUnit more var := by
  induction links generalizing more var with
  | zero =>
    have free := typeLink?_of_rank_zero ranking (Nat.le_zero.mp enough)
    rw [typeMeaning_unbound base onUnit more free, typeMeaning_unbound base onUnit 0 free]
  | succ links ih =>
    cases more with
    | zero =>
      have free := typeLink?_of_rank_zero ranking (Nat.le_zero.mp moreEnough)
      rw [typeMeaning_unbound base onUnit _ free, typeMeaning_unbound base onUnit _ free]
    | succ more =>
      cases linked : store.typeLink? var with
      | none =>
        rw [typeMeaning_unbound base onUnit _ linked,
          typeMeaning_unbound base onUnit _ linked]
      | some target =>
        simp only [typeMeaning, linked]
        refine TypeTerm.substitute_congr target (fun next member => ?_) fun _ _ => rfl
        have less := ranking.below var next ⟨target, linked, member⟩
        exact ih more next (by omega) (by omega)

theorem extend_units_unbound (base : Valuation ν G) {var : UnitVar}
    (free : store.unitLink? var = none) : (store.extend base).units var = base.units var :=
  unitMeaning_unbound base.units _ free

theorem extend_types_unbound (base : Valuation ν G) (free : store.typeLink? var = none) :
    (store.extend base).types var = base.types var :=
  typeMeaning_unbound base.types _ _ free

theorem Wellformed.extend_satisfies (wellformed : store.Wellformed) (base : Valuation ν G) :
    (store.extend base).Satisfies store := by
  constructor
  · intro var target linked
    obtain ⟨rank, ranking, small⟩ := wellformed.exists_typeRanking
    change store.typeMeaning base.types _ store.types.size var = _
    rw [typeMeaning_stable ranking base.types _ _ (store.types.size + 1) var (small var)
      (Nat.le_succ_of_le (small var))]
    simp only [typeMeaning, linked]
    rfl
  · intro var target linked
    obtain ⟨rank, ranking, small⟩ := wellformed.exists_unitRanking
    change store.unitMeaning base.units store.units.size var = _
    rw [unitMeaning_stable ranking base.units _ (store.units.size + 1) var (small var)
      (Nat.le_succ_of_le (small var))]
    simp only [unitMeaning, linked]
    rfl

/-- A satisfying valuation is determined by its values for the unbound variables. -/
theorem Wellformed.satisfies_unique (wellformed : store.Wellformed) {first second : Valuation ν G}
    (firstSatisfies : first.Satisfies store) (secondSatisfies : second.Satisfies store)
    (sameTypes : ∀ var, store.typeLink? var = none → first.types var = second.types var)
    (sameUnits : ∀ var, store.unitLink? var = none → first.units var = second.units var) :
    first = second := by
  obtain ⟨unitRank, unitRanking⟩ := wellformed.unitsRanked
  obtain ⟨typeRank, typeRanking⟩ := wellformed.typesRanked
  have units (var : UnitVar) : first.units var = second.units var := by
    induction var using unitRanking.induction with
    | step var ih =>
      cases linked : store.unitLink? var with
      | none => exact sameUnits var linked
      | some target =>
        rw [firstSatisfies.units var target linked, secondSatisfies.units var target linked]
        exact Valuation.unit_congr target fun next member => ih next ⟨target, linked, member⟩
  refine Valuation.ext_values (fun var => ?_) units
  induction var using typeRanking.induction with
  | step var ih =>
    cases linked : store.typeLink? var with
    | none => exact sameTypes var linked
    | some target =>
      rw [firstSatisfies.types var target linked, secondSatisfies.types var target linked]
      exact Valuation.type_congr target (fun next member => ih next ⟨target, linked, member⟩)
        fun _ _ next _ => units next

/-- A type with its linked variables replaced all the way down and its units left out. -/
noncomputable def shape (store : Store) (type : InferredType) : TypeTerm TypeVar Unit :=
  (store.extend ⟨.var, fun _ => ()⟩).type type

theorem shape_unbound (free : store.typeLink? var = none) : store.shape (.var var) = .var var :=
  extend_types_unbound ⟨.var, fun _ => ()⟩ free

theorem shape_eq_substitute (type : InferredType) :
    store.shape type = type.substitute (fun var => store.shape (.var var)) fun _ => () := rfl

theorem Wellformed.shape_link (wellformed : store.Wellformed) {target : InferredType}
    (linked : store.typeLink? var = some target) : store.shape (.var var) = store.shape target :=
  (wellformed.extend_satisfies ⟨.var, fun _ => ()⟩).types var target linked

theorem hasVar_shape :
    (store.shape type).HasVar var ↔
      ∃ inner, type.HasVar inner ∧ (store.shape (.var inner)).HasVar var := by
  rw [shape_eq_substitute]
  exact TypeTerm.hasVar_substitute

/-- Only unbound variables are left in a shape. -/
theorem Wellformed.unbound_of_hasVar_shape (wellformed : store.Wellformed)
    (has : (store.shape type).HasVar var) : store.typeLink? var = none := by
  obtain ⟨rank, ranking⟩ := wellformed.typesRanked
  have inside (outer : TypeVar) (has : (store.shape (.var outer)).HasVar var) :
      store.typeLink? var = none := by
    induction outer using ranking.induction with
    | step outer ih =>
      cases linked : store.typeLink? outer with
      | none =>
        rw [shape_unbound linked] at has
        simp only [TypeTerm.HasVar, TypeTerm.leaves, List.mem_singleton, Sum.inl.injEq] at has
        rw [has]
        exact linked
      | some target =>
        rw [wellformed.shape_link linked] at has
        obtain ⟨next, member, deeper⟩ := hasVar_shape.mp has
        exact ih next ⟨target, linked, member⟩ deeper
  obtain ⟨outer, _, deeper⟩ := hasVar_shape.mp has
  exact inside outer deeper

/-- An unbound variable that links lead to stands in the shape. -/
theorem Wellformed.hasVar_shape_of_path (wellformed : store.Wellformed) {first last : TypeVar}
    (path : Relation.ReflTransGen store.TypeEdge first last)
    (free : store.typeLink? last = none) : (store.shape (.var first)).HasVar last := by
  induction path using Relation.ReflTransGen.head_induction_on with
  | refl =>
    rw [shape_unbound free]
    simp [TypeTerm.HasVar, TypeTerm.leaves]
  | head step _ ih =>
    obtain ⟨target, linked, member⟩ := step
    rw [wellformed.shape_link linked]
    exact hasVar_shape.mpr ⟨_, member, ih⟩

/-- A satisfying valuation without units puts its values into the shapes. -/
theorem Wellformed.type_eq_substitute_shape (wellformed : store.Wellformed)
    {valuation : Valuation ν Unit} (satisfies : valuation.Satisfies store)
    (type : InferredType) :
    valuation.type type = (store.shape type).substitute valuation.types id := by
  let composed : Valuation ν Unit :=
    ⟨fun var => (store.shape (.var var)).substitute valuation.types id, fun _ => ()⟩
  have composedType (type : InferredType) :
      composed.type type = (store.shape type).substitute valuation.types id := by
    rw [shape_eq_substitute, TypeTerm.substitute_substitute]
    rfl
  have same : valuation = composed := by
    refine wellformed.satisfies_unique satisfies ⟨?_, fun _ _ _ => rfl⟩ ?_ fun _ _ => rfl
    · intro var target linked
      rw [composedType, ← wellformed.shape_link linked]
    · intro var free
      change _ = (store.shape (.var var)).substitute valuation.types id
      rw [shape_unbound free, TypeTerm.substitute_var]
  rw [same, composedType, ← same]

/-- The shapes are the values of the one satisfying valuation without units that leaves unbound
variables as they are. -/
theorem Wellformed.type_eq_shape (wellformed : store.Wellformed)
    {valuation : Valuation TypeVar Unit} (satisfies : valuation.Satisfies store)
    (unbound : ∀ var, store.typeLink? var = none → valuation.types var = .var var)
    (type : InferredType) : valuation.type type = store.shape type := by
  have same : valuation = store.extend ⟨.var, fun _ => ()⟩ := by
    refine wellformed.satisfies_unique satisfies (wellformed.extend_satisfies _) ?_ fun _ _ => rfl
    intro var free
    rw [unbound var free, extend_types_unbound _ free]
  rw [same]
  rfl

noncomputable def meaning (store : Store) : Valuation TypeVar FreeUnit :=
  store.extend ⟨.var, fun var => (0, Finsupp.single var 1)⟩

theorem Wellformed.meaning_satisfies (wellformed : store.Wellformed) :
    store.meaning.Satisfies store :=
  wellformed.extend_satisfies _

theorem meaning_unit {unit : InferredUnit}
    (free : ∀ var ∈ unit.vars.keys, store.unitLink? var = none) :
    store.meaning.unit unit = InferredUnit.free unit :=
  UnitTerm.value_congr unit fun var member => extend_units_unbound _ (free var member)

end Store

end SheetTypes
