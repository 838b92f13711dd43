import Mathlib.Data.Finset.Card
import Mathlib.Logic.Relation
import SheetTypes.Proofs.Exponents
import SheetTypes.Proofs.Substitution
import SheetTypes.Store

/-!
The graph of links in a store. A store is well formed if its links mention only variables that
exist and never run in circles. The second is stated by a rank that every link lowers; ranks can
be kept as small as the number of variables, which is why walks along the links may be bounded by
that number.
-/

set_option autoImplicit false

namespace SheetTypes

/-- A rank that is lowered along every edge, and is zero exactly for what is not bound. -/
structure Ranking {α : Type} (bound : α → Prop) (edge : α → α → Prop) (rank : α → Nat) :
    Prop where
  unbound : ∀ var, ¬bound var → rank var = 0
  positive : ∀ var, bound var → 0 < rank var
  below : ∀ var next, edge var next → rank next < rank var

namespace Ranking

variable {α : Type} {bound : α → Prop} {edge : α → α → Prop} {rank : α → Nat}

theorem acyclic (ranking : Ranking bound edge rank) (var : α) :
    ¬Relation.TransGen edge var var := by
  have lower {first last : α} (path : Relation.TransGen edge first last) :
      rank last < rank first := by
    induction path with
    | single step => exact ranking.below _ _ step
    | tail _ step ih => exact Nat.lt_trans (ranking.below _ _ step) ih
  intro circle
  exact Nat.lt_irrefl _ (lower circle)

theorem induction (ranking : Ranking bound edge rank) {motive : α → Prop}
    (step : ∀ var, (∀ next, edge var next → motive next) → motive var) (var : α) : motive var := by
  generalize count : rank var = height
  induction height using Nat.strong_induction_on generalizing var with
  | _ height ih =>
    refine step var fun next edge => ih (rank next) ?_ next rfl
    rw [← count]
    exact ranking.below var next edge

/-- A rank can be replaced by the number of variables of lower rank. -/
theorem exists_bounded (ranking : Ranking bound edge rank) (index : α → Nat)
    (injective : ∀ left right, index left = index right → left = right) (count : Nat)
    (boundWithin : ∀ var, bound var → index var < count) :
    ∃ small : α → Nat, Ranking bound edge small ∧ ∀ var, small var ≤ count := by
  classical
  let lower (var : α) : Finset Nat :=
    (Finset.range count).filter fun position =>
      ∃ other, index other = position ∧ bound other ∧ rank other < rank var
  have ownMissing (var : α) : index var ∉ lower var := by
    intro member
    obtain ⟨_, other, same, _, less⟩ := Finset.mem_filter.mp member
    rw [injective other var same] at less
    exact Nat.lt_irrefl _ less
  have member {var other : α} (isBound : bound other) (less : rank other < rank var) :
      index other ∈ lower var :=
    Finset.mem_filter.mpr
      ⟨Finset.mem_range.mpr (boundWithin other isBound), other, rfl, isBound, less⟩
  refine ⟨fun var => if bound var then (lower var).card + 1 else 0, ⟨?_, ?_, ?_⟩, ?_⟩
  · intro var isUnbound
    exact if_neg isUnbound
  · intro var isBound
    simp only [isBound, if_true]
    omega
  · intro var next step
    have less := ranking.below var next step
    have isBound : bound var := by
      by_contra isUnbound
      have zero := ranking.unbound var isUnbound
      omega
    simp only [isBound, if_true]
    by_cases nextBound : bound next
    · simp only [nextBound, if_true]
      have subset : lower next ⊂ lower var := by
        rw [Finset.ssubset_iff_of_subset]
        · exact ⟨index next, member nextBound less, ownMissing next⟩
        · intro position inside
          obtain ⟨within, other, same, otherBound, lessNext⟩ := Finset.mem_filter.mp inside
          exact Finset.mem_filter.mpr
            ⟨within, other, same, otherBound, Nat.lt_trans lessNext less⟩
      have smaller := Finset.card_lt_card subset
      omega
    · simp only [nextBound, if_false]
      omega
  · intro var
    by_cases isBound : bound var
    · simp only [isBound, if_true]
      have proper : lower var ⊂ Finset.range count := by
        rw [Finset.ssubset_iff_of_subset (Finset.filter_subset _ _)]
        exact ⟨index var, Finset.mem_range.mpr (boundWithin var isBound), ownMissing var⟩
      have smaller := Finset.card_lt_card proper
      rw [Finset.card_range] at smaller
      omega
    · simp only [isBound, if_false]
      omega

/-- Binding a variable that its targets do not lead back to keeps a graph ranked: everything that
leads to the variable moves above all that is there. -/
theorem exists_bind (ranking : Ranking bound edge rank) {count : Nat}
    (small : ∀ var, rank var ≤ count) (fresh : α) (targets : α → Prop)
    (isUnbound : ¬bound fresh)
    (clear : ∀ next, targets next → ¬Relation.ReflTransGen edge next fresh) :
    ∃ raised : α → Nat, Ranking (fun var => bound var ∨ var = fresh)
      (fun var next => edge var next ∨ var = fresh ∧ targets next) raised := by
  classical
  have freshZero := ranking.unbound fresh isUnbound
  refine ⟨fun var => if Relation.ReflTransGen edge var fresh then rank var + count + 1
    else rank var, ⟨?_, ?_, ?_⟩⟩
  · intro var free
    rw [not_or] at free
    have zero := ranking.unbound var free.1
    rw [if_neg, zero]
    intro path
    rcases Relation.ReflTransGen.cases_head path with same | ⟨next, step, _⟩
    · exact free.2 same
    · have less := ranking.below var next step
      omega
  · rintro var (isBound | same)
    · have positive := ranking.positive var isBound
      show 0 < ite _ _ _
      split <;> omega
    · rw [same, if_pos Relation.ReflTransGen.refl]
      omega
  · rintro var next (step | ⟨same, target⟩)
    · have less := ranking.below var next step
      have leads : Relation.ReflTransGen edge next fresh → Relation.ReflTransGen edge var fresh :=
        fun path => Relation.ReflTransGen.head step path
      show ite _ _ _ < ite _ _ _
      split
      next path =>
        rw [if_pos (leads path)]
        omega
      next =>
        split <;> omega
    · rw [same, if_neg (clear next target), if_pos Relation.ReflTransGen.refl]
      have within := small next
      omega

/-- A rank also ranks a graph with the same bound variables whose edges it lowers. -/
theorem transfer (ranking : Ranking bound edge rank) {bound' : α → Prop} {edge' : α → α → Prop}
    (same : ∀ var, bound' var ↔ bound var)
    (below : ∀ var next, edge' var next → rank next < rank var) : Ranking bound' edge' rank where
  unbound var free := ranking.unbound var fun isBound => free ((same var).mpr isBound)
  positive var isBound := ranking.positive var ((same var).mp isBound)
  below := below

end Ranking

namespace Store

variable {store : Store} {var other : TypeVar} {unitVar otherUnit : UnitVar} {cell : TypeCell}
  {requirements : Requirements} {target type : InferredType}

theorem isTypeBound_iff :
    store.isTypeBound var = true ↔ ∃ target, store.typeLink? var = some target :=
  Option.isSome_iff_exists

theorem isUnitBound_iff :
    store.isUnitBound unitVar = true ↔ ∃ target, store.unitLink? unitVar = some target :=
  Option.isSome_iff_exists

theorem typeLink?_eq_some :
    store.typeLink? var = some target ↔ store.types[var.index]? = some (.link target) := by
  unfold typeLink?
  split
  next found => simp [found]
  next other =>
    constructor
    · intro impossible
      cases impossible
    · intro found
      exact absurd found (other target)

theorem unitLink?_eq_some {target : InferredUnit} :
    store.unitLink? unitVar = some target ↔ store.units[unitVar.index]? = some (.link target) := by
  unfold unitLink?
  split
  next found => simp [found]
  next other =>
    constructor
    · intro impossible
      cases impossible
    · intro found
      exact absurd found (other target)

theorem requirements?_eq_some :
    store.requirements? var = some requirements ↔
      store.types[var.index]? = some (.unbound requirements) := by
  unfold requirements?
  split
  next found => simp [found]
  next other =>
    constructor
    · intro impossible
      cases impossible
    · intro found
      exact absurd found (other requirements)

theorem index_lt_of_typeLink (linked : store.typeLink? var = some target) :
    var.index < store.types.size := by
  obtain ⟨within, _⟩ := Array.getElem?_eq_some_iff.mp (typeLink?_eq_some.mp linked)
  exact within

theorem index_lt_of_unitLink {target : InferredUnit}
    (linked : store.unitLink? unitVar = some target) : unitVar.index < store.units.size := by
  obtain ⟨within, _⟩ := Array.getElem?_eq_some_iff.mp (unitLink?_eq_some.mp linked)
  exact within

theorem unitLink?_of_le (outside : store.units.size ≤ unitVar.index) :
    store.unitLink? unitVar = none := by
  unfold unitLink?
  rw [Array.getElem?_eq_none outside]

theorem index_lt_of_requirements (found : store.requirements? var = some requirements) :
    var.index < store.types.size := by
  obtain ⟨within, _⟩ := Array.getElem?_eq_some_iff.mp (requirements?_eq_some.mp found)
  exact within

theorem typeLink?_of_requirements (found : store.requirements? var = some requirements) :
    store.typeLink? var = none := by
  unfold typeLink?
  rw [requirements?_eq_some.mp found]

theorem exists_requirements (within : var.index < store.types.size)
    (free : store.typeLink? var = none) :
    ∃ requirements, store.requirements? var = some requirements := by
  have present : store.types[var.index]? = some store.types[var.index] :=
    Array.getElem?_eq_some_iff.mpr ⟨within, rfl⟩
  cases cell : store.types[var.index] with
  | unbound requirements =>
    rw [cell] at present
    exact ⟨requirements, requirements?_eq_some.mpr present⟩
  | link target =>
    rw [cell] at present
    rw [typeLink?_eq_some.mpr present] at free
    cases free

private theorem index_ne {left right : TypeVar} (different : left ≠ right) :
    left.index ≠ right.index := by
  intro same
  cases left
  cases right
  cases same
  exact different rfl

private theorem unitIndex_ne {left right : UnitVar} (different : left ≠ right) :
    left.index ≠ right.index := by
  intro same
  cases left
  cases right
  cases same
  exact different rfl

theorem typeLink?_setType_self (within : var.index < store.types.size) :
    (store.setType var (.link target)).typeLink? var = some target := by
  rw [typeLink?_eq_some]
  simp [setType, within]

theorem typeLink?_setType_of_ne (different : other ≠ var) :
    (store.setType var cell).typeLink? other = store.typeLink? other := by
  unfold typeLink? setType
  rw [Array.getElem?_setIfInBounds_ne (index_ne different).symm]

theorem typeLink?_setType_unbound (free : store.typeLink? var = none) :
    (store.setType var (.unbound requirements)).typeLink? other = store.typeLink? other := by
  by_cases same : other = var
  · subst same
    rw [free]
    unfold typeLink? setType
    by_cases within : other.index < store.types.size
    · simp [within]
    · simp [within]
  · exact typeLink?_setType_of_ne same

theorem requirements?_setType_self (within : var.index < store.types.size) :
    (store.setType var (.unbound requirements)).requirements? var = some requirements := by
  rw [requirements?_eq_some]
  simp [setType, within]

theorem requirements?_setType_of_ne (different : other ≠ var) :
    (store.setType var cell).requirements? other = store.requirements? other := by
  unfold requirements? setType
  rw [Array.getElem?_setIfInBounds_ne (index_ne different).symm]

theorem requirements?_setType_link (linked : store.isTypeBound var = true) :
    (store.setType var (.link target)).requirements? other = store.requirements? other := by
  by_cases same : other = var
  · subst same
    obtain ⟨before, found⟩ := isTypeBound_iff.mp linked
    have within := index_lt_of_typeLink found
    unfold requirements?
    rw [typeLink?_eq_some.mp found]
    simp [setType, within]
  · exact requirements?_setType_of_ne same

theorem unitLink?_setUnit_self {target : InferredUnit} (within : unitVar.index < store.units.size) :
    (store.setUnit unitVar (.link target)).unitLink? unitVar = some target := by
  rw [unitLink?_eq_some]
  simp [setUnit, within]

theorem unitLink?_setUnit_of_ne {cell : UnitCell} (different : otherUnit ≠ unitVar) :
    (store.setUnit unitVar cell).unitLink? otherUnit = store.unitLink? otherUnit := by
  unfold unitLink? setUnit
  rw [Array.getElem?_setIfInBounds_ne (unitIndex_ne different).symm]

@[simp]
theorem types_size_setType : (store.setType var cell).types.size = store.types.size := by
  simp [setType]

@[simp]
theorem units_size_setUnit {cell : UnitCell} :
    (store.setUnit unitVar cell).units.size = store.units.size := by
  simp [setUnit]

def CoversUnit (store : Store) (unit : InferredUnit) : Prop :=
  ∀ var ∈ unit.vars.keys, var.index < store.units.size

/-- Whether the variables of a type, and those of its units, are in the store. -/
def Covers (store : Store) (type : InferredType) : Prop :=
  (∀ var, type.HasVar var → var.index < store.types.size) ∧
    ∀ unit, type.HasUnit unit → store.CoversUnit unit

theorem covers_var : store.Covers (.var var) ↔ var.index < store.types.size := by
  unfold Covers
  simp [TypeTerm.HasVar, TypeTerm.HasUnit, TypeTerm.leaves]

theorem Covers.child {child : InferredType} (covered : store.Covers type)
    (member : child ∈ type.children) : store.Covers child :=
  ⟨fun var has => covered.1 var (TypeTerm.mem_leaves_of_child member has),
    fun unit has => covered.2 unit (TypeTerm.mem_leaves_of_child member has)⟩

def CoversLeaf (store : Store) : TypeVar ⊕ InferredUnit → Prop
  | .inl var => var.index < store.types.size
  | .inr unit => store.CoversUnit unit

theorem covers_iff_leaves : store.Covers type ↔ ∀ leaf ∈ type.leaves, store.CoversLeaf leaf := by
  constructor
  · rintro ⟨vars, units⟩ leaf member
    cases leaf with
    | inl var => exact vars var member
    | inr unit => exact units unit member
  · intro leaves
    exact ⟨fun var member => leaves (.inl var) member, fun unit member => leaves (.inr unit) member⟩

theorem covers_function {params : List InferredType} {result : InferredType} :
    store.Covers (.function params result) ↔
      (∀ param ∈ params, store.Covers param) ∧ store.Covers result := by
  simp only [covers_iff_leaves, TypeTerm.leaves, List.mem_append, TypeTerm.mem_itemsLeaves]
  grind

theorem covers_record {fields : List (String × InferredType)} :
    store.Covers (.record fields) ↔ ∀ field ∈ fields, store.Covers field.2 := by
  simp only [covers_iff_leaves, TypeTerm.leaves, TypeTerm.mem_fieldsLeaves]
  constructor
  · intro leaves field member leaf inside
    exact leaves leaf ⟨field, member, inside⟩
  · rintro fields leaf ⟨field, member, inside⟩
    exact fields field member leaf inside

instance (store : Store) (unit : InferredUnit) : Decidable (store.CoversUnit unit) :=
  inferInstanceAs (Decidable (∀ var ∈ unit.vars.keys, var.index < store.units.size))

instance (store : Store) : DecidablePred store.CoversLeaf
  | .inl var => inferInstanceAs (Decidable (var.index < store.types.size))
  | .inr unit => inferInstanceAs (Decidable (store.CoversUnit unit))

instance (store : Store) (type : InferredType) : Decidable (store.Covers type) :=
  decidable_of_iff _ covers_iff_leaves.symm

def CoversOperand (store : Store) : Operand InferredType InferredUnit → Prop
  | .type value => store.Covers value
  | .unit value => store.CoversUnit value

theorem covers_tagged {name : String} {operands : List (Operand InferredType InferredUnit)} :
    store.Covers (.tagged name operands) ↔ ∀ operand ∈ operands, store.CoversOperand operand := by
  simp only [covers_iff_leaves, TypeTerm.leaves, TypeTerm.mem_operandsLeaves]
  constructor
  · intro leaves operand member
    cases operand with
    | type value =>
      exact covers_iff_leaves.mpr fun leaf inside => leaves leaf (.inl ⟨value, member, inside⟩)
    | unit value => exact leaves (.inr value) (.inr ⟨value, member, rfl⟩)
  · rintro operands leaf (⟨value, member, inside⟩ | ⟨unit, member, rfl⟩)
    · exact covers_iff_leaves.mp (operands (.type value) member) leaf inside
    · exact operands (.unit unit) member

theorem covers_rebuild {α υ : Type} {type : TypeTerm α υ}
    {made : List (Operand InferredType InferredUnit)}
    (covered : ∀ operand ∈ made, store.CoversOperand operand) :
    store.Covers (type.rebuild made) := by
  have tagged : store.Covers (.tagged "" made) := covers_tagged.mpr covered
  exact covers_iff_leaves.mpr fun leaf inside =>
    covers_iff_leaves.mp tagged leaf (TypeTerm.mem_leaves_rebuild inside)

def TypeEdge (store : Store) (var next : TypeVar) : Prop :=
  ∃ target, store.typeLink? var = some target ∧ target.HasVar next

def UnitEdge (store : Store) (var next : UnitVar) : Prop :=
  ∃ target, store.unitLink? var = some target ∧ next ∈ target.vars.keys

def TypeRanking (store : Store) (rank : TypeVar → Nat) : Prop :=
  Ranking (fun var => store.isTypeBound var = true) store.TypeEdge rank

def UnitRanking (store : Store) (rank : UnitVar → Nat) : Prop :=
  Ranking (fun var => store.isUnitBound var = true) store.UnitEdge rank

/-- Links mention variables of the store only, and do not run in circles. -/
structure Wellformed (store : Store) : Prop where
  typesCovered : ∀ var target, store.typeLink? var = some target → store.Covers target
  unitsCovered : ∀ var target, store.unitLink? var = some target → store.CoversUnit target
  typesRanked : ∃ rank, store.TypeRanking rank
  unitsRanked : ∃ rank, store.UnitRanking rank

theorem Wellformed.exists_typeRanking (wellformed : store.Wellformed) :
    ∃ rank, store.TypeRanking rank ∧ ∀ var, rank var ≤ store.types.size := by
  obtain ⟨rank, ranking⟩ := wellformed.typesRanked
  refine ranking.exists_bounded TypeVar.index ?_ store.types.size ?_
  · intro left right same
    cases left
    cases right
    cases same
    rfl
  · intro var isBound
    obtain ⟨target, linked⟩ := isTypeBound_iff.mp isBound
    exact index_lt_of_typeLink linked

theorem Wellformed.exists_unitRanking (wellformed : store.Wellformed) :
    ∃ rank, store.UnitRanking rank ∧ ∀ var, rank var ≤ store.units.size := by
  obtain ⟨rank, ranking⟩ := wellformed.unitsRanked
  refine ranking.exists_bounded UnitVar.index ?_ store.units.size ?_
  · intro left right same
    cases left
    cases right
    cases same
    rfl
  · intro var isBound
    obtain ⟨target, linked⟩ := isUnitBound_iff.mp isBound
    exact index_lt_of_unitLink linked

/-- A store with the same links and no fewer variables is well formed too. -/
theorem Wellformed.of_links {before after : Store} (wellformed : before.Wellformed)
    (typeLinks : after.typeLink? = before.typeLink?)
    (unitLinks : after.unitLink? = before.unitLink?)
    (typeCount : before.types.size ≤ after.types.size)
    (unitCount : before.units.size ≤ after.units.size) : after.Wellformed := by
  obtain ⟨typesCovered, unitsCovered, typesRanked, unitsRanked⟩ := wellformed
  refine ⟨?_, ?_, ?_, ?_⟩
  · rw [typeLinks]
    intro var target linked
    obtain ⟨vars, units⟩ := typesCovered var target linked
    exact ⟨fun next has => Nat.lt_of_lt_of_le (vars next has) typeCount,
      fun unit has next member => Nat.lt_of_lt_of_le (units unit has next member) unitCount⟩
  · rw [unitLinks]
    intro var target linked next member
    exact Nat.lt_of_lt_of_le (unitsCovered var target linked next member) unitCount
  · unfold TypeRanking TypeEdge isTypeBound
    rw [typeLinks]
    exact typesRanked
  · unfold UnitRanking UnitEdge isUnitBound
    rw [unitLinks]
    exact unitsRanked

theorem empty_wellformed : empty.Wellformed := by
  have noTypes (var : TypeVar) : empty.typeLink? var = none := rfl
  have noUnits (var : UnitVar) : empty.unitLink? var = none := rfl
  refine ⟨?_, ?_, ⟨fun _ => 0, ?_, ?_, ?_⟩, ⟨fun _ => 0, ?_, ?_, ?_⟩⟩
  · intro var target linked
    rw [noTypes] at linked
    cases linked
  · intro var target linked
    rw [noUnits] at linked
    cases linked
  · intro _ _
    rfl
  · intro var isBound
    cases isBound
  · rintro var next ⟨target, linked, _⟩
    cases linked
  · intro _ _
    rfl
  · intro var isBound
    cases isBound
  · rintro var next ⟨target, linked, _⟩
    cases linked

end Store

end SheetTypes
