import SheetTypes.Proofs.Capabilities
import SheetTypes.Proofs.Store.Shortening

/-!
How a store changes. Links are shortened; requirements are added to unbound variables; variables
are created; and unbound variables are linked. A type variable is only linked to a type that it
does not occur in and that has taken over its requirements. Each of these steps keeps a store well
formed and bound variables bound, loses no requirement, and satisfies all that was satisfied.
-/

set_option autoImplicit false

namespace SheetTypes.Store

/-- Whether a requirement has been passed on to all that a type stands for: there is no function
in it, and each unbound variable in it has the requirement. -/
def Carries (store : Store) (capability origin : String) (type : InferredType) : Prop :=
  (store.shape type).hasFunction = false ∧
    ∀ var, (store.shape type).HasVar var → ∃ requirements,
      store.requirements? var = some requirements ∧ origin ∈ requirements.originsOf capability

def withType (store : Store) (requirements : Requirements) : Store :=
  ⟨store.types.push (.unbound requirements), store.units, store.exact⟩

def withUnit (store : Store) : Store := ⟨store.types, store.units.push .unbound, store.exact⟩

inductive Adjustment : Store → Store → Prop where
  | shorten {before after : Store} (shortening : Shortening before after) :
      Adjustment before after
  | require {store : Store} {var : TypeVar} {requirements : Requirements}
      (found : store.requirements? var = some requirements) (extra : Requirements) :
      Adjustment store (store.setType var (.unbound (requirements.union extra)))

/-- A change that solving equations makes. Types that variables are linked to are no deeper than
the given bound. -/
inductive Solving (depth : Nat) : Store → Store → Prop where
  | adjust {before after : Store} (adjustment : Adjustment before after) :
      Solving depth before after
  | freshUnit (store : Store) : Solving depth store store.withUnit
  | bindUnit {store : Store} {var : UnitVar} {target : InferredUnit}
      (within : var.index < store.units.size) (free : store.unitLink? var = none)
      (covered : store.CoversUnit target)
      (unbound : ∀ next ∈ target.vars.keys, store.unitLink? next = none)
      (absent : var ∉ target.vars.keys) :
      Solving depth store (store.setUnit var (.link target))
  | bindType {store : Store} {var : TypeVar} {requirements : Requirements} {target : InferredType}
      (found : store.requirements? var = some requirements) (covered : store.Covers target)
      (absent : ¬(store.shape target).HasVar var)
      (meets : ∀ capability origin, origin ∈ requirements.originsOf capability →
        store.Carries capability origin target)
      (shallow : target.depth ≤ depth) :
      Solving depth store (store.setType var (.link target))

inductive Step : Store → Store → Prop where
  | solve {before after : Store} {depth : Nat} (solving : Solving depth before after) :
      Step before after
  | freshType (store : Store) (requirements : Requirements) :
      Step store (store.withType requirements)

/-- What every change keeps. -/
structure Extends (before after : Store) : Prop where
  typeCount : before.types.size ≤ after.types.size
  unitCount : before.units.size ≤ after.units.size
  typeBound : ∀ var, before.isTypeBound var = true → after.isTypeBound var = true
  unitBound : ∀ var, before.isUnitBound var = true → after.isUnitBound var = true
  exact : after.exact = true → before.exact = true
  wellformed : before.Wellformed → after.Wellformed
  satisfies : before.Wellformed → ∀ {ν G : Type} [UnitGroup G] (valuation : Valuation ν G),
    after.Faithful G → valuation.Satisfies after → valuation.Satisfies before
  requirement : before.Wellformed → ∀ var requirements capability origin,
    before.requirements? var = some requirements → origin ∈ requirements.originsOf capability →
      after.Carries capability origin (.var var)

variable {store before middle after : Store} {var : TypeVar} {target : InferredType}
  {capability origin : String} {depth : Nat} {left right : InferredType}
  {requirements : Requirements}

theorem carries_of_requirements (found : store.requirements? var = some requirements)
    (member : origin ∈ requirements.originsOf capability) :
    store.Carries capability origin (.var var) := by
  unfold Carries
  rw [shape_unbound (typeLink?_of_requirements found)]
  refine ⟨rfl, fun other has => ?_⟩
  simp only [TypeTerm.HasVar, TypeTerm.leaves, List.mem_singleton, Sum.inl.injEq] at has
  subst has
  exact ⟨requirements, found, member⟩

namespace Extends

/-- The shape of a type after a change: the old shape with the new shapes of its variables. -/
theorem shape (extended : before.Extends after) (wellformed : before.Wellformed)
    (type : InferredType) :
    after.shape type =
      (before.shape type).substitute (fun var => after.shape (.var var)) id :=
  wellformed.type_eq_substitute_shape
    (extended.satisfies wellformed _ (faithful_unit after)
      ((extended.wellformed wellformed).extend_satisfies _)) type

variable {type : InferredType}

theorem carries (extended : before.Extends after) (wellformed : before.Wellformed)
    (carried : before.Carries capability origin type) : after.Carries capability origin type := by
  obtain ⟨noFunction, required⟩ := carried
  have eachCarried (var : TypeVar) (has : (before.shape type).HasVar var) :
      after.Carries capability origin (.var var) := by
    obtain ⟨requirements, found, member⟩ := required var has
    exact extended.requirement wellformed var requirements capability origin found member
  unfold Carries
  rw [extended.shape wellformed type]
  constructor
  · rw [Bool.eq_false_iff]
    intro found
    rcases (TypeTerm.hasFunction_substitute _ _ _).mp found with here | ⟨var, inside, inner⟩
    · rw [noFunction] at here
      cases here
    · rw [(eachCarried var inside).1] at inner
      cases inner
  · intro inner has
    obtain ⟨var, inside, deeper⟩ := TypeTerm.hasVar_substitute.mp has
    exact (eachCarried var inside).2 inner deeper

theorem refl (store : Store) : store.Extends store where
  typeCount := Nat.le_refl _
  unitCount := Nat.le_refl _
  typeBound _ bound := bound
  unitBound _ bound := bound
  exact exact := exact
  wellformed wellformed := wellformed
  satisfies _ _ _ _ _ _ satisfies := satisfies
  requirement _ _ _ _ _ found member := carries_of_requirements found member

theorem trans (first : before.Extends middle) (second : middle.Extends after) :
    before.Extends after where
  typeCount := Nat.le_trans first.typeCount second.typeCount
  unitCount := Nat.le_trans first.unitCount second.unitCount
  typeBound var bound := second.typeBound var (first.typeBound var bound)
  unitBound var bound := second.unitBound var (first.unitBound var bound)
  exact exact := first.exact (second.exact exact)
  wellformed wellformed := second.wellformed (first.wellformed wellformed)
  satisfies wellformed _ _ _ valuation faithful satisfies :=
    first.satisfies wellformed valuation (faithful.mono second.exact)
      (second.satisfies (first.wellformed wellformed) valuation faithful satisfies)
  requirement wellformed var requirements capability origin found member :=
    second.carries (first.wellformed wellformed)
      (first.requirement wellformed var requirements capability origin found member)

theorem covers (extended : before.Extends after) (covered : before.Covers type) :
    after.Covers type :=
  ⟨fun var has => Nat.lt_of_lt_of_le (covered.1 var has) extended.typeCount,
    fun unit has next member =>
      Nat.lt_of_lt_of_le (covered.2 unit has next member) extended.unitCount⟩

theorem coversUnit (extended : before.Extends after) {unit : InferredUnit}
    (covered : before.CoversUnit unit) : after.CoversUnit unit :=
  fun next member => Nat.lt_of_lt_of_le (covered next member) extended.unitCount

theorem coversOperand (extended : before.Extends after)
    {operand : Operand InferredType InferredUnit} (covered : before.CoversOperand operand) :
    after.CoversOperand operand := by
  cases operand with
  | type value => exact extended.covers covered
  | unit value => exact extended.coversUnit covered

end Extends

/-- Whether two types have the same value whatever the unbound variables stand for. -/
def TypesAgree (store : Store) (left right : InferredType) : Prop :=
  ∀ ⦃ν G : Type⦄ [UnitGroup G] (valuation : Valuation ν G), store.Faithful G →
    valuation.Satisfies store → valuation.type left = valuation.type right

def UnitsAgree (store : Store) (left right : InferredUnit) : Prop :=
  ∀ ⦃ν G : Type⦄ [UnitGroup G] (valuation : Valuation ν G), store.Faithful G →
    valuation.Satisfies store → valuation.unit left = valuation.unit right

theorem TypesAgree.refl (store : Store) (type : InferredType) : store.TypesAgree type type :=
  fun _ _ _ _ _ _ => rfl

theorem TypesAgree.symm (agree : store.TypesAgree left right) : store.TypesAgree right left :=
  fun _ _ _ valuation faithful satisfies => (agree valuation faithful satisfies).symm

theorem TypesAgree.trans {other : InferredType} (first : store.TypesAgree left other)
    (second : store.TypesAgree other right) : store.TypesAgree left right :=
  fun _ _ _ valuation faithful satisfies =>
    (first valuation faithful satisfies).trans (second valuation faithful satisfies)

theorem TypesAgree.later (agree : before.TypesAgree left right) (wellformed : before.Wellformed)
    (extended : before.Extends after) : after.TypesAgree left right :=
  fun _ _ _ valuation faithful satisfies => agree valuation (faithful.mono extended.exact)
    (extended.satisfies wellformed valuation faithful satisfies)

theorem TypesAgree.shape (agree : store.TypesAgree left right) (wellformed : store.Wellformed) :
    store.shape left = store.shape right :=
  agree _ (faithful_unit store) (wellformed.extend_satisfies _)

theorem Adjustment.settled (adjustment : Adjustment before after) : before.Settled after := by
  cases adjustment with
  | shorten shortening => exact shortening.settled
  | require found extra =>
    exact .of_links
      (funext fun _ => typeLink?_setType_unbound (typeLink?_of_requirements found)) rfl
      types_size_setType rfl id

theorem Adjustment.requirement (adjustment : Adjustment before after)
    (found : before.requirements? var = some requirements)
    (member : origin ∈ requirements.originsOf capability) :
    after.Carries capability origin (.var var) := by
  cases adjustment with
  | shorten shortening =>
    exact carries_of_requirements ((shortening.requirements var).trans found) member
  | @require changed old foundOld extra =>
    by_cases same : var = changed
    · subst same
      rw [found] at foundOld
      cases foundOld
      exact carries_of_requirements (requirements?_setType_self (index_lt_of_requirements found))
        (Requirements.mem_originsOf_union.mpr (.inl member))
    · exact carries_of_requirements ((requirements?_setType_of_ne same).trans found) member

theorem Adjustment.extends (adjustment : Adjustment before after) : before.Extends after where
  typeCount := Nat.le_of_eq adjustment.settled.typeCount.symm
  unitCount := Nat.le_of_eq adjustment.settled.unitCount.symm
  typeBound var bound := (adjustment.settled.typeBound var).trans bound
  unitBound var bound := (adjustment.settled.unitBound var).trans bound
  exact := adjustment.settled.exact
  wellformed := adjustment.settled.wellformed
  satisfies wellformed _ _ _ valuation faithful :=
    (adjustment.settled.satisfies wellformed valuation faithful).mp
  requirement _ _ _ _ _ found member := adjustment.requirement found member

private theorem getElem?_push_cases {α : Type} (cells : Array α) (cell : α) (index : Nat) :
    (cells.push cell)[index]? = cells[index]? ∨
      (cells.push cell)[index]? = some cell ∧ cells[index]? = none := by
  rw [Array.getElem?_push]
  split
  next new => exact .inr ⟨rfl, by simp [new]⟩
  next => exact .inl rfl

theorem typeLink?_withType (store : Store) (requirements : Requirements) :
    (store.withType requirements).typeLink? = store.typeLink? := by
  funext var
  unfold typeLink? withType
  rcases getElem?_push_cases store.types (.unbound requirements) var.index with same | ⟨new, old⟩
  · simp only [same]
  · simp only [new, old]

theorem unitLink?_withUnit (store : Store) : store.withUnit.unitLink? = store.unitLink? := by
  funext var
  unfold unitLink? withUnit
  rcases getElem?_push_cases store.units .unbound var.index with same | ⟨new, old⟩
  · simp only [same]
  · simp only [new, old]

theorem requirements?_withType {found : Requirements}
    (present : store.requirements? var = some found) :
    (store.withType requirements).requirements? var = some found := by
  have within := index_lt_of_requirements present
  rw [requirements?_eq_some] at present ⊢
  unfold withType
  rw [Array.getElem?_push, if_neg (Nat.ne_of_lt within)]
  exact present

theorem requirements?_withType_self (store : Store) (requirements : Requirements) :
    (store.withType requirements).requirements? ⟨store.types.size⟩ = some requirements := by
  rw [requirements?_eq_some]
  simp [withType]

@[simp]
theorem types_size_withType (store : Store) (requirements : Requirements) :
    (store.withType requirements).types.size = store.types.size + 1 := by
  simp [withType]

@[simp]
theorem units_size_withUnit (store : Store) :
    store.withUnit.units.size = store.units.size + 1 := by
  simp [withUnit]

private theorem Extends.of_links (typeLinks : after.typeLink? = before.typeLink?)
    (unitLinks : after.unitLink? = before.unitLink?)
    (typeCount : before.types.size ≤ after.types.size)
    (unitCount : before.units.size ≤ after.units.size) (exact : after.exact = before.exact)
    (requirements : ∀ var found, before.requirements? var = some found →
      after.requirements? var = some found) : before.Extends after := by
  constructor
  · exact typeCount
  · exact unitCount
  · intro var bound
    rw [isTypeBound, typeLinks]
    exact bound
  · intro var bound
    rw [isUnitBound, unitLinks]
    exact bound
  · rw [exact]
    exact id
  · intro wellformed
    exact wellformed.of_links typeLinks unitLinks typeCount unitCount
  · intro _ _ _ _ valuation _
    exact (Valuation.satisfies_of_links typeLinks unitLinks).mp
  · intro _ var found capability origin present member
    exact carries_of_requirements (requirements var found present) member

private theorem extends_bindUnit {unitVar : UnitVar} {unit : InferredUnit}
    (within : unitVar.index < store.units.size) (free : store.unitLink? unitVar = none)
    (covered : store.CoversUnit unit)
    (unbound : ∀ next ∈ unit.vars.keys, store.unitLink? next = none)
    (absent : unitVar ∉ unit.vars.keys) :
    store.Extends (store.setUnit unitVar (.link unit)) := by
  have kept {other : UnitVar} {found : InferredUnit} (linked : store.unitLink? other = some found) :
      (store.setUnit unitVar (.link unit)).unitLink? other = some found := by
    rw [unitLink?_setUnit_of_ne, linked]
    rintro rfl
    rw [free] at linked
    cases linked
  constructor
  · exact Nat.le_refl _
  · exact Nat.le_of_eq units_size_setUnit.symm
  · exact fun _ bound => bound
  · intro other bound
    obtain ⟨found, linked⟩ := isUnitBound_iff.mp bound
    exact isUnitBound_iff.mpr ⟨found, kept linked⟩
  · exact id
  · intro wellformed
    refine ⟨?_, ?_, wellformed.typesRanked, ?_⟩
    · have covered := wellformed.typesCovered
      unfold Covers CoversUnit at covered ⊢
      rw [units_size_setUnit]
      exact covered
    · have all := forall_setUnit_link (motive := fun _ found => store.CoversUnit found)
        within covered wellformed.unitsCovered
      unfold CoversUnit
      rw [units_size_setUnit]
      exact all
    · obtain ⟨rank, ranking, small⟩ := wellformed.exists_unitRanking
      have clear (next : UnitVar) (member : next ∈ unit.vars.keys) :
          ¬Relation.ReflTransGen store.UnitEdge next unitVar := by
        intro path
        rcases Relation.ReflTransGen.cases_head path with same | ⟨_, ⟨_, linked, _⟩, _⟩
        · rw [same] at member
          exact absent member
        · rw [unbound next member] at linked
          cases linked
      obtain ⟨raised, raises⟩ := ranking.exists_bind small unitVar (· ∈ unit.vars.keys)
        (by simp [isUnitBound, free]) clear
      refine ⟨raised, raises.transfer ?_ ?_⟩
      · intro other
        by_cases same : other = unitVar
        · subst same
          simp [isUnitBound, unitLink?_setUnit_self within]
        · simp [isUnitBound, unitLink?_setUnit_of_ne same, same]
      · rintro other next ⟨found, linked, member⟩
        exact forall_setUnit_link
          (motive := fun other found => ∀ next ∈ found.vars.keys, raised next < raised other)
          within (fun next member => raises.below _ _ (.inr ⟨rfl, member⟩))
          (fun other found linked next member =>
            raises.below _ _ (.inl ⟨found, linked, member⟩))
          other found linked next member
  · intro _ _ _ _ valuation _ satisfies
    exact ⟨satisfies.types, fun other found linked => satisfies.units other found (kept linked)⟩
  · intro _ var found capability origin present member
    exact carries_of_requirements present member

private theorem extends_bindType (found : store.requirements? var = some requirements)
    (covered : store.Covers target) (absent : ¬(store.shape target).HasVar var)
    (meets : ∀ capability origin, origin ∈ requirements.originsOf capability →
      store.Carries capability origin target) :
    store.Extends (store.setType var (.link target)) := by
  have free := typeLink?_of_requirements found
  have within := index_lt_of_requirements found
  have kept {other : TypeVar} {old : InferredType} (linked : store.typeLink? other = some old) :
      (store.setType var (.link target)).typeLink? other = some old := by
    rw [typeLink?_setType_of_ne, linked]
    rintro rfl
    rw [free] at linked
    cases linked
  have wellformedAfter (wellformed : store.Wellformed) :
      (store.setType var (.link target)).Wellformed := by
    refine ⟨?_, wellformed.unitsCovered, ?_, wellformed.unitsRanked⟩
    · have all := forall_setType_link (motive := fun _ found => store.Covers found)
        within covered wellformed.typesCovered
      unfold Covers
      rw [types_size_setType]
      exact all
    · obtain ⟨rank, ranking, small⟩ := wellformed.exists_typeRanking
      have clear (next : TypeVar) (has : target.HasVar next) :
          ¬Relation.ReflTransGen store.TypeEdge next var := by
        intro path
        exact absent (hasVar_shape.mpr ⟨next, has, wellformed.hasVar_shape_of_path path free⟩)
      obtain ⟨raised, raises⟩ := ranking.exists_bind small var target.HasVar
        (by simp [isTypeBound, free]) clear
      refine ⟨raised, raises.transfer ?_ ?_⟩
      · intro other
        by_cases same : other = var
        · subst same
          simp [isTypeBound, typeLink?_setType_self within]
        · simp [isTypeBound, typeLink?_setType_of_ne same, same]
      · rintro other next ⟨old, linked, has⟩
        exact forall_setType_link
          (motive := fun other old => ∀ next, old.HasVar next → raised next < raised other)
          within (fun next has => raises.below _ _ (.inr ⟨rfl, has⟩))
          (fun other old linked next has => raises.below _ _ (.inl ⟨old, linked, has⟩))
          other old linked next has
  have satisfied {ν G : Type} [UnitGroup G] (valuation : Valuation ν G)
      (satisfies : valuation.Satisfies (store.setType var (.link target))) :
      valuation.Satisfies store :=
    ⟨fun other old linked => satisfies.types other old (kept linked), satisfies.units⟩
  constructor
  · exact Nat.le_of_eq types_size_setType.symm
  · exact Nat.le_refl _
  · intro other bound
    obtain ⟨old, linked⟩ := isTypeBound_iff.mp bound
    exact isTypeBound_iff.mpr ⟨old, kept linked⟩
  · exact fun _ bound => bound
  · exact id
  · exact wellformedAfter
  · exact fun _ _ _ _ valuation _ satisfies => satisfied valuation satisfies
  · intro wellformed other old capability origin present member
    by_cases same : other = var
    · subst same
      rw [found] at present
      cases present
      obtain ⟨noFunction, required⟩ := meets capability origin member
      have shape :
          (store.setType other (.link target)).shape (.var other) = store.shape target := by
        rw [(wellformedAfter wellformed).shape_link (typeLink?_setType_self within)]
        have extended := (wellformedAfter wellformed).extend_satisfies
          (⟨.var, fun _ => ()⟩ : Valuation TypeVar Unit)
        apply (wellformed.type_eq_substitute_shape (satisfied _ extended) target).trans
        refine (TypeTerm.substitute_congr _ (fun inner has => ?_) fun _ _ => rfl).trans
          (TypeTerm.substitute_self _)
        apply extend_types_unbound _
        rw [typeLink?_setType_of_ne (by rintro rfl; exact absent has)]
        exact wellformed.unbound_of_hasVar_shape has
      unfold Carries
      rw [shape]
      refine ⟨noFunction, fun inner has => ?_⟩
      have different : inner ≠ other := by
        rintro rfl
        exact absent has
      rw [requirements?_setType_of_ne different]
      exact required inner has
    · exact carries_of_requirements ((requirements?_setType_of_ne same).trans present) member

theorem Solving.extends (solving : Solving depth before after) : before.Extends after := by
  cases solving with
  | adjust adjustment => exact adjustment.extends
  | freshUnit =>
    exact .of_links rfl (unitLink?_withUnit before) (Nat.le_refl _) (by simp) rfl
      fun _ _ found => found
  | bindUnit within free covered unbound absent =>
    exact extends_bindUnit within free covered unbound absent
  | bindType found covered absent meets _ => exact extends_bindType found covered absent meets

theorem Step.extends (step : Step before after) : before.Extends after := by
  cases step with
  | solve solving => exact solving.extends
  | freshType requirements =>
    exact .of_links (typeLink?_withType before requirements) rfl (by simp) (Nat.le_refl _) rfl
      fun _ _ found => requirements?_withType found

abbrev Evolves : Store → Store → Prop := Relation.ReflTransGen Step

theorem Evolves.extends (evolves : before.Evolves after) : before.Extends after := by
  induction evolves with
  | refl => exact .refl _
  | tail _ step ih => exact ih.trans step.extends

theorem Solving.run_extends (run : Relation.ReflTransGen (Solving depth) before after) :
    before.Extends after :=
  Evolves.extends (Relation.ReflTransGen.mono (fun _ _ => Step.solve) _ _ run)

end SheetTypes.Store
