import SheetTypes.Proofs.Session.Units
import SheetTypes.Proofs.Unification.Attempts

/-!
What a failed unification of units leaves behind. It has linked variables to units with new ones,
but all values that the unbound variables could have before they can still have, so that equations
that could be solved before can be solved afterwards.
-/

set_option autoImplicit false

namespace SheetTypes

noncomputable def productsOf (declared : Set String) : AddSubgroup ExactUnit :=
  (Finsupp.supported ℤ ℤ declared).toAddSubgroup

variable {declared : Set String}

theorem mem_productsOf {value : ExactUnit} :
    value ∈ productsOf declared ↔ ∀ name, value name ≠ 0 → name ∈ declared := by
  change value ∈ Finsupp.supported ℤ ℤ declared ↔ _
  rw [Finsupp.mem_supported]
  constructor
  · intro inside name nonzero
    exact inside (Finsupp.mem_support_iff.mpr nonzero)
  · intro each name member
    exact each name (Finsupp.mem_support_iff.mp member)

theorem named_mem_productsOf {name : String} (member : name ∈ declared) :
    UnitGroup.named name ∈ productsOf declared :=
  Finsupp.single_mem_supported ℤ (1 : ℤ) member

namespace Store

open Unification

variable {store : Store} {left right : InferredUnit} {values : UnitVar → ExactUnit} {var : UnitVar}

theorem unitQuotient_onUnits (left right : InferredUnit) : OnUnits (unitQuotient left right) :=
  fun _ beside => (pruneUnit_commutes beside left).bind fun _ =>
    (pruneUnit_commutes beside right).bind fun _ => multiplyPower_commutes beside _ _ _

/-- What an action on unit variables results in does not depend on the note. -/
theorem OnUnits.result {α : Type} {action : StateM Store α} (onUnits : OnUnits action) :
    (action store).1 = (action store.unitsAlone).1 := by
  obtain ⟨types, units, noted⟩ := store
  have renewed : action ⟨types, units, true⟩ = _ :=
    onUnits _ (beside_withTypes types) ⟨#[], units, true⟩
  have limited : action ⟨types, units, false⟩ = _ :=
    onUnits (fun store => ⟨types, store.units, false⟩) ⟨fun _ => rfl, fun _ _ _ => rfl⟩
      ⟨#[], units, true⟩
  cases noted with
  | true =>
    rw [renewed]
    rfl
  | false =>
    rw [limited]
    rfl

theorem Extends.unbound {before after : Store} (extended : before.Extends after)
    (free : after.unitLink? var = none) : before.unitLink? var = none := by
  cases link : before.unitLink? var with
  | none => rfl
  | some target =>
    have bound := extended.unitBound var (isUnitBound_iff.mpr ⟨target, link⟩)
    rw [isUnitBound, free] at bound
    cases bound

noncomputable def freeValues (store : Store) (values : UnitVar → ExactUnit) (var : UnitVar) :
    ExactUnit :=
  if store.isUnitBound var then 0 else values var

theorem freeValues_unbound (free : store.unitLink? var = none) :
    store.freeValues values var = values var := by
  rw [freeValues, isUnitBound, free]
  rfl

theorem freeValues_madeOf {assignment : Assignment}
    (inGroup : FreeIn (productsOf declared) assignment store) :
    MadeOf declared (store.freeValues assignment.units) := by
  intro var name nonzero
  cases link : store.unitLink? var with
  | none =>
    rw [freeValues_unbound link] at nonzero
    exact mem_productsOf.mp (inGroup var link) name nonzero
  | some target =>
    rw [freeValues, isUnitBound, link] at nonzero
    exact absurd rfl nonzero

section Failed

variable {registry : Option Registry} {error : TypeError} {after : Store} {declared : Set String}
  (base : Assignment)

/-- A failed attempt keeps every solution of the store, and what is added to it is made of the same
names. -/
theorem exists_solution_after_failure (wellformed : store.Wellformed)
    (leftCovered : store.CoversUnit left) (rightCovered : store.CoversUnit right)
    (noRequirements : ∀ var, store.requirements? var = none)
    (failed : unifyUnits registry left right store = (.error error, after))
    (exact : after.exact = true)
    (known : ∀ name ∈ (unitQuotient left right store).1.names.keys, name ∈ declared)
    (made : MadeOf declared base.units) :
    ∃ later : Assignment, later.Satisfies after ∧ later.Continues (store.extend base) store ∧
      FreeIn (productsOf declared) later after := by
  obtain ⟨shortens, covered, free⟩ := unitQuotient_free wellformed leftCovered rightCovered
  have unsolved := solveWithin_of_failed wellformed leftCovered rightCovered failed
  generalize unitQuotient left right store = start at *
  obtain ⟨quotient, middle⟩ := start
  have settled := Shortens.settled shortens
  have steps := (solveWithin_yields 0 (solvingRounds quotient) quotient
    (settled.wellformed wellformed) covered).steps
  rw [unsolved] at steps
  have solution := (wellformed.extend_isSolution_unrequired noRequirements base).shortens
    wellformed shortens ((Solving.run_extends steps).exact exact)
  have inGroup : FreeIn (productsOf declared) (store.extend base) middle := by
    intro var unbound
    rw [extend_units_unbound base (settled.unitLink?_none.mp unbound), mem_productsOf]
    exact made var
  have knownPruned (name : String) (member : name ∈ (pruneUnit quotient middle).1.names.keys) :
      UnitGroup.named name ∈ productsOf declared := by
    rw [pruneUnit_of_unbound free] at member
    exact named_mem_productsOf (known name member)
  obtain ⟨later, solved, continues, inGroupLater⟩ := solveWithin_unsolved _
    (settled.wellformed wellformed) covered solution inGroup knownPruned unsolved exact
  exact ⟨later, solved.links, continues.settled settled, inGroupLater⟩

variable {base}

/-- A unit that was there before has the same value before and after, for values of the unbound
variables that continue each other. -/
theorem value_pruneUnit_later {unit : InferredUnit} {later : Assignment}
    (wellformed : store.Wellformed) (extended : store.Extends after)
    (satisfies : later.Satisfies after) (continues : later.Continues (store.extend base) store)
    (covered : store.CoversUnit unit) (exact : (pruneUnit unit store).2.exact = true)
    (exactAfter : (pruneUnit unit after).2.exact = true) :
    (pruneUnit unit after).1.value (after.freeValues later.units) =
      (pruneUnit unit store).1.value base.units := by
  have wellformedAfter := extended.wellformed wellformed
  have coveredAfter := extended.coversUnit covered
  obtain ⟨shortens, reduced⟩ :=
    pruneUnit_reduced wellformedAfter coveredAfter (Prod.eta _).symm
  have settled := Shortens.settled shortens
  calc (pruneUnit unit after).1.value (after.freeValues later.units)
      = later.unit (pruneUnit unit after).1 := UnitTerm.value_congr _ fun var member =>
        freeValues_unbound (settled.unitLink?_none.mp (reduced.free var member))
    _ = later.unit unit := unit_pruneUnit wellformedAfter coveredAfter exactAfter satisfies
    _ = (store.extend base).unit unit := continues.unit covered
    _ = base.unit (pruneUnit unit store).1 := wellformed.extend_pruneUnit covered exact base

structure PrunesExactly (before after : Store) (unit : InferredUnit) : Prop where
  before : before.RunsExactly (pruneUnit unit)
  after : after.RunsExactly (pruneUnit unit)

/-- After a failed attempt there are values for the unbound variables with which all units have the
values that they had before. -/
theorem exists_values_after_failure (wellformed : store.Wellformed)
    (leftCovered : store.CoversUnit left) (rightCovered : store.CoversUnit right)
    (exactly : store.RunsExactly (unifyUnits registry left right))
    (failed : unifyUnits registry left right store = (.error error, after))
    (known : ∀ name ∈ (unitQuotient left right store).1.names.keys, name ∈ declared)
    (made : MadeOf declared values) :
    ∃ later, MadeOf declared later ∧
      (∀ var, var.index < store.units.size → after.unitLink? var = none →
        later var = values var) ∧
      ∀ unit, store.CoversUnit unit → PrunesExactly store after unit →
        (pruneUnit unit after).1.value later = (pruneUnit unit store).1.value values := by
  have alone := wellformed.unitsAlone
  obtain ⟨found, state, exact⟩ := (unifyUnits_onUnits registry left right).runs exactly
  rw [failed] at found state
  have failedAlone : unifyUnits registry left right store.unitsAlone =
      (.error error, after.unitsAlone) := Prod.ext found.symm state.symm
  have steps := (unifyUnits_solves 0 registry alone leftCovered rightCovered).yields.steps
  rw [failedAlone] at steps
  have extended : store.unitsAlone.Extends after.unitsAlone := Solving.run_extends steps
  rw [(unitQuotient_onUnits left right).result] at known
  obtain ⟨later, satisfies, continues, inGroup⟩ :=
    exists_solution_after_failure ⟨fun _ => .text, values⟩ alone leftCovered rightCovered
      (fun _ => rfl) failedAlone rfl known made
  refine ⟨after.unitsAlone.freeValues later.units, freeValues_madeOf inGroup, ?_, ?_⟩
  · intro var within unbound
    have unboundAlone : after.unitsAlone.unitLink? var = none := unbound
    rw [freeValues_unbound unboundAlone, continues.units var within]
    exact extend_units_unbound _ (extended.unbound unboundAlone)
  · intro unit covered prunes
    obtain ⟨foundBefore, _, exactBefore⟩ := (pruneUnit_onUnits unit).runs prunes.before
    obtain ⟨foundAfter, _, exactAfter⟩ := (pruneUnit_onUnits unit).runs prunes.after
    have same :=
      value_pruneUnit_later alone extended satisfies continues covered exactBefore exactAfter
    rw [foundBefore, foundAfter]
    exact same

end Failed

/-- Units are unified if values make them equal, whatever was noted before. -/
theorem unifyUnits_of_equates_exactly {registry : Option Registry} (wellformed : store.Wellformed)
    (leftCovered : store.CoversUnit left) (rightCovered : store.CoversUnit right)
    (leftExactly : store.RunsExactly (pruneUnit left))
    (rightExactly : store.RunsExactly (pruneUnit right))
    (exactly : store.RunsExactly (unifyUnits registry left right))
    (equates : store.Equates left right values) :
    (unifyUnits registry left right store).1 = .ok () := by
  obtain ⟨leftFound, _, leftExact⟩ := (pruneUnit_onUnits left).runs leftExactly
  obtain ⟨rightFound, _, rightExact⟩ := (pruneUnit_onUnits right).runs rightExactly
  obtain ⟨found, _, exact⟩ := (unifyUnits_onUnits registry left right).runs exactly
  have equatesAlone : store.unitsAlone.Equates left right values := by
    unfold Equates
    rw [← leftFound, ← rightFound]
    exact equates
  exact found.trans (unifyUnits_of_equates wellformed.unitsAlone leftCovered rightCovered
    (fun _ => rfl) leftExact rightExact exact equatesAlone).1

end Store

namespace Session

open Store

variable {session : Session} {left right : InferredUnit}

/-- A failed unification of units constrains nothing: all values of the variables that were unbound
before are instances of what these are pruned to afterwards, with values for the new variables that
are made of the same names. So equations that could be solved before can be solved afterwards. -/
theorem failed_units_constrain_nothing (reachable : session.Reachable)
    (registry : Option Registry) (leftCovered : session.store.CoversUnit left)
    (rightCovered : session.store.CoversUnit right)
    (exactly : session.store.RunsExactly (Unification.unifyUnits registry left right))
    {error : TypeError}
    (failed : (Unification.unifyUnits registry left right session.store).1 = .error error) :
    let before := session.store
    let after := (Unification.unifyUnits registry left right before).2
    ∀ declared : Set String,
      (∀ name ∈ (Unification.unitQuotient left right before).1.names.keys, name ∈ declared) →
      ((∀ var, var.index < before.units.size → before.unitLink? var = none →
          after.RunsExactly (Store.pruneUnit (.ofVar var))) →
        ∀ values, MadeOf declared values → ∃ later, MadeOf declared later ∧
          (∀ var, var.index < before.units.size → after.unitLink? var = none →
            later var = values var) ∧
          after.Specializes before values later) ∧
      ∀ first second, before.CoversUnit first → before.CoversUnit second →
        PrunesExactly before after first → PrunesExactly before after second →
        (∃ values, MadeOf declared values ∧ before.Equates first second values) →
        (∃ later, MadeOf declared later ∧ after.Equates first second later) ∧
        ∀ other, after.RunsExactly (Unification.unifyUnits other first second) →
          (Unification.unifyUnits other first second after).1 = .ok () := by
  intro before after declared known
  have failedRun : Unification.unifyUnits registry left right before = (.error error, after) :=
    Prod.ext failed rfl
  have moved {values : UnitVar → ExactUnit} (made : MadeOf declared values) :=
    exists_values_after_failure reachable.wellformed leftCovered rightCovered exactly failedRun
      known made
  have extended : before.Extends after := Solving.run_extends
    (Unification.unifyUnits_solves 0 registry reachable.wellformed leftCovered
      rightCovered).yields.steps
  have wellformedAfter := extended.wellformed reachable.wellformed
  refine ⟨fun exactVars values made => ?_, ?_⟩
  · obtain ⟨later, madeLater, kept, same⟩ := moved made
    refine ⟨later, madeLater, kept, fun var within free => ?_⟩
    have pruned (store : Store) (unbound : store.unitLink? var = none) :
        Store.pruneUnit (.ofVar var) store = (.ofVar var, store) :=
      Unification.pruneUnit_of_unbound fun next member => mem_keys_ofVar member ▸ unbound
    have exactBefore : before.RunsExactly (Store.pruneUnit (.ofVar var)) := by
      rw [RunsExactly, pruned before.renewed free]
      rfl
    rw [same (.ofVar var) (Template.coversUnit_ofVar within)
      ⟨exactBefore, exactVars var within free⟩, pruned before free]
    exact (Valuation.unit_ofVar (⟨fun _ => .text, values⟩ : Assignment) var).symm
  · intro first second firstCovered secondCovered firstExactly secondExactly solvable
    obtain ⟨values, made, equates⟩ := solvable
    obtain ⟨later, madeLater, _, same⟩ := moved made
    have equatesLater : after.Equates first second later := by
      unfold Equates
      rw [same first firstCovered firstExactly, same second secondCovered secondExactly]
      exact equates
    refine ⟨⟨later, madeLater, equatesLater⟩, fun other exactlyOther => ?_⟩
    exact unifyUnits_of_equates_exactly wellformedAfter (extended.coversUnit firstCovered)
      (extended.coversUnit secondCovered) firstExactly.after secondExactly.after exactlyOther
      equatesLater

theorem failed_units_constrain_nothing_reduced :
    let session := ((start .empty {}).after .freshUnit).after .freshUnit
    let left : InferredUnit :=
      ((UnitTerm.ofVar ⟨0⟩).raise 4).multiply ((UnitTerm.ofVar ⟨1⟩).raise 6)
    let right : InferredUnit := .named "m"
    let before := session.store
    let after := (Unification.unifyUnits none left right before).2
    let first : InferredUnit := .ofVar ⟨0⟩
    let second : InferredUnit := (UnitTerm.ofVar ⟨1⟩).raise 2
    after.units.size = 4 ∧
    (∀ values, MadeOf {"m"} values → ∃ later, MadeOf {"m"} later ∧
      (∀ var, var.index < before.units.size → after.unitLink? var = none →
        later var = values var) ∧ after.Specializes before values later) ∧
    (∃ later, MadeOf {"m"} later ∧ after.Equates first second later) ∧
    (Unification.unifyUnits none first second after).1 = .ok () := by
  intro session left right before after first second
  have reachable : session.Reachable :=
    ((reachable_start .empty {}).after .freshUnit trivial).after .freshUnit trivial
  have leftCovered : session.store.CoversUnit left := by decide +kernel
  have rightCovered : session.store.CoversUnit right := by decide +kernel
  have exactly : session.store.RunsExactly (Unification.unifyUnits none left right) := by
    decide +kernel
  have failed : (Unification.unifyUnits none left right session.store).1 =
      .error (Unification.unitMismatch none left right) := by decide +kernel
  have names : (Unification.unitQuotient left right before).1.names.keys = ["m"] := by
    decide +kernel
  have created : after.units.size = 4 := by decide +kernel
  have known : ∀ name ∈ (Unification.unitQuotient left right before).1.names.keys,
      name ∈ ({"m"} : Set String) := by
    rw [names]
    intro name member
    exact List.mem_singleton.mp member
  have vars : ∀ var, var.index < before.units.size → before.unitLink? var = none →
      after.RunsExactly (Store.pruneUnit (.ofVar var)) := by
    rintro ⟨index⟩ (within : index < 2) _
    have either : index = 0 ∨ index = 1 := by omega
    rcases either with rfl | rfl
    · decide +kernel
    · decide +kernel
  have firstCovered : before.CoversUnit first := by decide +kernel
  have secondCovered : before.CoversUnit second := by decide +kernel
  have firstExactly : PrunesExactly before after first := ⟨by decide +kernel, by decide +kernel⟩
  have secondExactly : PrunesExactly before after second := ⟨by decide +kernel, by decide +kernel⟩
  have unifies : after.RunsExactly (Unification.unifyUnits none first second) := by
    decide +kernel
  have equates : ∃ values, MadeOf {"m"} values ∧ before.Equates first second values := by
    have firstPruned : (Store.pruneUnit first before).1 = first := by decide +kernel
    have secondPruned : (Store.pruneUnit second before).1 = second := by decide +kernel
    have firstNames : first.names.toList = [] := by decide +kernel
    have firstVars : first.vars.toList = [(⟨0⟩, 1)] := by decide +kernel
    have secondNames : second.names.toList = [] := by decide +kernel
    have secondVars : second.vars.toList = [(⟨1⟩, 2)] := by decide +kernel
    refine ⟨fun var => Finsupp.single "m" (if var.index = 0 then 2 else 1), ?_, ?_⟩
    · intro var name nonzero
      by_contra other
      exact nonzero (Finsupp.single_eq_of_ne other)
    · unfold Equates
      rw [firstPruned, secondPruned]
      simp only [UnitTerm.value, PowerProduct.value_eq_sum, firstNames, firstVars, secondNames,
        secondVars]
      simp
  obtain ⟨instances, equations⟩ := failed_units_constrain_nothing reachable none leftCovered
    rightCovered exactly failed {"m"} known
  obtain ⟨solvable, accepted⟩ := equations first second firstCovered secondCovered firstExactly
    secondExactly equates
  exact ⟨created, instances vars, solvable, accepted none unifies⟩

end Session

end SheetTypes
