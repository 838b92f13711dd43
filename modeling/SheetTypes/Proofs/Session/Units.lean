import SheetTypes.Proofs.Session.Reachability
import SheetTypes.Proofs.Unification.Exactness

/-!
Unification of units in sessions. It succeeds exactly if values for the unbound variables make both
units equal, both are then pruned to the same unit, and every such choice of values is an instance
of what the variables are pruned to. All this holds as long as no exponent stops at the limit in
the runs that are compared, whatever has happened before; it fails where one does.
-/

set_option autoImplicit false

namespace SheetTypes

theorem PowerProduct.map_value {κ G H : Type} [Ord κ] [Std.LawfulEqOrd κ] [AddCommGroup G]
    [AddCommGroup H] (project : G →+ H) (meaning : κ → G) (product : PowerProduct κ) :
    project (product.value meaning) = product.value fun key => project (meaning key) := by
  rw [value_eq_sum, value_eq_sum, map_list_sum, List.map_map]
  congr 1
  apply List.map_congr_left
  intro power _
  exact map_zsmul project power.2 (meaning power.1)

/-- Leaving other names out of the values leaves them out of the value of a unit. -/
theorem UnitTerm.value_filter {ν : Type} [Ord ν] [Std.LawfulEqOrd ν] (declared : Set String)
    [DecidablePred (· ∈ declared)] (unit : UnitTerm ν) (values : ν → ExactUnit)
    (own : ∀ name ∈ unit.names.keys, name ∈ declared) :
    unit.value (fun var => (values var).filter (· ∈ declared)) =
      (unit.value values).filter (· ∈ declared) := by
  have project : (unit.value values).filter (· ∈ declared) =
      Finsupp.filterAddHom (· ∈ declared) (unit.value values) := rfl
  rw [project, value, value, map_add, PowerProduct.map_value, PowerProduct.map_value]
  congr 1
  apply PowerProduct.value_congr
  intro name member
  exact (Finsupp.filter_single_of_pos (· ∈ declared) (own name member)).symm

def MadeOf (declared : Set String) (values : UnitVar → ExactUnit) : Prop :=
  ∀ var name, values var name ≠ 0 → name ∈ declared

namespace Store

variable {store : Store} {α : Type} {G ν : Type} {unit : InferredUnit}

def unitsAlone (store : Store) : Store := ⟨#[], store.units, true⟩

def OnUnits (action : StateM Store α) : Prop :=
  ∀ change : Store → Store, Beside change → Commutes change action

theorem pruneUnit_onUnits (unit : InferredUnit) : OnUnits (pruneUnit unit) :=
  fun _ beside => pruneUnit_commutes beside unit

theorem unifyUnits_onUnits (registry : Option Registry) (left right : InferredUnit) :
    OnUnits (Unification.unifyUnits registry left right) :=
  fun _ beside => unifyUnits_commutes beside registry left right

/-- Neither the type variables nor the note make a difference to an action on unit variables. -/
theorem OnUnits.runs {action : StateM Store α} (onUnits : OnUnits action)
    (exactly : store.RunsExactly action) :
    (action store).1 = (action store.unitsAlone).1 ∧
      (action store).2.unitsAlone = (action store.unitsAlone).2 ∧
      (action store.unitsAlone).2.exact = true := by
  obtain ⟨types, units, noted⟩ := store
  have bare : action ⟨#[], units, true⟩ = _ :=
    onUnits _ (beside_withTypes #[]) ⟨#[], units, true⟩
  have renewed : action ⟨types, units, true⟩ = _ :=
    onUnits _ (beside_withTypes types) ⟨#[], units, true⟩
  have limited : action ⟨types, units, false⟩ = _ :=
    onUnits (fun store => ⟨types, store.units, false⟩) ⟨fun _ => rfl, fun _ _ _ => rfl⟩
      ⟨#[], units, true⟩
  change (action ⟨types, units, true⟩).2.exact = true at exactly
  rw [renewed] at exactly
  change _ = (action ⟨#[], units, true⟩).1 ∧ _ = (action ⟨#[], units, true⟩).2 ∧
    (action ⟨#[], units, true⟩).2.exact = true
  generalize action ⟨#[], units, true⟩ = run at *
  obtain ⟨value, ⟨laterTypes, laterUnits, laterExact⟩⟩ := run
  cases exactly
  have noTypes : laterTypes = #[] := congrArg (fun run => run.2.types) bare
  subst noTypes
  refine ⟨?_, ?_, rfl⟩
  · cases noted with
    | true => rw [renewed]
    | false => rw [limited]
  · cases noted with
    | true => rw [renewed]; rfl
    | false => rw [limited]; rfl

theorem Wellformed.unitsAlone (wellformed : store.Wellformed) : store.unitsAlone.Wellformed := by
  have unlinked {var : TypeVar} {target : InferredType} :
      store.unitsAlone.typeLink? var ≠ some target := by
    rintro ⟨⟩
  refine ⟨?_, wellformed.unitsCovered, ⟨fun _ => 0, ?_, ?_, ?_⟩, wellformed.unitsRanked⟩
  · intro var target linked
    exact absurd linked unlinked
  · intro var _
    rfl
  · intro var bound
    obtain ⟨target, linked⟩ := isTypeBound_iff.mp bound
    exact absurd linked unlinked
  · rintro var next ⟨target, linked, _⟩
    exact absurd linked unlinked

/-- A unit has the value of the unit that it is pruned to. -/
theorem unit_pruneUnit (wellformed : store.Wellformed) (covered : store.CoversUnit unit)
    (exact : (pruneUnit unit store).2.exact = true) [UnitGroup G] {valuation : Valuation ν G}
    (satisfies : valuation.Satisfies store) :
    valuation.unit (pruneUnit unit store).1 = valuation.unit unit := by
  obtain ⟨shortens, reduced⟩ := Unification.pruneUnit_reduced wellformed covered rfl
  have settled := Shortens.settled shortens
  exact reduced.value exact valuation
    ((settled.satisfies wellformed valuation (.inr exact)).mpr satisfies)

/-- Values for the unbound variables are values for the units that pruning leaves. -/
theorem Wellformed.extend_pruneUnit (wellformed : store.Wellformed)
    (covered : store.CoversUnit unit) (exact : (pruneUnit unit store).2.exact = true)
    [UnitGroup G] (base : Valuation ν G) :
    (store.extend base).unit unit = base.unit (pruneUnit unit store).1 := by
  obtain ⟨shortens, reduced⟩ := Unification.pruneUnit_reduced wellformed covered rfl
  have settled := Shortens.settled shortens
  rw [← unit_pruneUnit wellformed covered exact (wellformed.extend_satisfies base)]
  apply Valuation.unit_congr
  intro var member
  exact extend_units_unbound base (settled.unitLink?_none.mp (reduced.free var member))

/-- Units are pruned to the same unit if they are equal in all solutions. -/
theorem UnitsAgree.pruneUnit_eq {left right : InferredUnit} (agree : store.UnitsAgree left right)
    (wellformed : store.Wellformed) (leftCovered : store.CoversUnit left)
    (rightCovered : store.CoversUnit right) (leftExact : (pruneUnit left store).2.exact = true)
    (rightExact : (pruneUnit right store).2.exact = true) :
    (pruneUnit left store).1 = (pruneUnit right store).1 := by
  have settled := Shortens.settled (Unification.pruneUnit_reduced wellformed leftCovered rfl).1
  have meanings := agree store.meaning (.inr (settled.exact leftExact)) wellformed.meaning_satisfies
  rw [meaning, wellformed.extend_pruneUnit leftCovered leftExact,
    wellformed.extend_pruneUnit rightCovered rightExact] at meanings
  exact InferredUnit.free_injective meanings

/-- Whether values for the unbound variables make two units equal. -/
def Equates (store : Store) (left right : InferredUnit) (values : UnitVar → ExactUnit) : Prop :=
  (pruneUnit left store).1.value values = (pruneUnit right store).1.value values

/-- Whether values for the unbound variables are an instance of what each variable of an earlier
store that was unbound there is pruned to. -/
def Specializes (after before : Store) (values later : UnitVar → ExactUnit) : Prop :=
  ∀ var, var.index < before.units.size → before.unitLink? var = none →
    values var = (pruneUnit (.ofVar var) after).1.value later

/-- Whether no exponent stops at the limit in making two units equal, in pruning them before and
after, and in pruning the variables that were unbound before. -/
structure UnifiesExactly (store : Store) (registry : Option Registry) (left right : InferredUnit) :
    Prop where
  leftBefore : store.RunsExactly (pruneUnit left)
  rightBefore : store.RunsExactly (pruneUnit right)
  unifying : store.RunsExactly (Unification.unifyUnits registry left right)
  leftAfter : (Unification.unifyUnits registry left right store).2.RunsExactly (pruneUnit left)
  rightAfter : (Unification.unifyUnits registry left right store).2.RunsExactly (pruneUnit right)
  vars : ∀ var, var.index < store.units.size → store.unitLink? var = none →
    (Unification.unifyUnits registry left right store).2.RunsExactly (pruneUnit (.ofVar var))

section Solutions

open Unification

variable {registry : Option Registry} {left right : InferredUnit} {after : Store}
  {values : UnitVar → ExactUnit}

theorem Wellformed.extend_isSolution_unrequired (wellformed : store.Wellformed)
    (noRequirements : ∀ var, store.requirements? var = none) (base : Assignment) :
    Assignment.IsSolution (store.extend base) store := by
  refine ⟨wellformed.extend_satisfies base, ?_⟩
  intro var requirements found
  rw [noRequirements var] at found
  cases found

/-- Unification of units fails only if no values make them equal, and it keeps those that do. -/
theorem unifyUnits_of_equates (wellformed : store.Wellformed)
    (leftCovered : store.CoversUnit left) (rightCovered : store.CoversUnit right)
    (noRequirements : ∀ var, store.requirements? var = none)
    (leftExact : (pruneUnit left store).2.exact = true)
    (rightExact : (pruneUnit right store).2.exact = true)
    (exact : (unifyUnits registry left right store).2.exact = true)
    (equates : store.Equates left right values) :
    (unifyUnits registry left right store).1 = .ok () ∧ ∃ later : Assignment,
      later.Satisfies (unifyUnits registry left right store).2 ∧
        ∀ var, var.index < store.units.size → store.unitLink? var = none →
          values var = later.units var := by
  let base : Assignment := ⟨fun _ => .text, values⟩
  have solution : Assignment.IsSolution (store.extend base) store :=
    wellformed.extend_isSolution_unrequired noRequirements base
  have equal : (store.extend base).unit left = (store.extend base).unit right := by
    rw [wellformed.extend_pruneUnit leftCovered leftExact,
      wellformed.extend_pruneUnit rightCovered rightExact]
    exact equates
  obtain ⟨_, later, done, solved, continues⟩ :=
    (unifyUnits_solves 0 registry wellformed leftCovered rightCovered).keeps _ solution equal exact
  refine ⟨done, later, solved.links, ?_⟩
  intro var within free
  rw [continues.units var within]
  exact (extend_units_unbound base free).symm

/-- Where units have been unified, what solves the store afterwards makes them equal. -/
theorem equates_of_unifyUnits (wellformed : store.Wellformed) (leftCovered : store.CoversUnit left)
    (rightCovered : store.CoversUnit right)
    (leftExact : (pruneUnit left store).2.exact = true)
    (rightExact : (pruneUnit right store).2.exact = true)
    (unified : unifyUnits registry left right store = (.ok (), after))
    (exact : after.exact = true) : ∃ values, store.Equates left right values := by
  have yields := (unifyUnits_solves 0 registry wellformed leftCovered rightCovered).yields
  have steps := yields.steps
  have agree := yields.ends
  rw [unified] at steps agree
  have extended := Solving.run_extends steps
  let base : Assignment := ⟨fun _ => .text, fun _ => 0⟩
  have satisfies := (extended.wellformed wellformed).extend_satisfies base
  have before := extended.satisfies wellformed _ (.inr exact) satisfies
  refine ⟨(after.extend base).units, ?_⟩
  calc (pruneUnit left store).1.value (after.extend base).units
      = (after.extend base).unit left := unit_pruneUnit wellformed leftCovered leftExact before
    _ = (after.extend base).unit right := agree _ (.inr exact) satisfies
    _ = (pruneUnit right store).1.value (after.extend base).units :=
        (unit_pruneUnit wellformed rightCovered rightExact before).symm

/-- Names that are in neither unit are not needed to make them equal. -/
theorem Equates.exists_madeOf {declared : Set String} (equates : store.Equates left right values)
    (leftDeclared : ∀ name ∈ (pruneUnit left store).1.names.keys, name ∈ declared)
    (rightDeclared : ∀ name ∈ (pruneUnit right store).1.names.keys, name ∈ declared) :
    ∃ values, MadeOf declared values ∧ store.Equates left right values := by
  classical
  refine ⟨fun var => (values var).filter (· ∈ declared), ?_, ?_⟩
  · intro var name nonzero
    by_contra undeclared
    exact nonzero (Finsupp.filter_apply_neg _ _ undeclared)
  · unfold Equates
    rw [UnitTerm.value_filter declared _ values leftDeclared,
      UnitTerm.value_filter declared _ values rightDeclared, equates]

theorem pruneUnit_eq_of_unifyUnits (wellformed : store.Wellformed)
    (leftCovered : store.CoversUnit left) (rightCovered : store.CoversUnit right)
    (exactly : store.RunsExactly (unifyUnits registry left right))
    (done : (unifyUnits registry left right store).1 = .ok ())
    (leftExactly : (unifyUnits registry left right store).2.RunsExactly (pruneUnit left))
    (rightExactly : (unifyUnits registry left right store).2.RunsExactly (pruneUnit right)) :
    (pruneUnit left (unifyUnits registry left right store).2).1 =
      (pruneUnit right (unifyUnits registry left right store).2).1 := by
  obtain ⟨found, alone, _⟩ := (unifyUnits_onUnits registry left right).runs exactly
  obtain ⟨leftFound, _, leftExact⟩ := (pruneUnit_onUnits left).runs leftExactly
  obtain ⟨rightFound, _, rightExact⟩ := (pruneUnit_onUnits right).runs rightExactly
  rw [leftFound, rightFound]
  rw [alone] at leftExact rightExact ⊢
  rw [found] at done
  have wellformedAlone := wellformed.unitsAlone
  have yields :=
    (unifyUnits_solves 0 registry wellformedAlone leftCovered rightCovered).yields
  have agree := yields.ends
  rw [done] at agree
  have extended := Solving.run_extends yields.steps
  exact agree.pruneUnit_eq (extended.wellformed wellformedAlone) (extended.coversUnit leftCovered)
    (extended.coversUnit rightCovered) leftExact rightExact

end Solutions

end Store

namespace Session

open Store

variable {session : Session} {left right : InferredUnit}

/-- Units that have been unified are pruned to the same unit if no exponent stops at the limit in
unifying or pruning them. It does not matter whether one did before. -/
theorem unified_units_prune_alike (reachable : session.Reachable) (registry : Option Registry)
    (leftCovered : session.store.CoversUnit left) (rightCovered : session.store.CoversUnit right)
    (exactly : session.store.RunsExactly (Unification.unifyUnits registry left right)) :
    let unified := Unification.unifyUnits registry left right session.store
    unified.1 = .ok () → unified.2.RunsExactly (Store.pruneUnit left) →
      unified.2.RunsExactly (Store.pruneUnit right) →
      (Store.pruneUnit left unified.2).1 = (Store.pruneUnit right unified.2).1 := by
  intro unified done leftExactly rightExactly
  exact pruneUnit_eq_of_unifyUnits reachable.wellformed leftCovered rightCovered exactly done
    leftExactly rightExactly

theorem unified_units_prune_alike_after_limit :
    let most : InferredUnit := (UnitTerm.named "m").raise exponentLimit
    let session := ((((start .empty {}).after .freshUnit).after .freshUnit).after .freshUnit).after
      (.unifyUnits (most.multiply (.ofVar ⟨2⟩)) most.reciprocal)
    let left : InferredUnit := (UnitTerm.ofVar ⟨0⟩).raise 2
    let right : InferredUnit := ((UnitTerm.ofVar ⟨1⟩).raise 3).multiply (.named "m")
    let unified := Unification.unifyUnits none left right session.store
    session.store.exact = false ∧ unified.1 = .ok () ∧
      session.store.RunsExactly (Unification.unifyUnits none left right) ∧
      unified.2.RunsExactly (Store.pruneUnit left) ∧
      unified.2.RunsExactly (Store.pruneUnit right) ∧
      (Store.pruneUnit left unified.2).1 = (Store.pruneUnit right unified.2).1 := by
  intro most session left right unified
  have reachable : session.Reachable :=
    (((((reachable_start .empty {}).after .freshUnit trivial).after .freshUnit trivial).after
      .freshUnit trivial).after (.unifyUnits (most.multiply (.ofVar ⟨2⟩)) most.reciprocal)
        ⟨by decide +kernel, by decide +kernel⟩)
  have leftCovered : session.store.CoversUnit left := by decide +kernel
  have rightCovered : session.store.CoversUnit right := by decide +kernel
  have limited : session.store.exact = false := by decide +kernel
  have done : unified.1 = .ok () := by decide +kernel
  have exactly : session.store.RunsExactly (Unification.unifyUnits none left right) := by
    decide +kernel
  have leftExactly : unified.2.RunsExactly (Store.pruneUnit left) := by decide +kernel
  have rightExactly : unified.2.RunsExactly (Store.pruneUnit right) := by decide +kernel
  have alike := unified_units_prune_alike reachable none leftCovered rightCovered exactly done
    leftExactly rightExactly
  exact ⟨limited, done, exactly, leftExactly, rightExactly, alike⟩

/-- Units that have been unified are pruned to different units where an exponent stops at the limit:
in the first example this happens in pruning alone, in the second in unification alone. -/
theorem unified_units_differ_at_limit :
    let session := ((start .empty {}).after .freshUnit).after .freshUnit
    let left : InferredUnit :=
      ((UnitTerm.ofVar ⟨0⟩).raise 3).multiply ((UnitTerm.ofVar ⟨1⟩).raise (-1073741823))
    let right : InferredUnit :=
      ((UnitTerm.ofVar ⟨0⟩).raise 2).multiply ((UnitTerm.ofVar ⟨1⟩).raise 1073741824)
    let unified := Unification.unifyUnits none left right session.store
    let most : InferredUnit := (UnitTerm.named "m").raise exponentLimit
    let product := most.multiply (.ofVar ⟨0⟩)
    let solved := Unification.unifyUnits none product most.reciprocal session.store
    session.Reachable ∧
      (session.store.CoversUnit left ∧ session.store.CoversUnit right ∧ unified.1 = .ok () ∧
        unified.2.exact = true ∧
        (Store.pruneUnit left unified.2).1 ≠ (Store.pruneUnit right unified.2).1) ∧
      session.store.CoversUnit product ∧ session.store.CoversUnit most.reciprocal ∧
        solved.1 = .ok () ∧ solved.2.RunsExactly (Store.pruneUnit product) ∧
        solved.2.RunsExactly (Store.pruneUnit most.reciprocal) ∧
        (Store.pruneUnit product solved.2).1 ≠ (Store.pruneUnit most.reciprocal solved.2).1 := by
  intro session left right unified most product solved
  have reachable : session.Reachable :=
    ((reachable_start .empty {}).after .freshUnit trivial).after .freshUnit trivial
  refine ⟨reachable, ⟨?_, ?_, rfl, ?_, ?_⟩, ?_, ?_, ?_, ?_, ?_, ?_⟩
  all_goals decide +kernel

/-- Unification of units succeeds exactly if products of declared names, as values for the unbound
variables, make both units equal. Then both are pruned to the same unit, and all values that make
them equal are instances of what the variables are pruned to. -/
theorem unifyUnits_most_general (reachable : session.Reachable) (registry : Option Registry)
    (leftCovered : session.store.CoversUnit left) (rightCovered : session.store.CoversUnit right)
    (exactly : session.store.UnifiesExactly registry left right) :
    let before := session.store
    let after := (Unification.unifyUnits registry left right before).2
    (∀ declared : Set String,
      (∀ name ∈ (Store.pruneUnit left before).1.names.keys, name ∈ declared) →
      (∀ name ∈ (Store.pruneUnit right before).1.names.keys, name ∈ declared) →
      ((Unification.unifyUnits registry left right before).1 = .ok () ↔
        ∃ values, MadeOf declared values ∧ before.Equates left right values)) ∧
    ((Unification.unifyUnits registry left right before).1 = .ok () →
      (Store.pruneUnit left after).1 = (Store.pruneUnit right after).1 ∧
      ∀ values, before.Equates left right values →
        ∃ later, after.Specializes before values later) := by
  intro before after
  have wellformed := reachable.wellformed.unitsAlone
  obtain ⟨leftFound, _, leftExact⟩ := (pruneUnit_onUnits left).runs exactly.leftBefore
  obtain ⟨rightFound, _, rightExact⟩ := (pruneUnit_onUnits right).runs exactly.rightBefore
  obtain ⟨found, alone, exact⟩ := (unifyUnits_onUnits registry left right).runs exactly.unifying
  have equates_iff (values : UnitVar → ExactUnit) :
      before.Equates left right values ↔ before.unitsAlone.Equates left right values := by
    unfold Equates
    rw [leftFound, rightFound]
  have keeps {values : UnitVar → ExactUnit} (equates : before.Equates left right values) :=
    unifyUnits_of_equates wellformed leftCovered rightCovered (fun _ => rfl) leftExact rightExact
      exact ((equates_iff values).mp equates)
  refine ⟨fun declared leftDeclared rightDeclared => ⟨fun done => ?_, ?_⟩, fun done => ⟨?_, ?_⟩⟩
  · obtain ⟨values, equates⟩ := equates_of_unifyUnits wellformed leftCovered rightCovered
      leftExact rightExact (Prod.ext (found.symm.trans done) rfl) exact
    exact ((equates_iff values).mpr equates).exists_madeOf leftDeclared rightDeclared
  · rintro ⟨values, _, equates⟩
    exact found.trans (keeps equates).1
  · exact pruneUnit_eq_of_unifyUnits reachable.wellformed leftCovered rightCovered
      exactly.unifying done exactly.leftAfter exactly.rightAfter
  · intro values equates
    obtain ⟨_, later, satisfies, units⟩ := keeps equates
    have steps :=
      (Unification.unifyUnits_solves 0 registry wellformed leftCovered rightCovered).yields.steps
    have extended := Solving.run_extends steps
    refine ⟨later.units, fun var within free => ?_⟩
    obtain ⟨varFound, _, varExact⟩ :=
      (pruneUnit_onUnits (.ofVar var)).runs (exactly.vars var within free)
    rw [varFound]
    rw [alone] at varExact ⊢
    have covered : before.unitsAlone.CoversUnit (.ofVar var) := Template.coversUnit_ofVar within
    calc values var = later.unit (.ofVar var) :=
          (units var within free).trans (later.unit_ofVar var).symm
      _ = later.unit (Store.pruneUnit (.ofVar var) _).1 :=
          (unit_pruneUnit (extended.wellformed wellformed) (extended.coversUnit covered) varExact
            satisfies).symm

theorem unifyUnits_most_general_coupled :
    let session := ((start .empty {}).after .freshUnit).after .freshUnit
    let left : InferredUnit := (UnitTerm.ofVar ⟨0⟩).raise 2
    let right : InferredUnit := ((UnitTerm.ofVar ⟨1⟩).raise 3).multiply (.named "m")
    let values (var : UnitVar) : ExactUnit := Finsupp.single "m" (if var.index = 0 then 2 else 1)
    let unified := Unification.unifyUnits none left right session.store
    session.store.UnifiesExactly none left right ∧ session.store.Equates left right values ∧
      unified.1 = .ok () ∧
      (Store.pruneUnit left unified.2).1 = (Store.pruneUnit right unified.2).1 ∧
      ∃ later, unified.2.Specializes session.store values later := by
  intro session left right values unified
  have reachable : session.Reachable :=
    ((reachable_start .empty {}).after .freshUnit trivial).after .freshUnit trivial
  have leftCovered : session.store.CoversUnit left := by decide +kernel
  have rightCovered : session.store.CoversUnit right := by decide +kernel
  have exactly : session.store.UnifiesExactly none left right := by
    refine ⟨by decide +kernel, by decide +kernel, by decide +kernel, by decide +kernel,
      by decide +kernel, ?_⟩
    rintro ⟨index⟩ (within : index < 2) _
    have either : index = 0 ∨ index = 1 := by omega
    rcases either with rfl | rfl
    · decide +kernel
    · decide +kernel
  have equates : session.store.Equates left right values := by
    have leftPruned : (Store.pruneUnit left session.store).1 = left := by decide +kernel
    have rightPruned : (Store.pruneUnit right session.store).1 = right := by decide +kernel
    have leftNames : left.names.toList = [] := by decide +kernel
    have leftVars : left.vars.toList = [(⟨0⟩, 2)] := by decide +kernel
    have rightNames : right.names.toList = [("m", 1)] := by decide +kernel
    have rightVars : right.vars.toList = [(⟨1⟩, 3)] := by decide +kernel
    unfold Equates
    rw [leftPruned, rightPruned]
    simp only [UnitTerm.value, PowerProduct.value_eq_sum, leftNames, leftVars, rightNames,
      rightVars]
    simp [values, UnitGroup.named, ← Finsupp.single_add]
  have general := unifyUnits_most_general reachable none leftCovered rightCovered exactly
  have done : unified.1 = .ok () :=
    (general.1 Set.univ (fun _ _ => trivial) fun _ _ => trivial).mpr
      ⟨values, fun _ _ _ => trivial, equates⟩
  have solved := general.2 done
  exact ⟨exactly, equates, done, solved.1, solved.2 values equates⟩

end Session

end SheetTypes
