import SheetTypes.Proofs.Unification.Units

/-!
Attempts to unify units, step by step. Both units are pruned, and their quotient is solved in
rounds. An attempt that fails has linked variables, but only to units in which new variables stand
for what is left of them: all solutions from before are solutions afterwards, with the right values
for the new variables.
-/

set_option autoImplicit false

namespace SheetTypes

section Groups

variable {κ ν G : Type} [Ord κ] [Std.LawfulEqOrd κ] [Ord ν] [Std.LawfulEqOrd ν]

theorem PowerProduct.value_mem [AddCommGroup G] {group : AddSubgroup G} {meaning : κ → G}
    {product : PowerProduct κ} (each : ∀ key ∈ product.keys, meaning key ∈ group) :
    product.value meaning ∈ group := by
  rw [value_eq_sum]
  apply list_sum_mem
  intro value member
  obtain ⟨power, inside, rfl⟩ := List.mem_map.mp member
  exact group.zsmul_mem (each power.1 (mem_keys_of_toList inside)) power.2

/-- A unit has its value where its names and its variables have theirs. -/
theorem UnitTerm.value_mem [UnitGroup G] {group : AddSubgroup G} {meaning : ν → G}
    {unit : UnitTerm ν} (names : ∀ name ∈ unit.names.keys, UnitGroup.named name ∈ group)
    (vars : ∀ var ∈ unit.vars.keys, meaning var ∈ group) : unit.value meaning ∈ group :=
  group.add_mem (PowerProduct.value_mem names) (PowerProduct.value_mem vars)

end Groups

namespace Unification

open Store

variable {store : Store}

def unitQuotient (left right : InferredUnit) : StateM Store InferredUnit := do
  let left ← pruneUnit left
  let right ← pruneUnit right
  multiplyPower left right (-1)

/-- What is known of the quotient before the first round. -/
theorem unitQuotient_free {left right : InferredUnit} (wellformed : store.Wellformed)
    (leftCovered : store.CoversUnit left) (rightCovered : store.CoversUnit right) :
    store.Shortens (unitQuotient left right store).2 ∧
      (unitQuotient left right store).2.CoversUnit (unitQuotient left right store).1 ∧
      ∀ var ∈ (unitQuotient left right store).1.vars.keys,
        (unitQuotient left right store).2.unitLink? var = none := by
  obtain ⟨firstSteps, leftReduced⟩ := pruneUnit_reduced wellformed leftCovered rfl
  have first := Shortens.settled firstSteps
  have firstWellformed := first.wellformed wellformed
  obtain ⟨secondSteps, rightReduced⟩ :=
    pruneUnit_reduced firstWellformed (first.coversUnit.mpr rightCovered) rfl
  have second := Shortens.settled secondSteps
  obtain ⟨covered, free⟩ := quotient_free (leftReduced.later firstWellformed second) rightReduced
  exact ⟨(firstSteps.trans secondSteps).tail (.note _ _), covered, free⟩

theorem solveWithin_succeeds (rounds : Nat) {quotient : InferredUnit}
    (wellformed : store.Wellformed) (covered : store.CoversUnit quotient) :
    ∃ found after, solveWithin rounds quotient store = (.ok found, after) := by
  induction rounds generalizing quotient store with
  | zero => exact ⟨false, store, rfl⟩
  | succ rounds ih =>
    rcases solveRound_cases wellformed covered with ⟨found, last, ended⟩ | ⟨next, after, more⟩
    · exact ⟨found, last, solveWithin_of_done ended rounds⟩
    · obtain ⟨_, _, _, reducing⟩ := solveRound_more wellformed covered more
      rw [solveWithin_of_more more]
      exact ih (reducing.grows.wellformed wellformed) reducing.coversUnit

section Unifying

variable (registry : Option Registry) {left right : InferredUnit}

theorem unifyUnits_of_eq
    (same : (pruneUnit left store).1 = (pruneUnit right (pruneUnit left store).2).1) :
    unifyUnits registry left right store =
      (.ok (), (pruneUnit right (pruneUnit left store).2).2) := by
  rw [unifyUnits, lift_bind_apply, lift_bind_apply, if_pos same]
  rfl

/-- Units that differ after pruning are unified if their quotient has a solution. -/
theorem unifyUnits_of_ne {found : Bool} {after : Store}
    (different : (pruneUnit left store).1 ≠ (pruneUnit right (pruneUnit left store).2).1)
    (solved : solveWithin (solvingRounds (unitQuotient left right store).1)
      (unitQuotient left right store).1 (unitQuotient left right store).2 = (.ok found, after)) :
    unifyUnits registry left right store = (if found then .ok () else .error
      (unitMismatch registry (pruneUnit left store).1
        (pruneUnit right (pruneUnit left store).2).1), after) := by
  have quotient : multiplyPower (pruneUnit left store).1
      (pruneUnit right (pruneUnit left store).2).1 (-1)
      (pruneUnit right (pruneUnit left store).2).2 = unitQuotient left right store := rfl
  rw [unifyUnits, lift_bind_apply, lift_bind_apply, if_neg different, lift_bind_apply, quotient,
    ok_bind_apply solved]
  cases found with
  | true => rfl
  | false => rfl

/-- Where unification fails, the quotient has no solution. -/
theorem solveWithin_of_failed {registry : Option Registry} {error : TypeError} {after : Store}
    (wellformed : store.Wellformed) (leftCovered : store.CoversUnit left)
    (rightCovered : store.CoversUnit right)
    (failed : unifyUnits registry left right store = (.error error, after)) :
    solveWithin (solvingRounds (unitQuotient left right store).1)
      (unitQuotient left right store).1 (unitQuotient left right store).2 = (.ok false, after) := by
  have different : (pruneUnit left store).1 ≠ (pruneUnit right (pruneUnit left store).2).1 := by
    intro same
    rw [unifyUnits_of_eq registry same] at failed
    cases failed
  obtain ⟨shortens, covered, _⟩ := unitQuotient_free wellformed leftCovered rightCovered
  obtain ⟨found, last, solved⟩ :=
    solveWithin_succeeds (solvingRounds (unitQuotient left right store).1)
      ((Shortens.settled shortens).wellformed wellformed) covered
  rw [unifyUnits_of_ne registry different solved] at failed
  cases found with
  | true => cases failed
  | false =>
    cases failed
    exact solved

end Unifying

/-- Whether the values of the unbound variables are in a group. -/
def FreeIn (group : AddSubgroup ExactUnit) (assignment : Assignment) (store : Store) : Prop :=
  ∀ var, store.unitLink? var = none → assignment.units var ∈ group

section Unsolved

variable {group : AddSubgroup ExactUnit} {assignment : Assignment} {quotient : InferredUnit}

theorem FreeIn.settled {after : Store} (inGroup : FreeIn group assignment store)
    (settled : store.Settled after) : FreeIn group assignment after :=
  fun var free => inGroup var (settled.unitLink?_none.mp free)

theorem Reducing.names_next {middle after : Store} {var : UnitVar} {number : Int}
    {next : InferredUnit} (reducing : Reducing store quotient middle var number next after)
    {name : String} (member : name ∈ (pruneUnit next after).1.names.keys) :
    name ∈ next.names.keys := by
  rw [reducing.pruneUnit_next, PowerProduct.mem_keys, exponent_remainder_name reducing.chosen]
    at member
  rw [PowerProduct.mem_keys]
  intro absent
  rw [absent] at member
  exact member (leftover_zero number)

/-- A round that goes on takes nothing from the solutions: the new variable has the value that is
left, and that is made of the same values as before. -/
theorem Reducing.exists_freeIn {middle after : Store} {var : UnitVar} {number : Int}
    {next : InferredUnit} (reducing : Reducing store quotient middle var number next after)
    (wellformed : middle.Wellformed) (solution : assignment.IsSolution middle)
    (inGroup : FreeIn group assignment middle)
    (known : ∀ name ∈ next.names.keys, UnitGroup.named name ∈ group) :
    ∃ later : Assignment, later.IsSolution after ∧ later.Continues assignment middle ∧
      FreeIn group later after := by
  have present := mem_keys_of_pivot reducing.chosen
  have free := reducing.reduced.free
  have within := reducing.reduced.covered var present
  rw [reducing.linked]
  refine ⟨continued assignment middle next var number,
    continued_isSolution number wellformed reducing.reduced.covered solution within,
    continued_continues .., ?_⟩
  intro other unbound
  by_cases new : other = ⟨middle.units.size⟩
  · rw [new, continued_fresh]
    apply group.sub_mem (inGroup var (free var present))
    apply UnitTerm.value_mem
    · intro name member
      exact known name (PowerProduct.mem_keys_mapExponents (reducedExponent_le number) member)
    · intro old member
      exact inGroup old (free old (UnitTerm.mem_keys_erased (reducedExponent_le number) member).1)
  · have different : other ≠ var := by
      intro same
      rw [same, unitLink?_setUnit_self] at unbound
      · cases unbound
      · rw [units_size_withUnit]
        omega
    rw [unitLink?_setUnit_of_ne different, unitLink?_withUnit] at unbound
    rw [continued_of_ne assignment next var number new]
    exact inGroup other unbound

/-- Solutions are kept where an equation has none among them. -/
theorem solveWithin_unsolved (rounds : Nat) (wellformed : store.Wellformed)
    (covered : store.CoversUnit quotient) (solution : assignment.IsSolution store)
    (inGroup : FreeIn group assignment store)
    (known : ∀ name ∈ (pruneUnit quotient store).1.names.keys, UnitGroup.named name ∈ group)
    {after : Store} (unsolved : solveWithin rounds quotient store = (.ok false, after))
    (exact : after.exact = true) :
    ∃ later : Assignment, later.IsSolution after ∧ later.Continues assignment store ∧
      FreeIn group later after := by
  induction rounds generalizing quotient store assignment with
  | zero =>
    cases unsolved
    exact ⟨assignment, solution, .refl assignment after, inGroup⟩
  | succ rounds ih =>
    generalize done : pruneUnit quotient store = result at known
    obtain ⟨pruned, middle⟩ := result
    obtain ⟨shortens, reduced⟩ := pruneUnit_reduced wellformed covered done
    have settled := Shortens.settled shortens
    have wellformedMiddle := settled.wellformed wellformed
    have round := solveRound_round done reduced.covered reduced.free
    generalize computed : solveRound quotient store = outcome at round
    have stays (exact : middle.exact = true) : assignment.IsSolution middle ∧
        assignment.Continues assignment store ∧ FreeIn group assignment middle :=
      ⟨solution.shortens wellformed shortens exact, .refl assignment store,
        inGroup.settled settled⟩
    cases round with
    | ground none =>
      rw [solveWithin_of_done computed rounds, Prod.mk.injEq] at unsolved
      rw [← unsolved.2] at exact ⊢
      exact ⟨assignment, stays exact⟩
    | solved chosen divides =>
      rw [solveWithin_of_done computed rounds] at unsolved
      cases unsolved
    | alone chosen indivisible single =>
      rw [solveWithin_of_done computed rounds] at unsolved
      cases unsolved
      exact ⟨assignment, stays exact⟩
    | @reduced var number chosen indivisible several =>
      rw [solveWithin_of_more computed rounds] at unsolved
      have reducing : Reducing store quotient middle var number pruned _ :=
        ⟨done, shortens, reduced, chosen, indivisible, several, rfl⟩
      have wellformedNext := reducing.grows.wellformed wellformed
      have extended := extends_reduction reduced.covered reduced.free chosen
      have steps :=
        (solveWithin_yields 0 rounds pruned wellformedNext reducing.coversUnit).steps
      rw [unsolved] at steps
      have exactMiddle := (extended.trans (Solving.run_extends steps)).exact exact
      obtain ⟨between, solved, continues, free⟩ := reducing.exists_freeIn wellformedMiddle
        (stays exactMiddle).1 (stays exactMiddle).2.2 known
      obtain ⟨later, solvedLater, further, freeLater⟩ := ih wellformedNext
        reducing.coversUnit solved free
        (fun name member => known name (reducing.names_next member)) unsolved
      have along := continues.trans further extended.unitCount
      exact ⟨later, solvedLater, along.settled settled, freeLater⟩

end Unsolved

end Unification

end SheetTypes
