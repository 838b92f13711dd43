import SheetTypes.Proofs.Unification.Descent

/-!
Unification of units. Solving `quotient = 1` in rounds is sound and complete: where it succeeds, the
quotient is one in all solutions of the store, and every solution that makes it one is kept.
-/

set_option autoImplicit false

namespace SheetTypes

namespace UnitTerm

variable {ν G : Type} [Ord ν] [Std.LawfulEqOrd ν] [Std.TransOrd ν] [UnitGroup G] {unit : UnitTerm ν}

theorem value_solved (meaning : ν → G) {number : Int}
    (divides : ∀ other ∈ unit.exponents, number ∣ other) :
    number • (unit.mapExponents (solvedExponent number)).value meaning = -unit.value meaning := by
  have powers {κ : Type} [Ord κ] [Std.LawfulEqOrd κ] [Std.TransOrd κ] (product : PowerProduct κ)
      (each : ∀ key, number ∣ product.exponent key) :
      number • (product.mapExponents (solvedExponent number)).powers = -product.powers := by
    ext key
    rw [Finsupp.smul_apply, Finsupp.neg_apply, PowerProduct.powers_apply,
      PowerProduct.powers_apply,
      PowerProduct.exponent_mapExponents_of_le product (solvedExponent_le number)]
    exact Int.mul_tdiv_cancel' (Int.dvd_neg.mpr (each key))
  obtain ⟨names, vars⟩ := dvd_exponents_iff.mp divides
  unfold value mapExponents PowerProduct.value
  rw [smul_add, ← map_zsmul, ← map_zsmul, powers unit.names names, powers unit.vars vars, map_neg,
    map_neg, neg_add]

theorem value_eraseVar (meaning : ν → G) (unit : UnitTerm ν) (var : ν) :
    unit.value meaning =
      (unit.eraseVar var).value meaning + unit.vars.exponent var • meaning var := by
  unfold value eraseVar
  rw [PowerProduct.value_erase meaning unit.vars var, add_assoc]

/-- A variable that does not occur in a unit can be multiplied onto it within the limit. -/
theorem value_ofVar_multiply (meaning : ν → G) {var : ν} (absent : var ∉ unit.vars.keys) :
    ((ofVar var).multiply unit).value meaning = meaning var + unit.value meaning := by
  have names : ((ofVar var).multiply unit).names = unit.names := by
    refine PowerProduct.ext_exponent fun name => ?_
    unfold multiply ofVar
    rw [PowerProduct.exponent_multiply, PowerProduct.exponent_one, Int.zero_add,
      PowerProduct.clampToLimit_exponent]
  have vars : ((ofVar var).multiply unit).vars.powers =
      Finsupp.single var 1 + unit.vars.powers := by
    unfold multiply ofVar
    rw [PowerProduct.powers_multiply, PowerProduct.powers_ofKey]
    intro other
    by_cases same : other = var
    · rw [PowerProduct.mem_keys, ne_eq, not_not] at absent
      rw [same, absent, PowerProduct.exponent_ofKey_self]
      decide
    · rw [PowerProduct.exponent_ofKey_of_ne same, Int.zero_add]
      exact unit.vars.exponent_within other
  unfold value PowerProduct.value
  rw [names, vars, map_add, Finsupp.linearCombination_single, one_smul]
  exact add_left_comm _ _ _

end UnitTerm

namespace Unification

open Store

variable {store : Store} {assignment : Assignment} {left quotient right unit : InferredUnit}
  {number : Int} {var : UnitVar}

/-- Solving an equation only makes steps of solving; where it succeeds, the quotient is one. -/
theorem solveWithin_yields (depth rounds : Nat) (quotient : InferredUnit)
    (wellformed : store.Wellformed) (covered : store.CoversUnit quotient) :
    Yields (Solving depth) store (solveWithin rounds quotient)
      (Outcome Harmless fun found after => found = true → after.exact = true →
        ∀ {ν G : Type} [UnitGroup G] (valuation : Valuation ν G), valuation.Satisfies after →
          valuation.unit quotient = 0) := by
  induction rounds generalizing store quotient with
  | zero => exact .ok fun impossible => by cases impossible
  | succ rounds ih =>
    generalize done : pruneUnit quotient store = result
    obtain ⟨pruned, middle⟩ := result
    obtain ⟨steps, reduced⟩ := pruneUnit_reduced wellformed covered done
    have wellformedMiddle := (Shortens.settled steps).wellformed wellformed
    have shortens := Shortens.solving steps depth
    have round := solveRound_round done reduced.covered reduced.free
    generalize computed : solveRound quotient store = outcome at round
    cases round with
    | ground none =>
      apply Agree.of_apply (solveWithin_of_done computed rounds) shortens
      intro scalar exact ν G _ valuation satisfies
      rw [← reduced.value exact valuation satisfies]
      obtain ⟨names, vars⟩ := Bool.and_eq_true_iff.mp scalar
      unfold Valuation.unit UnitTerm.value
      rw [PowerProduct.isOne_iff.mp names, PowerProduct.isOne_iff.mp vars,
        PowerProduct.value_one, PowerProduct.value_one, add_zero]
    | @solved var number chosen divides =>
      have present := mem_keys_of_pivot chosen
      have step := (linkable_solution reduced.covered reduced.free present number).step depth
      apply Agree.of_apply (solveWithin_of_done computed rounds) (shortens.tail step)
      intro _ exact ν G _ valuation satisfies
      have linked := satisfies.units var _
        (unitLink?_setUnit_self (reduced.covered var present))
      have before := step.extends.satisfies wellformedMiddle valuation (.inr exact) satisfies
      rw [← reduced.value (step.extends.exact exact) valuation before, Valuation.unit,
        UnitTerm.value_eraseVar valuation.units pruned var, (exponent_of_pivot chosen).1,
        linked, Valuation.unit, solution, UnitTerm.value_solved valuation.units divides,
        add_neg_cancel]
    | alone chosen indivisible single =>
      apply Agree.of_apply (solveWithin_of_done computed rounds) shortens
      intro impossible
      cases impossible
    | @reduced var number chosen indivisible several =>
      have present := mem_keys_of_pivot chosen
      have fresh : Solving depth middle middle.withUnit := .freshUnit middle
      have step := (linkable_reduction reduced.covered reduced.free present number).step depth
      have extended := fresh.extends.trans step.extends
      have rest := ih pruned (extended.wellformed wellformedMiddle)
        (extended.coversUnit reduced.covered)
      refine ⟨rfl, ?_, ?_⟩
      · rw [solveWithin_of_more computed rounds]
        exact ((shortens.tail fresh).tail step).trans rest.steps
      · rw [solveWithin_of_more computed rounds]
        refine (rest.infer_mono ?_ fun _ harmless => harmless).ends
        intro found after steps sound isTrue exact ν G _ valuation satisfies
        have whole := extended.trans (Solving.run_extends steps)
        have before := whole.satisfies wellformedMiddle valuation (.inr exact) satisfies
        rw [← reduced.value (whole.exact exact) valuation before]
        exact sound isTrue exact valuation satisfies

private theorem value_names (product : PowerProduct String) :
    product.value (UnitGroup.named : String → ExactUnit) = product.powers := by
  unfold PowerProduct.value
  have same : (UnitGroup.named : String → ExactUnit) = fun name => Finsupp.single name 1 := rfl
  rw [same, Finsupp.linearCombination_apply]
  simp

/-- If a number divides the exponents of all variables in an equation that has a solution, then it
divides the exponents of all names. -/
theorem dvd_names (zero : assignment.unit unit = 0)
    (divides : ∀ var, number ∣ unit.vars.exponent var) (name : String) :
    number ∣ unit.names.exponent name := by
  have sum : unit.names.exponent name + (unit.vars.value assignment.units) name = 0 := by
    have whole := DFunLike.congr_fun zero name
    unfold Valuation.unit UnitTerm.value at whole
    rw [value_names] at whole
    exact whole
  have vars : number ∣ (unit.vars.value assignment.units) name := by
    unfold PowerProduct.value
    rw [Finsupp.linearCombination_apply, Finsupp.sum, Finsupp.finsetSum_apply]
    refine Finset.dvd_sum fun var _ => ?_
    rw [Finsupp.smul_apply, smul_eq_mul]
    exact Dvd.dvd.mul_right (divides var) _
  rw [eq_neg_of_add_eq_zero_left sum]
  exact Int.dvd_neg.mpr vars

/-- An equation without variables that has a solution holds. -/
theorem isScalar_of_pivot (none : pivot? unit.vars.toList = none)
    (zero : assignment.unit unit = 0) : unit.isScalar = true := by
  have vars : unit.vars = .one := by
    rw [← PowerProduct.isOne_iff]
    cases listed : unit.vars.toList with
    | nil => exact List.isEmpty_iff.mpr listed
    | cons power powers =>
      rw [listed] at none
      cases none
  have names : unit.names = .one := by
    rw [Valuation.unit, UnitTerm.value, vars, PowerProduct.value_one, add_zero,
      value_names] at zero
    exact PowerProduct.powers_injective (zero.trans PowerProduct.powers_one.symm)
  rw [UnitTerm.isScalar, names, vars]
  rfl

/-- Every solution of an equation has the value for the chosen variable that it is solved by. -/
theorem units_eq_solution (zero : assignment.unit quotient = 0)
    (chosen : pivot? quotient.vars.toList = some (var, number))
    (divides : ∀ other ∈ (quotient.eraseVar var).exponents, number ∣ other) :
    assignment.units var = assignment.unit (solution quotient var number) := by
  apply smul_right_injective ExactUnit (exponent_of_pivot chosen).2
  have target : number • assignment.unit (solution quotient var number) =
      -assignment.unit (quotient.eraseVar var) :=
    UnitTerm.value_solved assignment.units divides
  have whole : assignment.unit (quotient.eraseVar var) + number • assignment.units var = 0 := by
    rw [← zero, ← (exponent_of_pivot chosen).1]
    exact (UnitTerm.value_eraseVar assignment.units quotient var).symm
  exact (eq_neg_of_add_eq_zero_right whole).trans target.symm

theorem unit_reduction {ν G : Type} [UnitGroup G] (valuation : Valuation ν G)
    (covered : store.CoversUnit quotient) (var : UnitVar) (number : Int) :
    valuation.unit (reduction store quotient var number) = valuation.units ⟨store.units.size⟩ +
      valuation.unit ((quotient.eraseVar var).mapExponents (reducedExponent number)) := by
  refine UnitTerm.value_ofVar_multiply valuation.units fun member => ?_
  have old := UnitTerm.mem_keys_erased (reducedExponent_le number) member
  exact Nat.lt_irrefl _ (covered _ old.1)

/-- An equation that has a solution but cannot be solved for the chosen variable has another
variable to go on with. -/
theorem exists_indivisible (zero : assignment.unit quotient = 0)
    (chosen : pivot? quotient.vars.toList = some (var, number))
    (indivisible : ¬∀ other ∈ (quotient.eraseVar var).exponents, number ∣ other) :
    ∃ other ∈ quotient.vars.keys, other ≠ var ∧ ¬number ∣ quotient.vars.exponent other := by
  by_contra none
  push Not at none
  have vars (other : UnitVar) : number ∣ quotient.vars.exponent other := by
    by_cases same : other = var
    · rw [same, (exponent_of_pivot chosen).1]
    · by_cases absent : quotient.vars.exponent other = 0
      · rw [absent]
        exact dvd_zero number
      · exact none other (PowerProduct.mem_keys.mpr absent) same
  have names (name : String) : number ∣ quotient.names.exponent name := dvd_names zero vars name
  apply indivisible
  rw [UnitTerm.dvd_exponents_iff]
  refine ⟨names, fun other => ?_⟩
  unfold UnitTerm.eraseVar
  by_cases same : other = var
  · rw [same, PowerProduct.exponent_erase_self]
    exact dvd_zero number
  · rw [PowerProduct.exponent_erase_of_ne quotient.vars same]
    exact vars other

/-- The values after a round that goes on: the new variable takes the value that is left. -/
noncomputable def continued (assignment : Assignment) (store : Store) (quotient : InferredUnit)
    (var : UnitVar) (number : Int) : Assignment where
  types := assignment.types
  units := Function.update assignment.units ⟨store.units.size⟩ (assignment.units var -
    assignment.unit ((quotient.eraseVar var).mapExponents (reducedExponent number)))

section Continued

variable (assignment : Assignment) (quotient : InferredUnit) (var : UnitVar) (number : Int)

theorem continued_fresh :
    (continued assignment store quotient var number).units ⟨store.units.size⟩ =
      assignment.units var -
        assignment.unit ((quotient.eraseVar var).mapExponents (reducedExponent number)) :=
  Function.update_self ..

theorem continued_of_ne {other : UnitVar} (old : other ≠ ⟨store.units.size⟩) :
    (continued assignment store quotient var number).units other = assignment.units other :=
  Function.update_of_ne old ..

theorem continued_continues :
    (continued assignment store quotient var number).Continues assignment store := by
  refine ⟨rfl, fun other inside => continued_of_ne assignment quotient var number ?_⟩
  rintro rfl
  exact Nat.lt_irrefl _ inside

variable {assignment quotient var}

theorem continued_isSolution (wellformed : store.Wellformed) (covered : store.CoversUnit quotient)
    (solution : assignment.IsSolution store) (within : var.index < store.units.size) :
    (continued assignment store quotient var number).IsSolution
      (store.withUnit.setUnit var (.link (reduction store quotient var number))) := by
  have continues : (continued assignment store quotient var number).Continues _ store :=
    continued_continues ..
  have restCovered : store.CoversUnit
      ((quotient.eraseVar var).mapExponents (reducedExponent number)) := fun next member =>
    covered next (UnitTerm.mem_keys_erased (reducedExponent_le number) member).1
  apply (solution.continues wellformed continues).withUnit.bindUnit
  · rw [units_size_withUnit]
    omega
  · rw [unit_reduction _ covered, continues.units var within, continued_fresh,
      continues.unit restCovered, sub_add_cancel]

end Continued

theorem solveWithin_keeps (rounds : Nat) (wellformed : store.Wellformed)
    (covered : store.CoversUnit quotient) (solution : assignment.IsSolution store)
    (zero : assignment.unit quotient = 0) (enough : Enough rounds quotient store)
    (exact : (solveWithin rounds quotient store).2.exact = true) :
    (solveWithin rounds quotient store).1 = .ok true ∧ ∃ later : Assignment,
      later.IsSolution (solveWithin rounds quotient store).2 ∧
        later.Continues assignment store := by
  induction rounds generalizing store quotient assignment with
  | zero => exact absurd enough.positive (Nat.lt_irrefl 0)
  | succ rounds ih =>
    generalize done : pruneUnit quotient store = result
    obtain ⟨pruned, middle⟩ := result
    obtain ⟨shortens, reduced⟩ := pruneUnit_reduced wellformed covered done
    have settled := Shortens.settled shortens
    have wellformedMiddle := settled.wellformed wellformed
    have solved (exactMiddle : middle.exact = true) :=
      solution.shortens wellformed shortens exactMiddle
    have zeroMiddle (exactMiddle : middle.exact = true) : assignment.unit pruned = 0 :=
      (reduced.value exactMiddle assignment (solved exactMiddle).links).trans zero
    have round := solveRound_round done reduced.covered reduced.free
    generalize computed : solveRound quotient store = outcome at round
    cases round with
    | ground none =>
      rw [solveWithin_of_done computed rounds] at exact ⊢
      refine ⟨?_, assignment, solved exact, .refl assignment store⟩
      rw [isScalar_of_pivot none (zeroMiddle exact)]
    | @solved var number chosen divides =>
      rw [solveWithin_of_done computed rounds] at exact ⊢
      refine ⟨rfl, assignment, ?_, .refl assignment store⟩
      exact (solved exact).bindUnit (reduced.covered var (mem_keys_of_pivot chosen))
        (units_eq_solution (zeroMiddle exact) chosen divides)
    | alone chosen indivisible single =>
      rw [solveWithin_of_done computed rounds] at exact
      obtain ⟨other, inside, different, _⟩ :=
        exists_indivisible (zeroMiddle exact) chosen indivisible
      have present := mem_keys_of_pivot chosen
      rw [size_eq_length, List.length_eq_one_iff] at single
      obtain ⟨only, all⟩ := single
      rw [all, List.mem_singleton] at inside present
      exact absurd (inside.trans present.symm) different
    | @reduced var number chosen indivisible several =>
      rw [solveWithin_of_more computed rounds] at exact ⊢
      have reducing : Reducing store quotient middle var number pruned _ :=
        ⟨done, shortens, reduced, chosen, indivisible, several, rfl⟩
      have wellformedNext := reducing.grows.wellformed wellformed
      have extended := extends_reduction reduced.covered reduced.free chosen
      have rest := solveWithin_yields 0 rounds pruned wellformedNext reducing.coversUnit
      have exactMiddle := (extended.trans (Solving.run_extends rest.steps)).exact exact
      have continues : (continued assignment middle pruned var number).Continues _ middle :=
        continued_continues ..
      have solvedNext := continued_isSolution number wellformedMiddle reduced.covered
        (solved exactMiddle) (reduced.covered var (mem_keys_of_pivot chosen))
      obtain ⟨success, later, solvedLast, further⟩ :=
        ih wellformedNext reducing.coversUnit solvedNext
          ((continues.unit reduced.covered).trans (zeroMiddle exactMiddle))
          (reducing.enough enough) exact
      have along := continues.trans further extended.unitCount
      exact ⟨success, later, solvedLast, along.settled settled⟩

/-- Units that differ are reported as such, unless the registry has no canonical form of one. -/
theorem unitMismatch_cases (registry : Option Registry) (left right : InferredUnit) :
    (∃ convertible, (unitMismatch registry left right).cause =
      .unitMismatch (InferredUnit.render left) (InferredUnit.render right) convertible) ∨
    ∃ declared unit, registry = some declared ∧ (unit = left.names ∨ unit = right.names) ∧
      declared.canonicalize unit = .error (unitMismatch registry left right) := by
  unfold unitMismatch
  split
  next declared source target leftGround rightGround =>
    split
    next failed =>
      right
      obtain ⟨unit, own, failedUnit⟩ := Registry.exists_canonicalize_error failed
      refine ⟨declared, unit, rfl, ?_, failedUnit⟩
      rw [UnitTerm.names_of_ground? leftGround, UnitTerm.names_of_ground? rightGround]
      exact own
    next => exact .inl ⟨false, rfl⟩
    next => exact .inl ⟨true, rfl⟩
  next => exact .inl ⟨false, rfl⟩

private theorem unitMismatch_harmless (registry : Option Registry) (left right : InferredUnit) :
    Harmless (unitMismatch registry left right) := by
  rcases unitMismatch_cases registry left right with ⟨convertible, cause⟩ | ⟨_, _, _, _, failed⟩
  · apply TypeError.not_blamesStore
    rw [TypeError.isInternal, cause]
    rfl
  · exact Registry.canonicalize_error failed

private theorem solveOrFail_solves (depth : Nat) {error : TypeError}
    (wellformed : store.Wellformed) (covered : store.CoversUnit quotient)
    (free : ∀ var ∈ quotient.vars.keys, store.unitLink? var = none) (harmless : Harmless error) :
    Solves depth store (do
        if ← solveWithin (solvingRounds quotient) quotient then return
        throw error)
      (fun assignment => assignment.unit quotient = 0)
      fun _ after => after.exact = true → ∀ {ν G : Type} [UnitGroup G] (valuation : Valuation ν G),
        valuation.Satisfies after → valuation.unit quotient = 0 := by
  have yields := solveWithin_yields depth (solvingRounds quotient) quotient wellformed covered
  constructor
  · refine yields.andThen fun found after steps sound => ?_
    cases found with
    | true => exact .ok (sound rfl)
    | false => exact .throw harmless
  · intro assignment solution zero exact
    have keeps := solveWithin_keeps (solvingRounds quotient) wellformed covered solution zero
      (enough_solvingRounds free)
    generalize outcome : solveWithin (solvingRounds quotient) quotient store = result at keeps
    obtain ⟨found, after⟩ := result
    cases found with
    | error failure =>
      rw [error_bind_apply outcome] at exact
      cases (keeps exact).1
    | ok found =>
      rw [ok_bind_apply outcome] at exact ⊢
      cases found with
      | false => cases (keeps exact).1
      | true =>
        obtain ⟨_, later, solved, continues⟩ := keeps exact
        exact ⟨(), later, rfl, solved, continues⟩

/-- The quotient of two reduced units consists of unbound variables too. -/
theorem quotient_free {first second : InferredUnit} (leftReduced : store.Reduced left first)
    (rightReduced : store.Reduced right second) :
    store.CoversUnit (first.multiply (second.raise (-1))) ∧
      ∀ var ∈ (first.multiply (second.raise (-1))).vars.keys, store.unitLink? var = none := by
  constructor
  · intro var member
    exact (UnitTerm.mem_keys_multiply_raise member).elim (leftReduced.covered var)
      (rightReduced.covered var)
  · intro var member
    exact (UnitTerm.mem_keys_multiply_raise member).elim (leftReduced.free var)
      (rightReduced.free var)

theorem unifyUnits_solves (depth : Nat) (registry : Option Registry)
    (wellformed : store.Wellformed) (leftCovered : store.CoversUnit left)
    (rightCovered : store.CoversUnit right) :
    Solves depth store (unifyUnits registry left right)
      (fun assignment => assignment.unit left = assignment.unit right)
      fun _ after => after.UnitsAgree left right := by
  unfold unifyUnits
  refine .shorten wellformed
    (pruneUnit_agree wellformed leftCovered pure (Nat.lt_succ_self _)).left ?_
  intro leftPruned first firstSteps leftReduced
  have firstSettled := Shortens.settled firstSteps
  have firstWellformed := firstSettled.wellformed wellformed
  refine .shorten firstWellformed (pruneUnit_agree firstWellformed
    (firstSettled.coversUnit.mpr rightCovered) pure (Nat.lt_succ_self _)).left ?_
  intro rightPruned second secondSteps rightReduced
  have secondSettled := Shortens.settled secondSteps
  have secondWellformed := secondSettled.wellformed firstWellformed
  replace leftReduced := leftReduced.later firstWellformed secondSettled
  split
  next same =>
    refine .ok fun _ _ _ valuation faithful satisfies => ?_
    rw [← leftReduced.faithful faithful satisfies, same, rightReduced.faithful faithful satisfies]
  next different =>
    refine .shorten secondWellformed (multiplyPower_yields leftPruned rightPruned (-1)) ?_
    rintro quotient third thirdSteps ⟨rfl, value⟩
    have settled := Shortens.settled thirdSteps
    have thirdWellformed := settled.wellformed secondWellformed
    replace leftReduced := leftReduced.later secondWellformed settled
    replace rightReduced := rightReduced.later secondWellformed settled
    have equation (exact : third.exact = true) {ν G : Type} [UnitGroup G]
        (valuation : Valuation ν G) (satisfies : valuation.Satisfies third) :
        valuation.unit (leftPruned.multiply (rightPruned.raise (-1))) = 0 ↔
          valuation.unit left = valuation.unit right := by
      rw [value exact valuation, leftReduced.value exact valuation satisfies,
        rightReduced.value exact valuation satisfies, neg_one_smul, ← sub_eq_add_neg, sub_eq_zero]
    obtain ⟨covered, free⟩ := quotient_free leftReduced rightReduced
    refine (solveOrFail_solves depth thirdWellformed covered free
      (unitMismatch_harmless registry leftPruned rightPruned)).mono_goal ?_ |>.mono_post ?_
    · intro assignment exact solution same
      exact (equation exact assignment solution.links).mpr same
    · intro _ after steps sound ν G _ valuation faithful satisfies
      rcases faithful with trivial | exact
      · exact Subsingleton.elim _ _
      · have extended := Solving.run_extends steps
        have before := extended.satisfies thirdWellformed valuation (.inr exact) satisfies
        exact (equation (extended.exact exact) valuation before).mp
          (sound exact valuation satisfies)

end Unification

end SheetTypes
