import SheetTypes.Proofs.Session.Reachability
import SheetTypes.Proofs.Unification.Attempts

/-!
How units are unified in sessions, round by round. The rounds come to an end whether or not
exponents stop at the limit. No round divides by zero, leaves the limit with a number that is not
meant to stop there, or fails to link a variable, so that all errors are about the units themselves
or come from a registry whose units have no canonical form.
-/

set_option autoImplicit false

namespace SheetTypes

namespace Unification

open Store

/-- What becomes of the exponents in a round that goes on. It makes one new variable, and it leaves
less than the chosen exponent of all others; so the smallest exponent falls, unless the new
variable is the only one left. Then the next round is the last. -/
structure Descends (current next : InferredUnit × Store) : Prop where
  pruned : next.1 = (pruneUnit current.1 current.2).1
  created : next.2.units.size = current.2.units.size + 1
  bounded : ∃ var number, pivot? next.1.vars.toList = some (var, number) ∧
    ∀ other ∈ (pruneUnit next.1 next.2).1.vars.keys, other ≠ ⟨current.2.units.size⟩ →
      0 ≤ (pruneUnit next.1 next.2).1.vars.exponent other ∧
        (pruneUnit next.1 next.2).1.vars.exponent other < number.natAbs
  falls : (pruneUnit next.1 next.2).1.leastExponent < next.1.leastExponent ∨
    (pruneUnit next.1 next.2).1.vars.keys = [⟨current.2.units.size⟩] ∧
      ∃ found last, solveRound next.1 next.2 = (.ok (.done found), last)

theorem Continues.descends {current next : InferredUnit × Store}
    (continued : Continues current next) (wellformed : current.2.Wellformed)
    (covered : current.2.CoversUnit current.1) : Descends current next := by
  obtain ⟨middle, var, number, reducing⟩ := solveRound_more wellformed covered continued
  constructor
  · rw [reducing.pruned]
  · exact reducing.units_size
  · refine ⟨var, number, reducing.chosen, ?_⟩
    intro other _ old
    exact reducing.bounds old
  · rcases reducing.descends with falls | single
    · exact .inl falls
    · right
      refine ⟨single, solveRound_last (reducing.grows.wellformed wellformed)
        reducing.coversUnit ?_⟩
      rw [size_eq_length, single]
      exact Nat.le_refl 1

end Unification

namespace Session

open Unification

variable {session : Session} {quotient left right : InferredUnit}

/-- Solving `quotient = 1` takes one round, or no more than the smallest exponent of a variable
says: neither the number of further rounds nor what would be done after them matters. All rounds but
the last make that exponent smaller. -/
theorem solving_ends_in_rounds (reachable : session.Reachable)
    (covered : session.store.CoversUnit quotient) :
    let bound := max 1 (Store.pruneUnit quotient session.store).1.leastExponent
    (∀ stop more, bound ≤ more →
      solving stop more quotient session.store = solveWithin bound quotient session.store) ∧
    ((∀ var ∈ quotient.vars.keys, session.store.unitLink? var = none) →
      bound ≤ solvingRounds quotient) ∧
    ∀ current next, Relation.ReflTransGen Continues (quotient, session.store) current →
      Continues current next → Descends current next := by
  intro bound
  have wellformed := reachable.wellformed
  refine ⟨?_, ?_, ?_⟩
  · intro stop more atLeast
    refine solving_ends wellformed covered ⟨?_, .inr ?_⟩ atLeast stop
    · exact Nat.le_max_left 1 _
    · exact Nat.le_max_right 1 _
  · intro free
    have least := leastExponent_le_solvingRounds quotient
    have positive := solvingRounds_pos quotient
    have bounded : bound = max 1 quotient.leastExponent := by
      unfold bound
      rw [pruneUnit_of_unbound free]
    omega
  · intro current next rounds continued
    obtain ⟨wellformedHere, coveredHere⟩ := continues_run wellformed covered rounds
    exact continued.descends wellformedHere coveredHere

theorem solving_ends_at_limit :
    let session := (((start .empty {}).after .freshUnit).after .freshUnit).after .freshUnit
    let quotient : InferredUnit := (((UnitTerm.ofVar ⟨0⟩).raise 5).multiply
      ((UnitTerm.ofVar ⟨1⟩).raise (-exponentLimit))).multiply ((UnitTerm.ofVar ⟨2⟩).raise 7)
    let next := (quotient, (solveRound quotient session.store).2)
    (∀ stop more, 5 ≤ more →
      solving stop more quotient session.store = solveWithin 5 quotient session.store) ∧
    5 ≤ solvingRounds quotient ∧ (solveWithin 5 quotient session.store).2.exact = false ∧
    Continues (quotient, session.store) next ∧ Descends (quotient, session.store) next := by
  intro session quotient next
  have reachable : session.Reachable :=
    (((reachable_start .empty {}).after .freshUnit trivial).after .freshUnit trivial).after
      .freshUnit trivial
  have covered : session.store.CoversUnit quotient := by decide +kernel
  have free : ∀ var ∈ quotient.vars.keys, session.store.unitLink? var = none := by decide +kernel
  have bound : max 1 (Store.pruneUnit quotient session.store).1.leastExponent = 5 := by
    decide +kernel
  have limited : (solveWithin 5 quotient session.store).2.exact = false := by decide +kernel
  have goesOn : (solveRound quotient session.store).1 = .ok (.more quotient) := by decide +kernel
  have continued : Continues (quotient, session.store) next := Prod.ext goesOn rfl
  have ends := solving_ends_in_rounds reachable covered
  rw [bound] at ends
  obtain ⟨same, enough, descends⟩ := ends
  exact ⟨same, enough free, limited, continued, descends _ _ .refl continued⟩

end Session

namespace Unification

open Store

structure DividesSafely (number other : Int) : Prop where
  remainder : WithinLimit (other.tmod number)
  opposite : WithinLimit (-other)
  solved : WithinLimit ((-other).tdiv number)
  floored : WithinLimit (other / number)
  reduced : WithinLimit (-(other / number))

theorem dividesSafely (number : Int) {other : Int} (within : WithinLimit other) :
    DividesSafely number other := by
  constructor
  · apply within.of_natAbs_le
    rw [Int.natAbs_tmod]
    exact Nat.mod_le _ _
  · apply within.of_natAbs_le
    rw [Int.natAbs_neg]
  · exact within.of_natAbs_le (solvedExponent_le number other)
  · exact within.of_natAbs_le (Int.natAbs_ediv_le_natAbs other number)
  · exact within.of_natAbs_le (reducedExponent_le number other)

theorem within_of_mem_exponents {unit : InferredUnit} {number : Int}
    (member : number ∈ unit.exponents) : WithinLimit number := by
  have listed {κ : Type} [Ord κ] [Std.LawfulEqOrd κ] {product : PowerProduct κ}
      (inside : number ∈ product.toList.map Prod.snd) : WithinLimit number := by
    obtain ⟨power, own, rfl⟩ := List.mem_map.mp inside
    rw [← (PowerProduct.mem_toList.mp own).1]
    exact product.exponent_within power.1
  rcases List.mem_append.mp member with name | var
  · exact listed name
  · exact listed var

/-- Whether a round can be made: the numbers in it keep within the limit, it does not divide by
zero, and it can link the chosen variable, whichever of the two units it links it to. -/
structure SafeRound (quotient : InferredUnit) (store : Store) : Prop where
  magnitudes : ∀ number ∈ (pruneUnit quotient store).1.exponents, WithinLimit number.natAbs
  divisions : ∀ var number, pivot? (pruneUnit quotient store).1.vars.toList = some (var, number) →
    number ≠ 0 ∧ ∀ other ∈ ((pruneUnit quotient store).1.eraseVar var).exponents,
      DividesSafely number other
  solves : ∀ var number, pivot? (pruneUnit quotient store).1.vars.toList = some (var, number) →
    (bindUnit var (solution (pruneUnit quotient store).1 var number)
      (pruneUnit quotient store).2).1 = .ok ()
  reduces : ∀ var number, pivot? (pruneUnit quotient store).1.vars.toList = some (var, number) →
    (bindUnit var (reduction (pruneUnit quotient store).2 (pruneUnit quotient store).1 var number)
      (pruneUnit quotient store).2.withUnit).1 = .ok ()
  succeeds : ∃ progress, (solveRound quotient store).1 = .ok progress

theorem safeRound {quotient : InferredUnit} {store : Store} (wellformed : store.Wellformed)
    (covered : store.CoversUnit quotient) : SafeRound quotient store := by
  obtain ⟨_, reduced⟩ := pruneUnit_reduced wellformed covered (Prod.eta _).symm
  constructor
  · intro number member
    apply (within_of_mem_exponents member).of_natAbs_le
    rw [Int.natAbs_natCast]
  · intro var number chosen
    refine ⟨(exponent_of_pivot chosen).2, ?_⟩
    intro other member
    exact dividesSafely number (within_of_mem_exponents member)
  · intro var number chosen
    rw [(linkable_solution reduced.covered reduced.free (mem_keys_of_pivot chosen)
      number).bindUnit_apply]
  · intro var number chosen
    rw [(linkable_reduction reduced.covered reduced.free (mem_keys_of_pivot chosen)
      number).bindUnit_apply]
  · rcases solveRound_cases wellformed covered with ⟨_, _, ended⟩ | ⟨_, _, continued⟩
    · exact ⟨_, congrArg Prod.fst ended⟩
    · exact ⟨_, congrArg Prod.fst continued⟩

end Unification

namespace Session

open Unification

variable {session : Session} {left right : InferredUnit}

/-- All rounds of a unification are safe, so the quotient of units that differ is solved or not,
but never with an error. What is reported is that the units differ, or that the registry has no
canonical form of one of them. -/
theorem unifyUnits_safe (reachable : session.Reachable) (registry : Option Registry)
    (leftCovered : session.store.CoversUnit left) (rightCovered : session.store.CoversUnit right) :
    let leftPruned := (Store.pruneUnit left session.store).1
    let rightPruned := (Store.pruneUnit right (Store.pruneUnit left session.store).2).1
    let start := unitQuotient left right session.store
    let unified := Unification.unifyUnits registry left right session.store
    (∀ current, Relation.ReflTransGen Continues start current → SafeRound current.1 current.2) ∧
    (leftPruned = rightPruned → unified.1 = .ok ()) ∧
    (leftPruned ≠ rightPruned →
      ∃ found, solveWithin (solvingRounds start.1) start.1 start.2 = (.ok found, unified.2) ∧
        unified.1 = if found then .ok ()
          else .error (unitMismatch registry leftPruned rightPruned)) ∧
    (∀ number ∈ leftPruned.exponents ++ rightPruned.exponents, WithinLimit (-number)) ∧
    ∀ error, unified.1 = .error error →
      (∃ convertible, error.cause = .unitMismatch (InferredUnit.render leftPruned)
        (InferredUnit.render rightPruned) convertible) ∨
      ∃ declared unit, registry = some declared ∧
        (unit = leftPruned.names ∨ unit = rightPruned.names) ∧
        declared.canonicalize unit = .error error := by
  intro leftPruned rightPruned start unified
  have wellformed := reachable.wellformed
  obtain ⟨shortens, covered, _⟩ := unitQuotient_free wellformed leftCovered rightCovered
  have startWellformed : start.2.Wellformed :=
    (Store.Shortens.settled shortens).wellformed wellformed
  have atOnce (same : leftPruned = rightPruned) : unified.1 = .ok () :=
    congrArg Prod.fst (unifyUnits_of_eq registry same)
  have solving (different : leftPruned ≠ rightPruned) :
      ∃ found, solveWithin (solvingRounds start.1) start.1 start.2 = (.ok found, unified.2) ∧
        unified.1 = if found then .ok ()
          else .error (unitMismatch registry leftPruned rightPruned) := by
    obtain ⟨found, after, solved⟩ :=
      solveWithin_succeeds (solvingRounds start.1) startWellformed covered
    have result := unifyUnits_of_ne registry different solved
    have same : unified.2 = after := congrArg Prod.snd result
    exact ⟨found, same ▸ solved, congrArg Prod.fst result⟩
  refine ⟨?_, atOnce, solving, ?_, ?_⟩
  · intro current rounds
    obtain ⟨wellformedHere, coveredHere⟩ := continues_run startWellformed covered rounds
    exact safeRound wellformedHere coveredHere
  · intro number member
    have within : WithinLimit number := by
      rcases List.mem_append.mp member with own | own
      · exact within_of_mem_exponents own
      · exact within_of_mem_exponents own
    exact (dividesSafely 1 within).opposite
  · intro error failed
    by_cases same : leftPruned = rightPruned
    · rw [atOnce same] at failed
      cases failed
    · obtain ⟨found, _, result⟩ := solving same
      rw [failed] at result
      cases found with
      | true => cases result
      | false =>
        cases result
        exact unitMismatch_cases registry leftPruned rightPruned

theorem unifyUnits_safe_unsolved :
    let session := ((start .empty {}).after .freshUnit).after .freshUnit
    let left : InferredUnit :=
      ((UnitTerm.ofVar ⟨0⟩).raise 4).multiply ((UnitTerm.ofVar ⟨1⟩).raise 6)
    let right : InferredUnit := .named "m"
    let start := unitQuotient left right session.store
    (∀ current, Relation.ReflTransGen Continues start current → SafeRound current.1 current.2) ∧
    solveWithin (solvingRounds start.1) start.1 start.2 = (.ok false,
      (Unification.unifyUnits none left right session.store).2) ∧
    ∃ error, (Unification.unifyUnits none left right session.store).1 = .error error ∧
      ∃ convertible, error.cause =
        .unitMismatch (InferredUnit.render left) (InferredUnit.render right) convertible := by
  intro session left right start
  have reachable : session.Reachable :=
    ((reachable_start .empty {}).after .freshUnit trivial).after .freshUnit trivial
  have leftCovered : session.store.CoversUnit left := by decide +kernel
  have rightCovered : session.store.CoversUnit right := by decide +kernel
  have leftPruned : (Store.pruneUnit left session.store).1 = left := by decide +kernel
  have rightPruned :
      (Store.pruneUnit right (Store.pruneUnit left session.store).2).1 = right := by
    decide +kernel
  have different : left ≠ right := by decide +kernel
  have unsolved : (solveWithin (solvingRounds start.1) start.1 start.2).1 = .ok false := by
    decide +kernel
  obtain ⟨safe, _, solving, _, errors⟩ :=
    unifyUnits_safe reachable none leftCovered rightCovered
  rw [leftPruned, rightPruned] at solving
  obtain ⟨found, solved, result⟩ := solving different
  rw [solved, Except.ok.injEq] at unsolved
  rw [unsolved] at solved result
  refine ⟨safe, solved, _, result, ?_⟩
  rcases errors _ result with mismatch | ⟨_, _, impossible, _⟩
  · rw [leftPruned, rightPruned] at mismatch
    exact mismatch
  · cases impossible

end Session

end SheetTypes
