import SheetTypes.Proofs.Session.Unification
import SheetTypes.Proofs.Session.Units

/-!
Unifying types that are equal already. Two types that are read alike have one shape, and the
equations between their parts are between parts that are read alike; units that are read alike are
found equal at once. So nothing is linked and nothing required: links are shortened at most, which
cannot be seen. This holds of types that have just been unified, unless an exponent has stopped at
the limit.
-/

set_option autoImplicit false

namespace SheetTypes

namespace Unification

open Store

variable {store : Store} {readout : Readout} {registry : Option Registry} {depth levels : Nat}
  {left right : InferredType}

abbrev OnlyShortens {α : Type} (store : Store) (action : Infer α) : Prop :=
  Yields Shortening store action (Outcome (fun _ => False) fun _ _ => True)

theorem unifyUnits_alike (wellformed : store.Wellformed) (reads : readout.Reads store)
    {left right : InferredUnit} (leftCovered : store.CoversUnit left)
    (rightCovered : store.CoversUnit right) (same : readout.unit left = readout.unit right) :
    OnlyShortens store (unifyUnits registry left right) := by
  have prunes {now : Store} (nowWellformed : now.Wellformed) {unit : InferredUnit}
      (covered : now.CoversUnit unit) :=
    (pruneUnit_agree nowWellformed covered pure (Nat.lt_succ_self _)).left
  unfold unifyUnits
  refine (prunes wellformed leftCovered).lift.andThen fun first middle steps reduced => ?_
  have settled := Shortens.settled steps
  have middleWellformed := settled.wellformed wellformed
  have middleReads := (settled.reads wellformed readout).mpr reads
  refine (prunes middleWellformed (settled.coversUnit.mpr rightCovered)).lift.andThen
    fun second last further reducedSecond => ?_
  have lastReads := ((Shortens.settled further).reads middleWellformed readout).mpr middleReads
  have equal : first = second := by
    rw [← reduced.read readout middleReads, same, reducedSecond.read readout lastReads]
  rw [if_pos equal]
  exact .ok trivial

structure Alike (readout : Readout) (store : Store) (depth levels : Nat)
    (left right : InferredType) : Prop extends Comparable store depth levels left right where
  reads : readout.Reads store
  same : readout.type left = readout.type right

theorem solveEquations_alike {unifyTypes : InferredType → InferredType → Infer InferredType}
    {equations : List Equation}
    (recursion : ∀ {store : Store} {first second : InferredType},
      Alike readout store depth levels first second →
        OnlyShortens store (unifyTypes first second))
    (wellformed : store.Wellformed) (reads : readout.Reads store)
    (comparable : ∀ equation ∈ equations, equation.Comparable store depth levels)
    (holds : ∀ equation ∈ equations, equation.Holds readout.types readout.unit) :
    OnlyShortens store (solveEquations registry unifyTypes left right equations) := by
  induction equations generalizing store with
  | nil => exact .ok trivial
  | cons equation equations ih =>
    obtain ⟨here, others⟩ := List.forall_mem_cons.mp comparable
    obtain ⟨holdsHere, holdsOthers⟩ := List.forall_mem_cons.mp holds
    have rest (after : Store) (steps : store.Shortens after) :
        OnlyShortens after (solveEquations registry unifyTypes left right equations) := by
      have settled := Shortens.settled steps
      exact ih (settled.wellformed wellformed) ((settled.reads wellformed readout).mpr reads)
        (fun other member => (others other member).run (Shortens.solving steps depth)) holdsOthers
    cases equation with
    | types first second =>
      rw [solveEquations, discard_bind]
      exact (recursion ⟨here, reads, holdsHere⟩).andThen fun _ after steps _ =>
        rest after steps
    | units first second =>
      exact (unifyUnits_alike wellformed reads here.2.1 here.2.2 holdsHere).andThen
        fun _ after steps _ => rest after steps
    | clash => exact holdsHere.elim

/-- Where the links of two types that are read alike have been followed, both are the same variable
or both are compound. -/
theorem unifyPruned_alike
    (recursion : ∀ {store : Store} {first second : InferredType},
      Alike readout store depth levels first second →
        OnlyShortens store (unifyWithin registry levels first second))
    (alike : Alike readout store depth (levels + 1) left right)
    (leftFree : ∀ var, left = .var var → store.typeLink? var = none)
    (rightFree : ∀ var, right = .var var → store.typeLink? var = none) :
    OnlyShortens store (unifyPruned registry levels left right) := by
  obtain ⟨comparable, reads, same⟩ := alike
  have compoundRead {type : InferredType} (compound : type.isVar = false) :
      (readout.type type).isVar = false := TypeTerm.isVar_substitute compound
  rcases left.var_or_compound with ⟨leftVar, rfl⟩ | leftCompound
  · rw [Readout.type_var, reads.freeTypes leftVar (leftFree leftVar rfl)] at same
    rcases right.var_or_compound with ⟨rightVar, rfl⟩ | rightCompound
    · rw [Readout.type_var, reads.freeTypes rightVar (rightFree rightVar rfl)] at same
      cases same
      rw [unifyPruned, if_pos rfl]
      exact .ok trivial
    · exact absurd same.symm (TypeTerm.ne_var (compoundRead rightCompound) leftVar)
  · rcases right.var_or_compound with ⟨rightVar, rfl⟩ | rightCompound
    · rw [Readout.type_var, reads.freeTypes rightVar (rightFree rightVar rfl)] at same
      exact absurd same (TypeTerm.ne_var (compoundRead leftCompound) rightVar)
    · obtain ⟨equations, found⟩ := exists_decompose leftCompound rightCompound same
      rw [unifyPruned_compound registry levels leftCompound rightCompound, found]
      have solved : OnlyShortens store
          (solveEquations registry (unifyWithin registry levels) left right equations) :=
        solveEquations_alike recursion comparable.bounded.wellformed reads
          (comparable.decompose leftCompound found) ((substitute_eq_iff_holds found).mp same)
      exact solved.andThen fun _ _ _ _ => .ok trivial

theorem unifyWithin_alike (alike : Alike readout store depth levels left right) :
    OnlyShortens store (unifyWithin registry levels left right) := by
  induction levels generalizing store left right with
  | zero => exact absurd (alike.stays store .refl) (Nat.not_lt_zero _)
  | succ levels ih =>
    obtain ⟨comparable, reads, same⟩ := alike
    have wellformed := comparable.bounded.wellformed
    rw [unifyWithin_succ]
    refine (prune_yields wellformed left).lift.andThen
      fun first between firstSteps firstEnds => ?_
    obtain ⟨firstReaches, firstFree⟩ := firstEnds
    have firstSettled := Shortens.settled firstSteps
    have betweenWellformed := firstSettled.wellformed wellformed
    have betweenReads := (firstSettled.reads wellformed readout).mpr reads
    refine (prune_yields betweenWellformed right).lift.andThen
      fun second middle secondSteps secondEnds => ?_
    obtain ⟨secondReaches, secondFree⟩ := secondEnds
    have secondSettled := Shortens.settled secondSteps
    have middleReads := (secondSettled.reads betweenWellformed readout).mpr betweenReads
    have reached : readout.type first = readout.type second := by
      rw [firstReaches.read betweenReads, secondReaches.read middleReads]
      exact same
    exact unifyPruned_alike ih
      ⟨comparable.pruned firstSteps firstReaches secondSteps secondReaches, middleReads, reached⟩
      (fun var here => secondSettled.typeLink?_none.mpr (firstFree var here)) secondFree

/-- Unification of types that are read alike succeeds, and at most shortens links. -/
theorem unify_alike (registry : Option Registry) (wellformed : store.Wellformed)
    (reads : readout.Reads store) (leftCovered : store.Covers left)
    (rightCovered : store.Covers right) (same : readout.type left = readout.type right) :
    OnlyShortens store (unify registry left right) := by
  refine .read (.recover ?_ fun _ _ _ impossible => impossible.elim)
  exact unifyWithin_alike
    ⟨comparable_unificationLevels wellformed leftCovered rightCovered, reads, same⟩

end Unification

namespace Store

/-- Whether nothing that can be seen of a store has changed: there are the same variables, types
resolve to what they did, and the same is required of the variables. -/
structure Unchanged (before after : Store) : Prop where
  typeCount : after.types.size = before.types.size
  unitCount : after.units.size = before.units.size
  resolves : ∀ type, before.Covers type → (resolve type after).1 = (resolve type before).1
  requirements : ∀ var, after.requirements? var = before.requirements? var

variable {after store : Store} {left right : InferredType}

theorem Shortens.unchanged {before : Store} (shortens : before.Shortens after)
    (wellformed : before.Wellformed) : before.Unchanged after := by
  have settled := Shortens.settled shortens
  exact ⟨settled.typeCount, settled.unitCount, fun type _ => settled.resolve wellformed type,
    Shortens.requirements shortens⟩

/-- Types that resolve alike can be unified, and that changes nothing. -/
theorem ResolveAlike.unify (alike : store.ResolveAlike left right) (wellformed : store.Wellformed)
    (leftCovered : store.Covers left) (rightCovered : store.Covers right)
    (registry : Option Registry) :
    ∃ type after, Unification.unify registry left right store = (.ok type, after) ∧
      store.Unchanged after := by
  obtain ⟨readout, reads⟩ := wellformed.exists_readout
  unfold ResolveAlike at alike
  rw [resolve_read wellformed reads, resolve_read wellformed reads] at alike
  have shortens := Unification.unify_alike registry wellformed reads leftCovered rightCovered alike
  have ends := shortens.ends
  generalize outcome : (Unification.unify registry left right store).1 = found at ends
  cases found with
  | error error => exact ends.elim
  | ok type =>
    exact ⟨type, _, Prod.ext outcome rfl, Shortens.unchanged shortens.steps wellformed⟩

/-- Types that have been unified resolve alike if no exponent stops at the limit in unifying or
resolving them. -/
theorem resolveAlike_of_unify {registry : Option Registry} {type : InferredType}
    (wellformed : store.Wellformed) (leftCovered : store.Covers left)
    (rightCovered : store.Covers right)
    (unified : Unification.unify registry left right store = (.ok type, after))
    (exactly : store.RunsExactly (Unification.unify registry left right))
    (leftExactly : after.RunsExactly (resolve left))
    (rightExactly : after.RunsExactly (resolve right)) : after.ResolveAlike left right := by
  have run := (Unification.unify_ignoresNote registry left right).runs_of_exact exactly
  have solves :=
    (Unification.unify_solves registry wellformed.renewed leftCovered rightCovered).yields
  have steps := solves.steps
  have ends := solves.ends
  rw [unified] at run
  rw [run] at steps ends
  have extended := Solving.run_extends steps
  have same := (resolve_eq_iff (extended.wellformed wellformed.renewed)
    (extended.covers leftCovered) (extended.covers rightCovered) leftExactly
    rightExactly).mpr ends.sides
  have leftRun := ((resolve_ignoresNote left).runs after).1
  have rightRun := ((resolve_ignoresNote right).runs after).1
  exact leftRun.symm.trans (same.trans rightRun)

end Store

namespace Session

variable {session : Session} {left right : InferredType}

/-- Unification of types that resolve alike succeeds and changes nothing. So does a second
unification of two types, if no exponent stops at the limit in the first or in resolving them. -/
theorem unify_alike_unchanged (reachable : session.Reachable) (registry : Option Registry)
    (leftCovered : session.store.Covers left) (rightCovered : session.store.Covers right) :
    (session.store.ResolveAlike left right →
      ∃ type after, Unification.unify registry left right session.store = (.ok type, after) ∧
        session.store.Unchanged after) ∧
    ∀ type after, Unification.unify registry left right session.store = (.ok type, after) →
      session.store.RunsExactly (Unification.unify registry left right) →
      after.RunsExactly (Store.resolve left) → after.RunsExactly (Store.resolve right) →
      ∃ again last, Unification.unify registry left right after = (.ok again, last) ∧
        after.Unchanged last := by
  have wellformed := reachable.wellformed
  constructor
  · intro alike
    exact alike.unify wellformed leftCovered rightCovered registry
  · intro type after unified exactly leftExactly rightExactly
    have alike := Store.resolveAlike_of_unify wellformed leftCovered rightCovered unified exactly
      leftExactly rightExactly
    have steps := (Unification.unify_solves registry wellformed leftCovered
      rightCovered).yields.steps
    rw [unified] at steps
    have extended := Store.Solving.run_extends steps
    exact alike.unify (extended.wellformed wellformed) (extended.covers leftCovered)
      (extended.covers rightCovered) registry

theorem unify_alike_unchanged_tuples :
    let session := (((start .empty {}).after (.freshType .none)).after .freshUnit).after .freshUnit
    let left : InferredType := .tuple [.var ⟨0⟩, .number ((UnitTerm.ofVar ⟨0⟩).raise 2)]
    let right : InferredType :=
      .tuple [.number ((UnitTerm.ofVar ⟨1⟩).raise 3), .number ((UnitTerm.ofVar ⟨1⟩).raise 4)]
    let unified := Unification.unify none left right session.store
    ¬session.store.ResolveAlike left right ∧ unified.1 = .ok left ∧
      session.store.RunsExactly (Unification.unify none left right) ∧
      unified.2.RunsExactly (Store.resolve left) ∧ unified.2.RunsExactly (Store.resolve right) ∧
      (∃ type after, Unification.unify none left left session.store = (.ok type, after) ∧
        session.store.Unchanged after) ∧
      ∃ again last, Unification.unify none left right unified.2 = (.ok again, last) ∧
        unified.2.Unchanged last := by
  intro session left right unified
  have reachable : session.Reachable :=
    (((reachable_start .empty {}).after (.freshType .none) trivial).after .freshUnit trivial).after
      .freshUnit trivial
  have leftCovered : session.store.Covers left := by decide +kernel
  have rightCovered : session.store.Covers right := by decide +kernel
  have different : ¬session.store.ResolveAlike left right := by
    unfold Store.ResolveAlike
    decide +kernel
  have done : unified.1 = .ok left := rfl
  have exactly : session.store.RunsExactly (Unification.unify none left right) := by
    decide +kernel
  have leftExactly : unified.2.RunsExactly (Store.resolve left) := by decide +kernel
  have rightExactly : unified.2.RunsExactly (Store.resolve right) := by decide +kernel
  have same := (unify_alike_unchanged reachable none leftCovered leftCovered).1 rfl
  have again := (unify_alike_unchanged reachable none leftCovered rightCovered).2 left unified.2
    (Prod.ext done rfl) exactly leftExactly rightExactly
  exact ⟨different, done, exactly, leftExactly, rightExactly, same, again⟩

/-- Where an exponent stops at the limit, a second unification of the same types can fail. -/
theorem repeated_unify_fails_at_limit :
    let session := (start .empty {}).after .freshUnit
    let most : InferredUnit := (UnitTerm.named "m").raise exponentLimit
    let left : InferredType := .number (most.multiply (.ofVar ⟨0⟩))
    let right : InferredType := .number most.reciprocal
    let unified := Unification.unify none left right session.store
    session.Reachable ∧ session.store.Covers left ∧ session.store.Covers right ∧
      unified.1 = .ok left ∧
      ∃ error, (Unification.unify none left right unified.2).1 = .error error := by
  intro session most left right unified
  have reachable : session.Reachable := (reachable_start .empty {}).after .freshUnit trivial
  have failed : (Unification.unify none left right unified.2).1.isOk = false := by decide +kernel
  refine ⟨reachable, by decide +kernel, by decide +kernel, rfl, ?_⟩
  generalize (Unification.unify none left right unified.2).1 = found at failed
  cases found with
  | error error => exact ⟨error, rfl⟩
  | ok type => cases failed

end Session

end SheetTypes
