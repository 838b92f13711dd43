import SheetTypes.Proofs.Session.Reachability
import SheetTypes.Proofs.Unification.Exactness

/-!
Unification in sessions. As long as no exponent passes the limit, two types that have been unified
resolve to the same type from then on, and unification fails only where there is no solution: every
solution that there was before is kept. For the latter it does not matter whether an exponent had
stopped at the limit in earlier runs.
-/

set_option autoImplicit false

namespace SheetTypes

/-- Different types over unbound variables have different meanings. -/
theorem InferredType.free_injective {left right : InferredType}
    (same : left.substitute .var InferredUnit.free =
      (right.substitute .var InferredUnit.free : TypeTerm TypeVar FreeUnit)) : left = right :=
  TypeTerm.substitute_injective (fun _ _ => InferredUnit.free_injective) same

namespace Store

variable {store : Store} {type left right : InferredType} {G ν : Type}

/-- A type has the value of the type that it resolves to. -/
theorem type_resolve (wellformed : store.Wellformed) (covered : store.Covers type)
    (exact : (resolve type store).2.exact = true) [UnitGroup G] {valuation : Valuation ν G}
    (satisfies : valuation.Satisfies store) :
    valuation.type (resolve type store).1 = valuation.type type := by
  have resolved := resolve_resolved wellformed covered
  have settled := Shortens.settled resolved.steps
  exact resolved.ends.value valuation (.inr exact)
    ((settled.satisfies wellformed valuation (.inr exact)).mpr satisfies)

/-- Values for the unbound variables are values for the types that resolving leaves. -/
theorem Wellformed.extend_resolve (wellformed : store.Wellformed) (covered : store.Covers type)
    (exact : (resolve type store).2.exact = true) [UnitGroup G] (base : Valuation ν G) :
    (store.extend base).type type = base.type (resolve type store).1 := by
  have resolved := resolve_resolved wellformed covered
  have settled := Shortens.settled resolved.steps
  rw [← type_resolve wellformed covered exact (wellformed.extend_satisfies base)]
  apply Valuation.type_congr
  · intro var has
    exact extend_types_unbound base (settled.typeLink?_none.mp (resolved.ends.free var has))
  · intro unit has var member
    exact extend_units_unbound base
      (settled.unitLink?_none.mp (resolved.ends.unitsFree unit has var member))

/-- Types resolve to the same type exactly if they are equal in all solutions. -/
theorem resolve_eq_iff (wellformed : store.Wellformed) (leftCovered : store.Covers left)
    (rightCovered : store.Covers right) (leftExact : (resolve left store).2.exact = true)
    (rightExact : (resolve right store).2.exact = true) :
    (resolve left store).1 = (resolve right store).1 ↔ store.TypesAgree left right := by
  constructor
  · intro same _ _ _ valuation _ satisfies
    rw [← type_resolve wellformed leftCovered leftExact satisfies, same,
      type_resolve wellformed rightCovered rightExact satisfies]
  · intro agree
    have steps := (resolve_resolved wellformed leftCovered).steps
    have exact := (Shortens.settled steps).exact leftExact
    have meanings := agree store.meaning (.inr exact) wellformed.meaning_satisfies
    rw [meaning, wellformed.extend_resolve leftCovered leftExact,
      wellformed.extend_resolve rightCovered rightExact] at meanings
    exact InferredType.free_injective meanings

theorem Wellformed.extend_isSolution (wellformed : store.Wellformed) (assignment : Assignment)
    (offers : ∀ var requirements, store.requirements? var = some requirements →
      ∀ capability ∈ requirements.names, Assignment.Provides (assignment.types var) capability) :
    Assignment.IsSolution (store.extend assignment) store := by
  refine ⟨wellformed.extend_satisfies assignment, ?_⟩
  intro var requirements found capability member
  rw [extend_types_unbound assignment (typeLink?_of_requirements found)]
  exact offers var requirements found capability member

theorem isSolution_renewed {assignment : Assignment} :
    assignment.IsSolution store.renewed ↔ assignment.IsSolution store := by
  constructor
  · rintro ⟨⟨types, units⟩, requirements⟩
    exact ⟨⟨types, units⟩, requirements⟩
  · rintro ⟨⟨types, units⟩, requirements⟩
    exact ⟨⟨types, units⟩, requirements⟩

/-- Whether no exponent has stopped at the limit so far, nor does in resolving a type. -/
def ResolvesExactly (store : Store) (type : InferredType) : Prop :=
  (resolve type store).2.exact = true

def ResolveAlike (store : Store) (left right : InferredType) : Prop :=
  (resolve left store).1 = (resolve right store).1

end Store

open Store Unification

namespace Session

variable {session : Session} {left right type : InferredType} {after : Store}

/-- Types that have been unified resolve alike, and types that resolved alike before still do. -/
theorem unified_resolve_alike (reachable : session.Reachable) (registry : Option Registry)
    (leftCovered : session.store.Covers left) (rightCovered : session.store.Covers right)
    (unified : Unification.unify registry left right session.store = (.ok type, after)) :
    (after.ResolvesExactly left → after.ResolvesExactly right → after.ResolveAlike left right) ∧
    (after.ResolvesExactly left → after.ResolvesExactly type → after.ResolveAlike left type) ∧
    ∀ first second, session.store.Covers first → session.store.Covers second →
      session.store.ResolvesExactly first → session.store.ResolvesExactly second →
      after.ResolvesExactly first → after.ResolvesExactly second →
      session.store.ResolveAlike first second → after.ResolveAlike first second := by
  have wellformed := reachable.wellformed
  have solves := (unify_solves registry wellformed leftCovered rightCovered).yields
  have steps := solves.steps
  have ends := solves.ends
  rw [unified] at steps ends
  have extended := Solving.run_extends steps
  have wellformedAfter := extended.wellformed wellformed
  refine ⟨?_, ?_, ?_⟩
  · intro leftExact rightExact
    exact (resolve_eq_iff wellformedAfter (extended.covers leftCovered)
      (extended.covers rightCovered) leftExact rightExact).mpr ends.sides
  · intro leftExact typeExact
    exact (resolve_eq_iff wellformedAfter (extended.covers leftCovered) ends.covered leftExact
      typeExact).mpr ends.whole
  · intro first second firstCovered secondCovered firstBefore secondBefore firstAfter secondAfter
      alike
    have agree := (resolve_eq_iff wellformed firstCovered secondCovered firstBefore
      secondBefore).mp alike
    exact (resolve_eq_iff wellformedAfter (extended.covers firstCovered)
      (extended.covers secondCovered) firstAfter secondAfter).mpr (agree.later wellformed extended)

theorem unified_resolve_alike_tuples :
    let session := (((start .empty {}).after (.freshType .none)).after .freshUnit).after .freshUnit
    let left : InferredType := .tuple [.var ⟨0⟩, .number ((UnitTerm.ofVar ⟨0⟩).raise 2)]
    let right : InferredType :=
      .tuple [.number ((UnitTerm.ofVar ⟨1⟩).raise 3), .number ((UnitTerm.ofVar ⟨1⟩).raise 4)]
    let unified := Unification.unify none left right session.store
    unified.1 = .ok left ∧ unified.2.ResolvesExactly left ∧ unified.2.ResolvesExactly right ∧
      unified.2.ResolveAlike left right := by
  intro session left right unified
  have reachable : session.Reachable :=
    (((reachable_start .empty {}).after (.freshType .none) trivial).after .freshUnit trivial).after
      .freshUnit trivial
  have done : unified.1 = .ok left := rfl
  have leftExact : unified.2.ResolvesExactly left := by
    unfold ResolvesExactly
    decide +kernel
  have rightExact : unified.2.ResolvesExactly right := by
    unfold ResolvesExactly
    decide +kernel
  have alike := unified_resolve_alike reachable none (by decide +kernel : session.store.Covers left)
    (by decide +kernel : session.store.Covers right) (Prod.ext done rfl)
  exact ⟨done, leftExact, rightExact, alike.1 leftExact rightExact⟩

/-- Resolving can stop at the limit where unification did not, and types that have been unified
then resolve to different types. -/
theorem unified_not_alike_at_limit :
    let session := ((start .empty {}).after .freshUnit).after .freshUnit
    let left : InferredType := .number
      (((UnitTerm.ofVar ⟨0⟩).raise 3).multiply ((UnitTerm.ofVar ⟨1⟩).raise (-1073741823)))
    let right : InferredType := .number
      (((UnitTerm.ofVar ⟨0⟩).raise 2).multiply ((UnitTerm.ofVar ⟨1⟩).raise 1073741824))
    let unified := Unification.unify none left right session.store
    session.Reachable ∧ session.store.Covers left ∧ session.store.Covers right ∧
      unified.1 = .ok left ∧ unified.2.exact = true ∧ ¬unified.2.ResolveAlike left right := by
  intro session left right unified
  have reachable : session.Reachable :=
    ((reachable_start .empty {}).after .freshUnit trivial).after .freshUnit trivial
  refine ⟨reachable, by decide +kernel, by decide +kernel, rfl, by decide +kernel, ?_⟩
  unfold ResolveAlike
  decide +kernel

/-- Unification succeeds if there are values for the unbound variables that make both types equal
and offer what is required of the variables, and it keeps these values: they go on to be a solution,
with values for the unit variables that it has created. No exponent may stop at the limit in
resolving the two types and in unifying them; it does not matter whether one did before. -/
theorem unify_keeps_solutions (reachable : session.Reachable) (registry : Option Registry)
    (leftCovered : session.store.Covers left) (rightCovered : session.store.Covers right)
    (leftExactly : session.store.RunsExactly (Store.resolve left))
    (rightExactly : session.store.RunsExactly (Store.resolve right))
    (exactly : session.store.RunsExactly (Unification.unify registry left right))
    (assignment : Assignment)
    (same : assignment.type (Store.resolve left session.store).1 =
      assignment.type (Store.resolve right session.store).1)
    (offers : ∀ var requirements, session.store.requirements? var = some requirements →
      ∀ capability ∈ requirements.names, Assignment.Provides (assignment.types var) capability) :
    ∃ type after, Unification.unify registry left right session.store = (.ok type, after) ∧
      ∃ later : Assignment, later.IsSolution after ∧
        (∀ var, session.store.typeLink? var = none → later.types var = assignment.types var) ∧
        ∀ var, var.index < session.store.units.size → session.store.unitLink? var = none →
          later.units var = assignment.units var := by
  have wellformed := reachable.wellformed.renewed
  have solution := wellformed.extend_isSolution assignment offers
  have leftResolved := ((resolve_ignoresNote left).runs session.store).1
  have rightResolved := ((resolve_ignoresNote right).runs session.store).1
  have equal : (session.store.renewed.extend assignment).type left =
      (session.store.renewed.extend assignment).type right := by
    rw [wellformed.extend_resolve leftCovered leftExactly,
      wellformed.extend_resolve rightCovered rightExactly, leftResolved, rightResolved]
    exact same
  obtain ⟨type, later, done, isSolution, continues⟩ :=
    (unify_solves registry wellformed leftCovered rightCovered).keeps _ solution equal exactly
  rw [(unify_ignoresNote registry left right).runs_of_exact exactly] at done isSolution
  refine ⟨type, _, Prod.ext done rfl, later, isSolution_renewed.mp isSolution, ?_, ?_⟩
  · intro var free
    rw [continues.types]
    exact extend_types_unbound assignment free
  · intro var within free
    rw [continues.units var within]
    exact extend_units_unbound assignment free

theorem unify_keeps_solutions_after_limit :
    let most : InferredUnit := (UnitTerm.named "m").raise exponentLimit
    let session := (((((start .empty {}).after (.freshType (.single "Equatable" "="))).after
      .freshUnit).after .freshUnit).after .freshUnit).after
        (.unifyUnits (most.multiply (.ofVar ⟨2⟩)) most.reciprocal)
    let left : InferredType := .tuple [.var ⟨0⟩, .number (.ofVar ⟨0⟩)]
    let right : InferredType := .tuple [.number (.ofVar ⟨1⟩), .number (.ofVar ⟨1⟩)]
    let meters : ExactUnit := Finsupp.single "m" 1
    let assignment : Assignment := ⟨fun _ => .number meters, fun _ => meters⟩
    session.store.exact = false ∧
      assignment.type (Store.resolve left session.store).1 =
        assignment.type (Store.resolve right session.store).1 ∧
      ∃ type after, Unification.unify none left right session.store = (.ok type, after) ∧
        ∃ later : Assignment, later.IsSolution after ∧
          later.types ⟨0⟩ = .number meters ∧ later.units ⟨0⟩ = meters := by
  intro most session left right meters assignment
  have reachable : session.Reachable :=
    (((((reachable_start .empty {}).after (.freshType (.single "Equatable" "=")) trivial).after
      .freshUnit trivial).after .freshUnit trivial).after .freshUnit trivial).after
        (.unifyUnits (most.multiply (.ofVar ⟨2⟩)) most.reciprocal)
        ⟨by decide +kernel, by decide +kernel⟩
  have same : assignment.type (Store.resolve left session.store).1 =
      assignment.type (Store.resolve right session.store).1 := by
    have leftResolved : (Store.resolve left session.store).1 = left := by decide +kernel
    have rightResolved : (Store.resolve right session.store).1 = right := by decide +kernel
    rw [leftResolved, rightResolved]
    simp [left, right, assignment, Valuation.type]
  have offers (var : TypeVar) (requirements : Requirements)
      (found : session.store.requirements? var = some requirements) (capability : String)
      (member : capability ∈ requirements.names) :
      Assignment.Provides (assignment.types var) capability := by
    have size : session.store.types.size = 1 := by decide +kernel
    have first : var = ⟨0⟩ := by
      obtain ⟨index⟩ := var
      have within := index_lt_of_requirements found
      rw [size] at within
      exact congrArg TypeVar.mk (Nat.lt_one_iff.mp within)
    have waits : session.store.requirements? ⟨0⟩ = some (.single "Equatable" "=") := by
      decide +kernel
    rw [first, waits] at found
    cases found
    have only : capability ∈ ["Equatable"] := member
    have offered : "Equatable" ∈ allCapabilities := by decide
    rw [List.mem_singleton.mp only]
    exact .shape offered fun child inside => absurd inside List.not_mem_nil
  have kept := unify_keeps_solutions reachable none (by decide +kernel : session.store.Covers left)
    (by decide +kernel : session.store.Covers right) (by decide +kernel) (by decide +kernel)
    (by decide +kernel) assignment same offers
  obtain ⟨type, after, unified, later, solution, types, units⟩ := kept
  exact ⟨by decide +kernel, same, type, after, unified, later, solution,
    types ⟨0⟩ (by decide +kernel), units ⟨0⟩ (by decide +kernel) (by decide +kernel)⟩

end Session

end SheetTypes
