import SheetTypes.Proofs.Session.Unification
import SheetTypes.Proofs.Session.Units
import SheetTypes.Proofs.Unification.Footprint

/-!
What unification leaves alone in sessions. Type variables that do not occur in the two resolved
types keep their requirements, whether unification succeeds or fails. A type that has no variable
in common with them when all three are resolved keeps its outline. It resolves to the very same
type if no exponent stops at the limit: then the variables that cancel out in it cancel out
whatever they are linked to.
-/

set_option autoImplicit false

namespace SheetTypes

namespace InferredType

structure Apart (first second : InferredType) : Prop where
  types : ∀ var, first.HasVar var → ¬second.HasVar var
  units : ∀ var, first.HasUnitVar var → ¬second.HasUnitVar var

def ApartLeaves : TypeVar ⊕ InferredUnit → TypeVar ⊕ InferredUnit → Prop
  | .inl var, .inl other => var ≠ other
  | .inr unit, .inr other => ∀ var ∈ unit.vars.keys, var ∉ other.vars.keys
  | .inl _, .inr _ | .inr _, .inl _ => True

instance : DecidableRel ApartLeaves
  | .inl var, .inl other => inferInstanceAs (Decidable (var ≠ other))
  | .inr unit, .inr other =>
    inferInstanceAs (Decidable (∀ var ∈ unit.vars.keys, var ∉ other.vars.keys))
  | .inl _, .inr _ | .inr _, .inl _ => inferInstanceAs (Decidable True)

theorem apart_iff_leaves {first second : InferredType} :
    first.Apart second ↔
      ∀ leaf ∈ first.leaves, ∀ other ∈ second.leaves, ApartLeaves leaf other := by
  constructor
  · rintro ⟨types, units⟩ (var | unit) has (other | shown) present
    · rintro rfl
      exact types var has present
    · trivial
    · trivial
    · intro var member occurs
      exact units var ⟨unit, has, member⟩ ⟨shown, present, occurs⟩
  · intro leaves
    constructor
    · intro var has present
      exact leaves _ has _ present rfl
    · rintro var ⟨unit, has, member⟩ ⟨shown, present, occurs⟩
      exact leaves _ has _ present var member occurs

instance (first second : InferredType) : Decidable (first.Apart second) :=
  decidable_of_iff _ apart_iff_leaves.symm

end InferredType

namespace Store

variable {store before after : Store} {left right type : InferredType}

/-- The variables of two resolved types, and the unit variables that are not there yet. -/
def footprint (store : Store) (left right : InferredType) : Region where
  types var := (resolve left store).1.HasVar var ∨ (resolve right store).1.HasVar var
  units var := store.units.size ≤ var.index ∨ (resolve left store).1.HasUnitVar var ∨
    (resolve right store).1.HasUnitVar var

/-- Unification changes nothing outside the footprint of the two types. -/
theorem unify_framed (registry : Option Registry) (wellformed : store.Wellformed)
    (leftCovered : store.Covers left) (rightCovered : store.Covers right) :
    Framed (store.footprint left right) store (Unification.unify registry left right store).2 := by
  have roomy : store.Roomy (store.footprint left right) := fun _ new => .inl new
  have leftInside : store.Inside (store.footprint left right) left := by
    intro readout reads
    rw [← resolve_read wellformed reads]
    exact ⟨fun _ has => .inl has, fun _ has => .inr (.inl has)⟩
  have rightInside : store.Inside (store.footprint left right) right := by
    intro readout reads
    rw [← resolve_read wellformed reads]
    exact ⟨fun _ has => .inr has, fun _ has => .inr (.inr has)⟩
  exact Touching.run_framed (Unification.unify_keepsTo registry wellformed leftCovered rightCovered
    roomy leftInside rightInside).steps

/-- A type that is resolved without variables of a region keeps its outline. -/
theorem Framed.outline_resolve {region : Region} (framed : Framed region before after)
    (wellformed : before.Wellformed) (wellformedAfter : after.Wellformed)
    (outside : ∀ var, (resolve type before).1.HasVar var → ¬region.types var) :
    (resolve type after).1.outline = (resolve type before).1.outline := by
  obtain ⟨earlier, earlierReads⟩ := wellformed.exists_readout
  obtain ⟨later, laterReads⟩ := wellformedAfter.exists_readout
  rw [resolve_read wellformed earlierReads] at outside ⊢
  rw [resolve_read wellformedAfter laterReads]
  exact (framed.readouts wellformed earlierReads laterReads).outline type outside

/-- A type resolves to what it did before as long as the variables there are still unbound, unless
an exponent stops at the limit. -/
theorem resolve_eq_of_extends (wellformed : before.Wellformed) (extended : before.Extends after)
    (covered : before.Covers type) (exactBefore : (resolve type before).2.exact = true)
    (exactAfter : (resolve type after).2.exact = true)
    (free : ∀ var, (resolve type before).1.HasVar var → after.typeLink? var = none)
    (unitsFree : ∀ var, (resolve type before).1.HasUnitVar var → after.unitLink? var = none) :
    (resolve type after).1 = (resolve type before).1 := by
  have wellformedAfter := extended.wellformed wellformed
  have coveredAfter := extended.covers covered
  have exact := (Shortens.settled (resolve_resolved wellformedAfter coveredAfter).steps).exact
    exactAfter
  have satisfies := extended.satisfies wellformed after.meaning (.inr exact)
    wellformedAfter.meaning_satisfies
  have own : after.meaning.type (resolve type before).1 =
      (resolve type before).1.substitute .var InferredUnit.free :=
    TypeTerm.substitute_congr _ (fun var has => extend_types_unbound _ (free var has))
      fun unit has => meaning_unit fun var member => unitsFree var ⟨unit, has, member⟩
  have resolved : after.meaning.type type =
      (resolve type after).1.substitute .var InferredUnit.free :=
    wellformedAfter.extend_resolve coveredAfter exactAfter _
  apply InferredType.free_injective
  rw [← resolved, ← own, type_resolve wellformed covered exactBefore satisfies]

def ResolveApart (store : Store) (first second : InferredType) : Prop :=
  (resolve first store).1.Apart (resolve second store).1

instance (store : Store) (first second : InferredType) :
    Decidable (store.ResolveApart first second) :=
  inferInstanceAs (Decidable (InferredType.Apart _ _))

section Footprint

variable {other : InferredType} (wellformed : store.Wellformed) (covered : store.Covers other)
  (apartLeft : store.ResolveApart other left) (apartRight : store.ResolveApart other right)

include apartLeft apartRight

theorem ResolveApart.not_footprint {var : TypeVar} (has : (resolve other store).1.HasVar var) :
    ¬(store.footprint left right).types var :=
  not_or.mpr ⟨apartLeft.types var has, apartRight.types var has⟩

include wellformed covered

theorem ResolveApart.not_footprint_unit {var : UnitVar}
    (has : (resolve other store).1.HasUnitVar var) : ¬(store.footprint left right).units var := by
  have resolved := resolve_resolved wellformed covered
  have coversResult := (Shortens.settled resolved.steps).covers.mp resolved.ends.covered
  refine not_or.mpr ⟨?_, not_or.mpr ⟨apartLeft.units var has, apartRight.units var has⟩⟩
  obtain ⟨unit, present, member⟩ := has
  exact Nat.not_le.mpr (coversResult.2 unit present var member)

/-- What a type is resolved to consists of variables that stay unbound. -/
theorem Framed.free_of_apart (framed : Framed (store.footprint left right) store after) :
    (∀ var, (resolve other store).1.HasVar var → after.typeLink? var = none) ∧
      ∀ var, (resolve other store).1.HasUnitVar var → after.unitLink? var = none := by
  have resolved := resolve_resolved wellformed covered
  have settled := Shortens.settled resolved.steps
  constructor
  · intro var has
    have within := (settled.covers.mp resolved.ends.covered).1 var has
    obtain ⟨requirements, found⟩ := exists_requirements within
      (settled.typeLink?_none.mp (resolved.ends.free var has))
    have kept := framed.requirements var (apartLeft.not_footprint apartRight has)
    exact typeLink?_of_requirements (kept.trans found)
  · intro var has
    have outside := apartLeft.not_footprint_unit wellformed covered apartRight has
    obtain ⟨unit, present, member⟩ := has
    exact framed.unitsFree var outside
      (settled.unitLink?_none.mp (resolved.ends.unitsFree unit present var member))

end Footprint

end Store

namespace Session

variable {session : Session} {registry : Option Registry} {left right : InferredType}

/-- Unification, whether it succeeds or fails, leaves the requirements of all type variables that
do not occur in the two resolved types, and the outline of every type that is apart from them when
resolved. It leaves what such a type resolves to if no exponent stops at the limit in the call, nor
in resolving the type before and after. -/
theorem unify_frame (reachable : session.Reachable) (leftCovered : session.store.Covers left)
    (rightCovered : session.store.Covers right) {result : Except TypeError InferredType}
    {after : Store}
    (unified : Unification.unify registry left right session.store = (result, after)) :
    (∀ var requirements, session.store.requirements? var = some requirements →
      ¬(Store.resolve left session.store).1.HasVar var →
      ¬(Store.resolve right session.store).1.HasVar var →
      after.requirements? var = some requirements) ∧
    ∀ other, session.store.Covers other → session.store.ResolveApart other left →
      session.store.ResolveApart other right →
      (Store.resolve other after).1.outline = (Store.resolve other session.store).1.outline ∧
      (session.store.RunsExactly (Store.resolve other) →
        session.store.RunsExactly (Unification.unify registry left right) →
        after.RunsExactly (Store.resolve other) →
        (Store.resolve other after).1 = (Store.resolve other session.store).1) := by
  have wellformed := reachable.wellformed
  have framed := Store.unify_framed registry wellformed leftCovered rightCovered
  rw [unified] at framed
  constructor
  · intro var requirements found notLeft notRight
    exact (framed.requirements var (not_or.mpr ⟨notLeft, notRight⟩)).trans found
  intro other covered apartLeft apartRight
  constructor
  · have steps := (Unification.unify_solves registry wellformed leftCovered
      rightCovered).yields.steps
    rw [unified] at steps
    have solvedWellformed := (Store.Solving.run_extends steps).wellformed wellformed
    exact framed.outline_resolve wellformed solvedWellformed
      fun var has => apartLeft.not_footprint apartRight has
  · intro exactBefore exactly exactAfter
    have run := (Unification.unify_ignoresNote registry left right).runs_of_exact exactly
    have steps := (Unification.unify_solves registry wellformed.renewed leftCovered
      rightCovered).yields.steps
    rw [run, unified] at steps
    have sameBefore := ((Store.resolve_ignoresNote other).runs session.store).1
    have sameAfter := ((Store.resolve_ignoresNote other).runs after).1
    have free := framed.free_of_apart wellformed covered apartLeft apartRight
    rw [← sameBefore] at free ⊢
    rw [← sameAfter]
    exact Store.resolve_eq_of_extends wellformed.renewed (Store.Solving.run_extends steps) covered
      exactBefore exactAfter free.1 free.2

/-- A failed unification that has linked a variable before leaves the others alone. -/
theorem unify_frame_failed :
    let session := ((((start .empty {}).after (.freshType .none)).after
      (.freshType (.single "Equatable" "="))).after .freshUnit).after .freshUnit
    let left : InferredType := .tuple [.var ⟨0⟩, .text]
    let right : InferredType := .tuple [.number (.ofVar ⟨0⟩), .boolean]
    let other : InferredType := .tuple [.var ⟨1⟩, .number (.ofVar ⟨1⟩)]
    let unified := Unification.unify none left right session.store
    unified.1.isOk = false ∧ unified.2.typeLink? ⟨0⟩ = some (.number (.ofVar ⟨0⟩)) ∧
      session.store.ResolveApart other left ∧ session.store.ResolveApart other right ∧
      unified.2.requirements? ⟨1⟩ = some (.single "Equatable" "=") ∧
      (Store.resolve other unified.2).1 = (Store.resolve other session.store).1 := by
  intro session left right other unified
  have reachable : session.Reachable :=
    ((((reachable_start .empty {}).after (.freshType .none) trivial).after
      (.freshType (.single "Equatable" "=")) trivial).after .freshUnit trivial).after
      .freshUnit trivial
  have leftCovered : session.store.Covers left := by decide +kernel
  have rightCovered : session.store.Covers right := by decide +kernel
  have covered : session.store.Covers other := by decide +kernel
  have apartLeft : session.store.ResolveApart other left := by decide +kernel
  have apartRight : session.store.ResolveApart other right := by decide +kernel
  have resolved : (Store.resolve other session.store).1 = other := rfl
  have has : (Store.resolve other session.store).1.HasVar ⟨1⟩ := by
    rw [resolved]
    exact List.mem_cons_self ..
  obtain ⟨requirements, types⟩ := unify_frame reachable leftCovered rightCovered
    (Prod.ext rfl rfl : Unification.unify none left right session.store = (unified.1, unified.2))
  refine ⟨by decide +kernel, by decide +kernel, apartLeft, apartRight, ?_, ?_⟩
  · exact requirements ⟨1⟩ (.single "Equatable" "=") (by decide +kernel)
      (apartLeft.types ⟨1⟩ has) (apartRight.types ⟨1⟩ has)
  · exact (types other covered apartLeft apartRight).2 (by decide +kernel) (by decide +kernel)
      (by decide +kernel)

/-- Variables that have cancelled out in a type come back where an exponent stops at the limit. -/
theorem resolved_changes_at_limit :
    let power (number : Int) : InferredType := .number ((UnitTerm.ofVar ⟨1⟩).raise number)
    let link (session : Session) (var : UnitVar) (number : Int) : Session :=
      session.after (.unify (.number (.ofVar var)) (power number))
    let vars := ((((start .empty {}).after .freshUnit).after .freshUnit).after
      .freshUnit).after .freshUnit
    let session := link (link (link vars ⟨0⟩ 1073741823) ⟨2⟩ (-2147483646)) ⟨3⟩ 1073741823
    let left : InferredType := .number (.ofVar ⟨1⟩)
    let right : InferredType := .number ((UnitTerm.named "m").raise 2)
    let other : InferredType :=
      .number (((UnitTerm.ofVar ⟨0⟩).multiply (.ofVar ⟨2⟩)).multiply (.ofVar ⟨3⟩))
    let unified := Unification.unify none left right session.store
    session.Reachable ∧ session.store.Covers left ∧ session.store.Covers right ∧
      session.store.Covers other ∧ session.store.ResolveApart other left ∧
      session.store.ResolveApart other right ∧ unified.1 = .ok left ∧
      (Store.resolve other session.store).1 = .number .scalar ∧
      (Store.resolve other unified.2).1 =
        .number ((UnitTerm.named "m").raise 2147483645) := by
  intro power link vars session left right other unified
  have reachable : session.Reachable :=
    ((((((((reachable_start .empty {}).after .freshUnit trivial).after .freshUnit trivial).after
      .freshUnit trivial).after .freshUnit trivial).after (.unify _ _)
      ⟨by decide +kernel, by decide +kernel⟩).after (.unify _ _)
      ⟨by decide +kernel, by decide +kernel⟩).after (.unify _ _)
      ⟨by decide +kernel, by decide +kernel⟩)
  refine ⟨reachable, ?_⟩
  decide +kernel

end Session

end SheetTypes
