import SheetTypes.Proofs.Session.Requirements
import SheetTypes.Proofs.Session.Unification
import SheetTypes.Proofs.Unification.Exactness
import SheetTypes.Proofs.Unification.Symmetry

/-!
Unification in sessions with the sides exchanged. As long as no exponent passes the limit, both ways
succeed or none does, and they leave the same type variables unbound, with the same requirements.
The types that all variables resolve to are the same but for their units.
-/

set_option autoImplicit false

namespace SheetTypes

namespace Store

variable {store first second : Store} {type : InferredType}

/-- Shapes are a matter of type variables only. -/
theorem Wellformed.shape_of_types (wellformed : first.Wellformed)
    (otherWellformed : second.Wellformed) (same : second.types = first.types) :
    second.shape type = first.shape type := by
  have links := typeLink?_of_types same
  let outlines : Valuation TypeVar Unit := ⟨.var, fun _ => ()⟩
  have satisfies : (second.extend outlines).Satisfies first := by
    refine ⟨fun var target linked => ?_, fun _ _ _ => rfl⟩
    rw [← links] at linked
    exact (otherWellformed.extend_satisfies _).types var target linked
  have equal := wellformed.satisfies_unique satisfies (wellformed.extend_satisfies outlines)
    (fun var free => by
      rw [extend_types_unbound _ free, extend_types_unbound]
      rw [links]
      exact free) fun _ _ => rfl
  unfold shape
  rw [equal]

theorem Wellformed.outline_resolve (wellformed : store.Wellformed) (covered : store.Covers type) :
    (resolve type store).1.outline = store.shape type := by
  have resolved := resolve_resolved wellformed covered
  have settled := Shortens.settled resolved.steps
  rw [← settled.shape wellformed]
  exact (resolved.ends.shape (settled.wellformed wellformed)).symm

theorem Wellformed.same_variable (wellformed : first.Wellformed)
    (otherWellformed : second.Wellformed) (same : second.types = first.types) {var : TypeVar}
    (within : var.index < first.types.size) :
    first.isTypeBound var = second.isTypeBound var ∧
      (resolve (.var var) first).1.outline = (resolve (.var var) second).1.outline ∧
      first.requirements? var = second.requirements? var := by
  have otherWithin : var.index < second.types.size := by
    rw [same]
    exact within
  refine ⟨?_, ?_, (requirements?_of_types same var).symm⟩
  · unfold isTypeBound
    rw [typeLink?_of_types same]
  · rw [wellformed.outline_resolve (covers_var.mpr within),
      otherWellformed.outline_resolve (covers_var.mpr otherWithin),
      wellformed.shape_of_types otherWellformed same]

end Store

open Store

namespace Session

variable {session : Session} {left right : InferredType}

/-- Unification has the same outcome with the sides exchanged, unless an exponent passes the limit
in one of the two runs. -/
theorem unify_exchanged (reachable : session.Reachable) (registry : Option Registry)
    (leftCovered : session.store.Covers left) (rightCovered : session.store.Covers right)
    (exact : (Unification.unify registry left right session.store.renewed).2.exact = true)
    (otherExact : (Unification.unify registry right left session.store.renewed).2.exact = true) :
    ((∃ type, (Unification.unify registry left right session.store).1 = .ok type) ↔
      ∃ type, (Unification.unify registry right left session.store).1 = .ok type) ∧
    ∀ type other after later,
      Unification.unify registry left right session.store = (.ok type, after) →
      Unification.unify registry right left session.store = (.ok other, later) →
      ∀ var, var.index < session.store.types.size →
        after.isTypeBound var = later.isTypeBound var ∧
        (Store.resolve (.var var) after).1.outline = (Store.resolve (.var var) later).1.outline ∧
        after.requirements? var = later.requirements? var := by
  have together := Unification.unify_together registry reachable.wellformed.renewed rfl leftCovered
    rightCovered
  have wellformed {first second type : InferredType} {after : Store}
      (firstCovered : session.store.Covers first) (secondCovered : session.store.Covers second)
      (unified : Unification.unify registry first second session.store = (.ok type, after)) :
      after.Wellformed ∧ after.types.size = session.store.types.size := by
    have solves := Unification.unify_solves registry reachable.wellformed firstCovered secondCovered
    have steps := solves.yields.steps
    rw [unified] at steps
    exact ⟨(Solving.run_extends steps).wellformed reachable.wellformed, Solving.run_typeCount steps⟩
  constructor
  · rw [← Unification.unify_renewed_succeeds, together.succeeds_iff exact otherExact]
    exact Unification.unify_renewed_succeeds
  · intro type other after later unified exchanged var within
    obtain ⟨afterWellformed, afterCount⟩ := wellformed leftCovered rightCovered unified
    obtain ⟨laterWellformed, _⟩ := wellformed rightCovered leftCovered exchanged
    obtain ⟨first, firstRun, firstTypes⟩ := Unification.unify_renewed_of_ok unified
    obtain ⟨second, secondRun, secondTypes⟩ := Unification.unify_renewed_of_ok exchanged
    rw [firstRun] at together exact
    rw [secondRun] at together otherExact
    have types := (together.abreast exact otherExact).types
    rw [firstTypes, secondTypes] at types
    exact afterWellformed.same_variable laterWellformed types (by rwa [afterCount])

/-- The two ways create different numbers of unit variables here. -/
theorem unify_exchanged_drifting :
    let session := ((((start .empty {}).after (.freshType .none)).after
      (.freshType (.single "Equatable" "="))).after .freshUnit).after .freshUnit
    let left : InferredType := .tuple [.number ((UnitTerm.ofVar ⟨0⟩).raise 3), .var ⟨0⟩]
    let right : InferredType := .tuple [.number ((UnitTerm.ofVar ⟨1⟩).raise 5), .var ⟨1⟩]
    ∃ type other after later,
      Unification.unify none left right session.store = (.ok type, after) ∧
      Unification.unify none right left session.store = (.ok other, later) ∧
      after.units.size ≠ later.units.size ∧
      after.isTypeBound ⟨1⟩ = true ∧ later.isTypeBound ⟨1⟩ = true ∧
      (Store.resolve (.var ⟨1⟩) after).1.outline = (Store.resolve (.var ⟨1⟩) later).1.outline ∧
      after.requirements? ⟨0⟩ = later.requirements? ⟨0⟩ := by
  intro session left right
  have reachable : session.Reachable :=
    ((((reachable_start .empty {}).after (.freshType .none) trivial).after
      (.freshType (.single "Equatable" "=")) trivial).after .freshUnit trivial).after .freshUnit
        trivial
  have leftCovered : session.store.Covers left := by decide +kernel
  have rightCovered : session.store.Covers right := by decide +kernel
  have exact : (Unification.unify none left right session.store.renewed).2.exact = true := by
    decide +kernel
  have otherExact : (Unification.unify none right left session.store.renewed).2.exact = true := by
    decide +kernel
  have succeeds : (Unification.unify none left right session.store).1.isOk = true := by
    decide +kernel
  have bound : (Unification.unify none left right session.store).2.isTypeBound ⟨1⟩ = true := by
    decide +kernel
  have drifts : (Unification.unify none left right session.store).2.units.size ≠
      (Unification.unify none right left session.store).2.units.size := by
    decide +kernel
  have within : 1 < session.store.types.size := by decide +kernel
  obtain ⟨both, same⟩ :=
    unify_exchanged reachable none leftCovered rightCovered exact otherExact
  generalize Unification.unify none left right session.store = unified at *
  generalize Unification.unify none right left session.store = exchanged at *
  obtain ⟨found, after⟩ := unified
  obtain ⟨otherFound, later⟩ := exchanged
  cases found with
  | error error => cases succeeds
  | ok type =>
    obtain ⟨other, rfl⟩ := both.mp ⟨type, rfl⟩
    have each := same type other after later rfl rfl
    obtain ⟨sameBound, sameOutline, _⟩ := each ⟨1⟩ within
    obtain ⟨_, _, sameRequirements⟩ := each ⟨0⟩ (Nat.lt_of_succ_lt within)
    exact ⟨type, other, after, later, rfl, rfl, drifts, bound, sameBound.symm.trans bound,
      sameOutline, sameRequirements⟩

end Session

end SheetTypes
