import SheetTypes.Proofs.Session.Requirements

/-!
Asking types for capabilities and requiring capabilities of them. A requirement is accepted exactly
if the type offers everything that is required. It is then placed on the unbound variables in the
type and nowhere else.
-/

set_option autoImplicit false

namespace SheetTypes

namespace Store

variable {store before after : Store} {required : Requirements} {asked : TypeVar → Prop}
  {type : InferredType} {var : TypeVar} {old : Requirements}

theorem offers_iff_shape (wellformed : store.Wellformed) (covered : store.Covers type)
    (capability : String) :
    (offers type capability store).1 = true ↔
      (store.shape type).Offers (fun _ => True) capability :=
  (offers_agree wellformed covered capability (fun _ => return true) (Nat.lt_succ_self _)).ends

theorem enforce_demands (wellformed : store.Wellformed) (covered : store.Covers type)
    (required : Requirements) :
    Yields (Demand required (store.shape type).HasVar) store (enforce required type)
      (Outcome (Lacking required (store.shape type)) fun _ after => after.Placed required type) :=
  (enforce_agree wellformed covered required (fun _ => pure ()) (Nat.lt_succ_self _)).left

/-- Requiring capabilities adds nothing else to the requirements of a variable. -/
theorem Demands.exists_union (demands : Demands required asked before after)
    (found : before.requirements? var = some old) :
    ∃ new, after.requirements? var = some new ∧
      (∀ capability, capability ∈ new.names →
        capability ∈ old.names ∨ capability ∈ required.names) ∧
      ∀ capability ∈ old.names, capability ∈ new.names := by
  induction demands with
  | refl => exact ⟨old, found, fun _ => .inl, fun _ member => member⟩
  | tail _ step ih =>
    obtain ⟨new, foundNew, among, kept⟩ := ih
    cases step with
    | shorten shortening =>
      exact ⟨new, (shortening.requirements var).trans foundNew, among, kept⟩
    | @require changed current _ foundCurrent =>
      by_cases same : var = changed
      · subst same
        rw [foundNew] at foundCurrent
        cases foundCurrent
        refine ⟨_, requirements?_setType_self (index_lt_of_requirements foundNew), ?_, ?_⟩
        · intro capability member
          rcases Requirements.mem_names_union.mp member with earlier | added
          · exact among capability earlier
          · exact .inr added
        · intro capability member
          exact Requirements.mem_names_union.mpr (.inl (kept capability member))
      · exact ⟨new, (requirements?_setType_of_ne same).trans foundNew, among, kept⟩

/-- Where capabilities have been required of a type, its unbound variables have gained them. -/
theorem Demands.names_of_placed (demands : Demands required asked before after)
    (placed : after.Placed required type) (has : (after.shape type).HasVar var)
    (found : before.requirements? var = some old) :
    ∃ new, after.requirements? var = some new ∧
      ∀ capability, capability ∈ new.names ↔
        capability ∈ old.names ∨ capability ∈ required.names := by
  obtain ⟨new, foundNew, among, kept⟩ := demands.exists_union found
  refine ⟨new, foundNew, fun capability => ⟨among capability, ?_⟩⟩
  rintro (earlier | member)
  · exact kept capability earlier
  · obtain ⟨current, foundCurrent, named, _⟩ := (placed capability member).of_hasVar has
    rw [foundNew] at foundCurrent
    cases foundCurrent
    exact named

end Store

namespace Session

open Store

variable {session : Session} {type : InferredType}

/-- A requirement is accepted exactly if the type offers each capability in it. The unbound
variables that the type resolves to then require it on top of what they did, all other requirements
stay as they are, and no variable is linked. -/
theorem enforce_iff_offers (reachable : session.Reachable) (covered : session.store.Covers type)
    (required : Requirements) :
    ((enforce required type session.store).1 = .ok () ↔
      ∀ capability ∈ required.names, (offers type capability session.store).1 = true) ∧
    ∀ after, enforce required type session.store = (.ok (), after) →
      (∀ var old, session.store.requirements? var = some old →
        (Store.resolve type session.store).1.HasVar var →
          ∃ new, after.requirements? var = some new ∧ ∀ capability,
            capability ∈ new.names ↔ capability ∈ old.names ∨ capability ∈ required.names) ∧
      (∀ var, ¬(Store.resolve type session.store).1.HasVar var →
        after.requirements? var = session.store.requirements? var) ∧
      (∀ var, after.isTypeBound var = session.store.isTypeBound var) ∧
      ∀ var, after.isUnitBound var = session.store.isUnitBound var := by
  have wellformed := reachable.wellformed
  have demands := enforce_demands wellformed covered required
  have steps := demands.steps
  have ends := demands.ends
  have settled := Adjusts.settled (Demands.adjusts steps)
  simp only [offers_iff_shape wellformed covered, wellformed.hasVar_resolve covered]
  constructor
  · generalize (enforce required type session.store).1 = found at ends
    constructor
    · rintro rfl capability member
      have offers := ends capability member
      rw [settled.shape wellformed] at offers
      exact offers.mono fun _ _ => trivial
    · intro offers
      cases found with
      | ok value => rfl
      | error error =>
        obtain ⟨_, capability, member, lacking⟩ := ends
        exact absurd (offers capability member) lacking
  · intro after done
    rw [done] at steps ends settled
    refine ⟨fun var old found has => ?_, fun var absent => Demands.requirements steps absent,
      settled.typeBound, settled.unitBound⟩
    rw [← settled.shape wellformed] at has
    exact Demands.names_of_placed steps ends has found

theorem enforce_iff_offers_array :
    let session := (((start .empty {}).after (.freshType (.single "Equatable" "="))).after
      (.freshType .none)).after (.unify (.var ⟨1⟩) (.array (.var ⟨0⟩)))
    let required := Requirements.single "Comparable" "<"
    let type : InferredType := .tuple [.var ⟨1⟩, .text]
    (∀ capability ∈ required.names, (offers type capability session.store).1 = true) ∧
      ∃ after new, enforce required type session.store = (.ok (), after) ∧
        after.requirements? ⟨0⟩ = some new ∧
          "Equatable" ∈ new.names ∧ "Comparable" ∈ new.names := by
  intro session required type
  have reachable : session.Reachable :=
    (((reachable_start .empty {}).after (.freshType (.single "Equatable" "=")) trivial).after
      (.freshType .none) trivial).after (.unify (.var ⟨1⟩) (.array (.var ⟨0⟩)))
      ⟨by decide +kernel, by decide +kernel⟩
  have offered (capability : String) (member : capability ∈ required.names) :
      (offers type capability session.store).1 = true := by
    revert capability
    decide +kernel
  obtain ⟨accepted, places⟩ := enforce_iff_offers reachable
    (by decide +kernel : session.store.Covers type) required
  have done := Prod.ext (accepted.mpr offered) rfl
  have resolved : (Store.resolve type session.store).1 = .tuple [.array (.var ⟨0⟩), .text] := rfl
  have has : (Store.resolve type session.store).1.HasVar ⟨0⟩ := by
    rw [resolved]
    exact List.mem_cons_self ..
  obtain ⟨placed, _⟩ := places _ done
  obtain ⟨new, found, names⟩ := placed ⟨0⟩ (.single "Equatable" "=") (by decide +kernel) has
  exact ⟨offered, _, new, done, found, (names _).mpr (.inl (by decide +kernel)),
    (names _).mpr (.inr (by decide +kernel))⟩

/-- Nothing can be required of a variable that the session has not made, though it is taken to
offer everything. -/
theorem enforce_fails_outside_store :
    let session := start .empty {}
    let required := Requirements.single "Comparable" "<"
    session.Reachable ∧ (enforce required (.var ⟨5⟩) session.store).1 ≠ .ok () ∧
      ∀ capability ∈ required.names, (offers (.var ⟨5⟩) capability session.store).1 = true := by
  intro session required
  have failed : (enforce required (.var ⟨5⟩) session.store).1 = .error (strange "_t5") := rfl
  refine ⟨reachable_start .empty {}, ?_, by decide +kernel⟩
  rw [failed]
  exact except_error_ne_ok

end Session

end SheetTypes
