import SheetTypes.Proofs.Session.Unification

/-!
Reading shortens links, and this cannot be seen. What types and units are resolved to depends on the
readout of the store alone, which shortening keeps; the same holds of what is bound and required.
Resolving goes all the way at once: no linked variable is left, and so nothing happens the second
time. None of this depends on exponents being exact.
-/

set_option autoImplicit false

namespace SheetTypes

namespace Store

/-- Whether two stores cannot be told apart by what their variables stand for: types resolve to the
same types and units are pruned to the same units, and the same variables are bound or have
requirements. -/
structure SeenAlike (before after : Store) : Prop where
  resolves : ∀ type, (resolve type after).1 = (resolve type before).1
  prunes : ∀ unit, (pruneUnit unit after).1 = (pruneUnit unit before).1
  typeBound : ∀ var, after.isTypeBound var = before.isTypeBound var
  unitBound : ∀ var, after.isUnitBound var = before.isUnitBound var
  requirements : ∀ var, after.requirements? var = before.requirements? var

def FinalUnit (store : Store) (unit : InferredUnit) : Prop :=
  ∀ var ∈ unit.vars.keys, store.isUnitBound var = false

def Final (store : Store) (type : InferredType) : Prop :=
  (∀ var, type.HasVar var → store.isTypeBound var = false) ∧
    ∀ unit, type.HasUnit unit → store.FinalUnit unit

variable {before after store : Store} {type : InferredType} {unit : InferredUnit}

theorem Shortens.seenAlike (shortens : before.Shortens after) (wellformed : before.Wellformed) :
    before.SeenAlike after := by
  have settled := Shortens.settled shortens
  exact ⟨settled.resolve wellformed, settled.pruneUnit wellformed, settled.typeBound,
    settled.unitBound, Shortens.requirements shortens⟩

theorem FinalUnit.pruneUnit (final : store.FinalUnit unit) (wellformed : store.Wellformed) :
    (Store.pruneUnit unit store).1 = unit := by
  obtain ⟨readout, reads⟩ := wellformed.exists_readout
  rw [(pruneUnit_reads wellformed reads unit).ends]
  exact reads.unit_free fun var member => by simpa [isUnitBound] using final var member

theorem Final.resolve (final : store.Final type) (wellformed : store.Wellformed) :
    (Store.resolve type store).1 = type := by
  obtain ⟨readout, reads⟩ := wellformed.exists_readout
  rw [resolve_read wellformed reads]
  refine (TypeTerm.substitute_congr type (fun var has => ?_) fun unit has => ?_).trans
    type.substitute_self
  · exact reads.freeTypes var (by simpa [isTypeBound] using final.1 var has)
  · exact reads.unit_free fun var member => by simpa [isUnitBound] using final.2 unit has var member

theorem Reduced.final {result : InferredUnit} (reduced : store.Reduced unit result) :
    store.FinalUnit result := by
  intro var member
  rw [isUnitBound, reduced.free var member]
  rfl

theorem Resolved.final {result : InferredType} (resolved : store.Resolved type result) :
    store.Final result := by
  refine ⟨fun var has => ?_, fun unit has var member => ?_⟩
  · rw [isTypeBound, resolved.free var has]
    rfl
  · rw [isUnitBound, resolved.unitsFree unit has var member]
    rfl

end Store

namespace Session

variable {session : Session} {type : InferredType} {unit : InferredUnit}

/-- Pruning and resolving leave a store that cannot be told from the one before. What they return
holds no linked variable, and is returned unchanged if they are applied to it again. -/
theorem reading_unseen (reachable : session.Reachable) (covered : session.store.Covers type)
    (unitCovered : session.store.CoversUnit unit) :
    (∀ after ∈ [(Store.prune type session.store).2, (Store.pruneUnit unit session.store).2,
        (Store.resolve type session.store).2, (Store.render type session.store).2],
      session.store.SeenAlike after) ∧
    (∀ result after, Store.resolve type session.store = (result, after) →
      after.Final result ∧ (Store.resolve result after).1 = result) ∧
    ∀ result after, Store.pruneUnit unit session.store = (result, after) →
      after.FinalUnit result ∧ (Store.pruneUnit result after).1 = result := by
  have wellformed := reachable.wellformed
  have prunes := Store.prune_yields wellformed type
  have prunesUnit :=
    (Store.pruneUnit_agree wellformed unitCovered pure (Nat.lt_succ_self _)).left
  have resolves := Store.resolve_resolved wellformed covered
  refine ⟨?_, ?_, ?_⟩
  · simp only [List.forall_mem_cons]
    exact ⟨Store.Shortens.seenAlike prunes.steps wellformed,
      Store.Shortens.seenAlike prunesUnit.steps wellformed,
      Store.Shortens.seenAlike resolves.steps wellformed,
      Store.Shortens.seenAlike resolves.steps wellformed, List.forall_mem_nil _⟩
  · intro result after done
    have steps := resolves.steps_to done
    have final := resolves.ends.final
    rw [done] at final
    exact ⟨final, final.resolve ((Store.Shortens.settled steps).wellformed wellformed)⟩
  · intro result after done
    have steps := prunesUnit.steps_to done
    have final := prunesUnit.ends.final
    rw [done] at final
    exact ⟨final, final.pruneUnit ((Store.Shortens.settled steps).wellformed wellformed)⟩

/-- Reading replaces the link of a type variable to another variable here, and the link of a unit
variable to a unit with a linked variable. -/
theorem reading_unseen_chains :
    let left : InferredType := .tuple [.var ⟨0⟩, .var ⟨1⟩, .number (.ofVar ⟨0⟩),
      .number (.ofVar ⟨1⟩)]
    let right : InferredType := .tuple [.var ⟨1⟩, .number (.ofVar ⟨0⟩),
      .number ((UnitTerm.ofVar ⟨1⟩).multiply (.named "m")), .number (UnitTerm.named "s").reciprocal]
    let session := (((((start .empty {}).after (.freshType .none)).after (.freshType .none)).after
      .freshUnit).after .freshUnit).after (.unify left right)
    let pruned := (Store.prune (.var ⟨1⟩) session.store).2
    let resolved := (Store.resolve (.var ⟨1⟩) session.store).2
    session.store.typeLink? ⟨1⟩ = some (.var ⟨0⟩) ∧
      pruned.typeLink? ⟨1⟩ = some (.number (.ofVar ⟨0⟩)) ∧ session.store.SeenAlike pruned ∧
      resolved.unitLink? ⟨0⟩ ≠ session.store.unitLink? ⟨0⟩ ∧ session.store.SeenAlike resolved ∧
      resolved.Final (Store.resolve (.var ⟨1⟩) session.store).1 := by
  intro left right session pruned resolved
  have reachable : session.Reachable :=
    (((((reachable_start .empty {}).after (.freshType .none) trivial).after (.freshType .none)
      trivial).after .freshUnit trivial).after .freshUnit trivial).after (.unify left right)
        ⟨by decide +kernel, by decide +kernel⟩
  have covered : session.store.Covers (.var ⟨1⟩) := by decide +kernel
  have unitCovered : session.store.CoversUnit (.ofVar ⟨0⟩) := by decide +kernel
  obtain ⟨alike, resolves, _⟩ := reading_unseen reachable covered unitCovered
  have shown := resolves _ _ Prod.mk.eta.symm
  exact ⟨by decide +kernel, by decide +kernel, alike pruned (.head _), by decide +kernel,
    alike resolved (.tail _ (.tail _ (.head _))), shown.1⟩

end Session

end SheetTypes
