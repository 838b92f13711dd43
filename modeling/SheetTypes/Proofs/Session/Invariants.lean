import SheetTypes.Proofs.Session.Reachability

/-!
What holds of every session that can be reached: links never run in a circle and lead to variables
of the session only, linked variables stay linked, and walks along the links come to an end. The
store is never to blame for a failure.
-/

set_option autoImplicit false

namespace SheetTypes

namespace Store

structure SoundLinks (store : Store) : Prop where
  typesAcyclic : ∀ var, ¬Relation.TransGen store.TypeEdge var var
  unitsAcyclic : ∀ var, ¬Relation.TransGen store.UnitEdge var var
  typesCovered : ∀ var target, store.typeLink? var = some target → store.Covers target
  unitsCovered : ∀ var target, store.unitLink? var = some target → store.CoversUnit target

/-- Walks come to an end by themselves: with any number of links above the number of variables they
do the same, whatever `stop` does where no more links may be taken. -/
structure WalksEnd (store : Store) : Prop where
  prune : ∀ type last, (prune type store).1 = .var last →
    (prune type store).2.typeLink? last = none
  occurs : ∀ var type, store.Covers type → ∀ stop links, store.types.size < links →
    Unification.occurs var type store = type.anyVarM (occurrence var stop links) store
  offers : ∀ type capability, store.Covers type → ∀ stop links, store.types.size < links →
    offers type capability store =
      offersTerm (offering capability stop links) capability type store
  enforce : ∀ required type, store.Covers type → required.isEmpty = false →
    ∀ stop links, store.types.size < links →
      enforce required type store =
        enforceTerm (enforcement required stop links) required type store
  resolve : ∀ type, store.Covers type → ∀ stop links, store.types.size < links →
    resolve type store = type.substituteM (resolution stop links) pruneUnit store
  pruneUnit : ∀ unit, store.CoversUnit unit → ∀ stop links, store.units.size < links →
    pruneUnit unit store = reduceUnit stop links unit store

variable {store : Store}

theorem Wellformed.soundLinks (wellformed : store.Wellformed) : store.SoundLinks := by
  obtain ⟨typeRank, typeRanking⟩ := wellformed.typesRanked
  obtain ⟨unitRank, unitRanking⟩ := wellformed.unitsRanked
  exact ⟨typeRanking.acyclic, unitRanking.acyclic, wellformed.typesCovered, wellformed.unitsCovered⟩

theorem Wellformed.walksEnd (wellformed : store.Wellformed) : store.WalksEnd where
  prune type last same := (prune_yields wellformed type).ends.2 last same
  occurs var _ covered stop _ enough := (occurs_agree wellformed var covered stop enough).same
  offers _ capability covered stop _ enough :=
    (offers_agree wellformed covered capability stop enough).same
  enforce required type covered some stop links enough := by
    have agree := enforce_agree wellformed covered required stop enough
    rw [some] at agree
    exact agree.same
  resolve _ covered stop _ enough := (resolve_agree wellformed covered stop enough).same
  pruneUnit _ covered stop _ enough := (pruneUnit_agree wellformed covered stop enough).same

end Store

namespace Session

variable {session : Session}

theorem reachable_links_sound (reachable : session.Reachable) :
    session.store.SoundLinks ∧ session.store.WalksEnd ∧
    (∀ later, Later session later →
      (∀ var, session.store.isTypeBound var = true → later.store.isTypeBound var = true) ∧
        ∀ var, session.store.isUnitBound var = true → later.store.isUnitBound var = true) ∧
    ∀ operation : Operation, operation.InScope session.store →
      ∀ failure, (operation.perform session).1 = .error failure → ¬failure.BlamesStore := by
  have wellformed := reachable.wellformed
  refine ⟨wellformed.soundLinks, wellformed.walksEnd, ?_, ?_⟩
  · intro later reached
    have extended := Store.Evolves.extends (Later.evolves reached wellformed)
    exact ⟨extended.typeBound, extended.unitBound⟩
  · intro operation scope failure failed
    have ends := (operation.perform_yields wellformed scope).ends
    rw [failed] at ends
    exact ends

theorem reachable_links_sound_array :
    let session := (((start .empty {}).after (.freshType .none)).after (.freshType .none)).after
      (.unify (.var ⟨0⟩) (.array (.var ⟨1⟩)))
    session.Reachable ∧ session.store.isTypeBound ⟨0⟩ = true ∧
      session.store.SoundLinks ∧ session.store.WalksEnd ∧
      ∀ failure, ((Operation.unify (.var ⟨1⟩) (.var ⟨0⟩)).perform session).1 = .error failure →
        ¬failure.BlamesStore := by
  intro session
  have reachable : session.Reachable :=
    (((reachable_start .empty {}).after (.freshType .none) trivial).after (.freshType .none)
      trivial).after (.unify (.var ⟨0⟩) (.array (.var ⟨1⟩))) ⟨by decide +kernel, by decide +kernel⟩
  obtain ⟨links, walks, _, failures⟩ := reachable_links_sound reachable
  exact ⟨reachable, by decide +kernel, links, walks,
    failures (.unify (.var ⟨1⟩) (.var ⟨0⟩)) ⟨by decide +kernel, by decide +kernel⟩⟩

end Session

end SheetTypes
