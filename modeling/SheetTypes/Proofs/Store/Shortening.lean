import SheetTypes.Proofs.Store.Readout
import SheetTypes.Proofs.Store.Valuation

/-!
Shortening links: a linked type variable may skip to a later end of its chain of variables, and a
linked unit variable to its unit with the linked variables in it replaced. Neither changes what is
bound, how deep links go or how the store is read; nor which valuations satisfy it, as long as no
exponent passes the limit or values of units are left out of account.
-/

set_option autoImplicit false

namespace SheetTypes.Store

/-- Whether values in a group can be trusted: the store is exact, or the group has one value. -/
def Faithful (store : Store) (G : Type) : Prop := Subsingleton G ∨ store.exact = true

/-- The types that a linked variable stands for: its target, and if that is a variable, what the
variable stands for. -/
inductive Leads (store : Store) : TypeVar → InferredType → Prop where
  | last {var : TypeVar} {target : InferredType} (linked : store.typeLink? var = some target) :
      Leads store var target
  | next {var middle : TypeVar} {target : InferredType}
      (linked : store.typeLink? var = some (.var middle)) (rest : Leads store middle target) :
      Leads store var target

inductive Shortening : Store → Store → Prop where
  | type {store : Store} {var : TypeVar} {target : InferredType} (leads : store.Leads var target) :
      Shortening store (store.setType var (.link target))
  | unit {store : Store} {var : UnitVar} {target shorter : InferredUnit}
      (linked : store.unitLink? var = some target) (covered : store.CoversUnit shorter)
      (free : ∀ next ∈ shorter.vars.keys, store.unitLink? next = none)
      (same : store.exact = true → ∀ {ν G : Type} [UnitGroup G] (valuation : Valuation ν G),
        valuation.Satisfies store → valuation.unit shorter = valuation.unit target)
      (reads : ∀ readout : Readout, readout.Reads store →
        readout.unit shorter = readout.unit target) :
      Shortening store (store.setUnit var (.link shorter))
  | note (store : Store) (within : Bool) :
      Shortening store ⟨store.types, store.units, store.exact && within⟩

abbrev Shortens : Store → Store → Prop := Relation.ReflTransGen Shortening

structure Settled (before after : Store) : Prop where
  typeCount : after.types.size = before.types.size
  unitCount : after.units.size = before.units.size
  typeBound : ∀ var, after.isTypeBound var = before.isTypeBound var
  unitBound : ∀ var, after.isUnitBound var = before.isUnitBound var
  typeRanked : ∀ rank, before.TypeRanking rank → after.TypeRanking rank
  unitRanked : ∀ rank, before.UnitRanking rank → after.UnitRanking rank
  exact : after.exact = true → before.exact = true
  wellformed : before.Wellformed → after.Wellformed
  depth : ∀ bound, (∀ var target, before.typeLink? var = some target → target.depth ≤ bound) →
    ∀ var target, after.typeLink? var = some target → target.depth ≤ bound
  satisfies : before.Wellformed → ∀ {ν G : Type} [UnitGroup G] (valuation : Valuation ν G),
    after.Faithful G → (valuation.Satisfies after ↔ valuation.Satisfies before)
  reads : before.Wellformed → ∀ readout : Readout, readout.Reads after ↔ readout.Reads before

variable {store before middle after : Store} {var : TypeVar} {target : InferredType} {G ν : Type}
  {unit : InferredUnit} {unitVar : UnitVar}

theorem Faithful.mono (keeps : after.exact = true → before.exact = true)
    (faithful : after.Faithful G) : before.Faithful G := by
  rcases faithful with trivial | exact
  · exact .inl trivial
  · exact .inr (keeps exact)

theorem faithful_unit (store : Store) : store.Faithful Unit := .inl inferInstance

theorem Leads.bound (leads : store.Leads var target) : store.isTypeBound var = true := by
  cases leads with
  | last linked => exact isTypeBound_iff.mpr ⟨_, linked⟩
  | next linked _ => exact isTypeBound_iff.mpr ⟨_, linked⟩

theorem Leads.index_lt (leads : store.Leads var target) : var.index < store.types.size := by
  obtain ⟨_, linked⟩ := isTypeBound_iff.mp leads.bound
  exact index_lt_of_typeLink linked

theorem Leads.exists_link (leads : store.Leads var target) :
    ∃ holder, store.typeLink? holder = some target := by
  induction leads with
  | last linked => exact ⟨_, linked⟩
  | next _ _ ih => exact ih

theorem Leads.rank_lt {rank : TypeVar → Nat} (ranking : store.TypeRanking rank)
    (leads : store.Leads var target) {next : TypeVar} (has : target.HasVar next) :
    rank next < rank var := by
  induction leads with
  | last linked => exact ranking.below _ _ ⟨_, linked, has⟩
  | @next var middle _ linked _ ih =>
    have less := ranking.below var middle
      ⟨_, linked, by simp [TypeTerm.HasVar, TypeTerm.leaves]⟩
    exact Nat.lt_trans (ih has) less

theorem Leads.value [UnitGroup G] {valuation : Valuation ν G} (leads : store.Leads var target)
    (satisfies : valuation.Satisfies store) : valuation.types var = valuation.type target := by
  induction leads with
  | last linked => exact satisfies.types _ _ linked
  | next linked _ ih => exact (satisfies.types _ _ linked).trans ih

theorem Leads.read {readout : Readout} (leads : store.Leads var target)
    (reads : readout.Reads store) : readout.types var = readout.type target := by
  induction leads with
  | last linked => exact reads.types _ _ linked
  | next linked _ ih => exact (reads.types _ _ linked).trans ih

/-- Skipping to the end of a chain leaves the chains to that end. -/
theorem Leads.setType {skipped : TypeVar} (skips : skipped.index < store.types.size)
    (leads : store.Leads var target) :
    (store.setType skipped (.link target)).Leads var target := by
  induction leads with
  | @last var target linked =>
    by_cases same : var = skipped
    · subst same
      exact .last (typeLink?_setType_self skips)
    · exact .last ((typeLink?_setType_of_ne same).trans linked)
  | @next var middle target linked _ ih =>
    by_cases same : var = skipped
    · subst same
      exact .last (typeLink?_setType_self skips)
    · exact .next ((typeLink?_setType_of_ne same).trans linked) ih

namespace Settled

theorem refl (store : Store) : store.Settled store where
  typeCount := rfl
  unitCount := rfl
  typeBound _ := rfl
  unitBound _ := rfl
  typeRanked _ ranking := ranking
  unitRanked _ ranking := ranking
  exact exact := exact
  wellformed wellformed := wellformed
  depth _ within := within
  satisfies _ _ _ _ _ _ := Iff.rfl
  reads _ _ := Iff.rfl

theorem trans (first : before.Settled middle) (second : middle.Settled after) :
    before.Settled after where
  typeCount := second.typeCount.trans first.typeCount
  unitCount := second.unitCount.trans first.unitCount
  typeBound var := (second.typeBound var).trans (first.typeBound var)
  unitBound var := (second.unitBound var).trans (first.unitBound var)
  typeRanked rank ranking := second.typeRanked rank (first.typeRanked rank ranking)
  unitRanked rank ranking := second.unitRanked rank (first.unitRanked rank ranking)
  exact exact := first.exact (second.exact exact)
  wellformed wellformed := second.wellformed (first.wellformed wellformed)
  depth bound within := second.depth bound (first.depth bound within)
  satisfies wellformed _ _ _ valuation faithful :=
    (second.satisfies (first.wellformed wellformed) valuation faithful).trans
      (first.satisfies wellformed valuation (faithful.mono second.exact))
  reads wellformed readout :=
    (second.reads (first.wellformed wellformed) readout).trans (first.reads wellformed readout)

theorem covers (settled : before.Settled after) {type : InferredType} :
    after.Covers type ↔ before.Covers type := by
  unfold Covers CoversUnit
  rw [settled.typeCount, settled.unitCount]

theorem coversUnit (settled : before.Settled after) :
    after.CoversUnit unit ↔ before.CoversUnit unit := by
  unfold CoversUnit
  rw [settled.unitCount]

theorem typeLink?_none (settled : before.Settled after) :
    after.typeLink? var = none ↔ before.typeLink? var = none := by
  have same := settled.typeBound var
  unfold isTypeBound at same
  rw [← Option.isNone_iff_eq_none, ← Option.isNone_iff_eq_none, ← Option.not_isSome,
    ← Option.not_isSome, same]

theorem unitLink?_none (settled : before.Settled after) {var : UnitVar} :
    after.unitLink? var = none ↔ before.unitLink? var = none := by
  have same := settled.unitBound var
  unfold isUnitBound at same
  rw [← Option.isNone_iff_eq_none, ← Option.isNone_iff_eq_none, ← Option.not_isSome,
    ← Option.not_isSome, same]

theorem shape (settled : before.Settled after) (wellformed : before.Wellformed)
    (type : InferredType) : after.shape type = before.shape type := by
  have satisfies := (settled.wellformed wellformed).extend_satisfies
    (⟨.var, fun _ => ()⟩ : Valuation TypeVar Unit)
  have before := (settled.satisfies wellformed _ (faithful_unit after)).mp satisfies
  refine wellformed.type_eq_shape before ?_ type
  intro var free
  exact extend_types_unbound _ (settled.typeLink?_none.mpr free)

/-- Stores with the same links differ in nothing that links tell. -/
theorem of_links (typeLinks : after.typeLink? = before.typeLink?)
    (unitLinks : after.unitLink? = before.unitLink?)
    (typeCount : after.types.size = before.types.size)
    (unitCount : after.units.size = before.units.size)
    (exact : after.exact = true → before.exact = true) : before.Settled after := by
  constructor
  · exact typeCount
  · exact unitCount
  · intro var
    rw [isTypeBound, typeLinks, isTypeBound]
  · intro var
    rw [isUnitBound, unitLinks, isUnitBound]
  · unfold TypeRanking TypeEdge isTypeBound
    rw [typeLinks]
    exact fun _ ranking => ranking
  · unfold UnitRanking UnitEdge isUnitBound
    rw [unitLinks]
    exact fun _ ranking => ranking
  · exact exact
  · intro wellformed
    exact wellformed.of_links typeLinks unitLinks (Nat.le_of_eq typeCount.symm)
      (Nat.le_of_eq unitCount.symm)
  · rw [typeLinks]
    exact fun _ shallow => shallow
  · intro _ _ _ _ valuation _
    exact Valuation.satisfies_of_links typeLinks unitLinks
  · exact fun _ _ => Readout.reads_of_links typeLinks unitLinks

end Settled

private theorem satisfies_of_forward [UnitGroup G] (wellformed : before.Wellformed)
    (wellformedAfter : after.Wellformed)
    (typeBound : ∀ var, after.isTypeBound var = before.isTypeBound var)
    (unitBound : ∀ var, after.isUnitBound var = before.isUnitBound var)
    (forward : ∀ valuation : Valuation ν G, valuation.Satisfies before → valuation.Satisfies after)
    (valuation : Valuation ν G) : valuation.Satisfies after ↔ valuation.Satisfies before := by
  refine ⟨fun satisfies => ?_, forward valuation⟩
  have extended := wellformed.extend_satisfies valuation
  have same : valuation = before.extend valuation := by
    refine wellformedAfter.satisfies_unique satisfies (forward _ extended) ?_ ?_
    · intro var free
      refine (extend_types_unbound valuation ?_).symm
      have unbound := typeBound var
      rw [isTypeBound, isTypeBound, free] at unbound
      simpa using unbound.symm
    · intro var free
      refine (extend_units_unbound valuation ?_).symm
      have unbound := unitBound var
      rw [isUnitBound, isUnitBound, free] at unbound
      simpa using unbound.symm
  rw [same]
  exact extended

private theorem reads_of_forward (wellformed : before.Wellformed)
    (wellformedAfter : after.Wellformed)
    (forward : ∀ readout : Readout, readout.Reads before → readout.Reads after)
    (readout : Readout) : readout.Reads after ↔ readout.Reads before := by
  refine ⟨fun reads => ?_, forward readout⟩
  obtain ⟨other, otherReads⟩ := wellformed.exists_readout
  rw [wellformedAfter.readout_unique reads (forward other otherReads)]
  exact otherReads

private theorem isTypeBound_setType_link {other : TypeVar} (bound : store.isTypeBound var = true) :
    (store.setType var (.link target)).isTypeBound other = store.isTypeBound other := by
  by_cases same : other = var
  · subst same
    obtain ⟨before, linked⟩ := isTypeBound_iff.mp bound
    rw [bound]
    exact isTypeBound_iff.mpr ⟨target, typeLink?_setType_self (index_lt_of_typeLink linked)⟩
  · unfold isTypeBound
    rw [typeLink?_setType_of_ne same]

private theorem isUnitBound_setUnit_link {other : UnitVar}
    (bound : store.isUnitBound unitVar = true) :
    (store.setUnit unitVar (.link unit)).isUnitBound other = store.isUnitBound other := by
  by_cases same : other = unitVar
  · subst same
    obtain ⟨before, linked⟩ := isUnitBound_iff.mp bound
    rw [bound]
    exact isUnitBound_iff.mpr ⟨unit, unitLink?_setUnit_self (index_lt_of_unitLink linked)⟩
  · unfold isUnitBound
    rw [unitLink?_setUnit_of_ne same]

/-- What holds of all links still holds of them after one link was set, if it holds of that. -/
theorem forall_setType_link {motive : TypeVar → InferredType → Prop}
    (within : var.index < store.types.size) (own : motive var target)
    (others : ∀ other found, store.typeLink? other = some found → motive other found)
    (other : TypeVar) (found : InferredType)
    (linked : (store.setType var (.link target)).typeLink? other = some found) :
    motive other found := by
  by_cases same : other = var
  · subst same
    rw [typeLink?_setType_self within] at linked
    cases linked
    exact own
  · rw [typeLink?_setType_of_ne same] at linked
    exact others other found linked

theorem forall_setUnit_link {motive : UnitVar → InferredUnit → Prop}
    (within : unitVar.index < store.units.size) (own : motive unitVar unit)
    (others : ∀ other found, store.unitLink? other = some found → motive other found)
    (other : UnitVar) (found : InferredUnit)
    (linked : (store.setUnit unitVar (.link unit)).unitLink? other = some found) :
    motive other found := by
  by_cases same : other = unitVar
  · subst same
    rw [unitLink?_setUnit_self within] at linked
    cases linked
    exact own
  · rw [unitLink?_setUnit_of_ne same] at linked
    exact others other found linked

private theorem Leads.settled (leads : store.Leads var target) :
    store.Settled (store.setType var (.link target)) := by
  obtain ⟨holder, held⟩ := leads.exists_link
  have ranked (rank : TypeVar → Nat) (ranking : store.TypeRanking rank) :
      (store.setType var (.link target)).TypeRanking rank := by
    apply ranking.transfer (fun other => by rw [isTypeBound_setType_link leads.bound])
    rintro other next ⟨found, linked, has⟩
    exact forall_setType_link
      (motive := fun other found => ∀ next, found.HasVar next → rank next < rank other)
      leads.index_lt (fun _ has => leads.rank_lt ranking has)
      (fun other found linked next has => ranking.below other next ⟨found, linked, has⟩)
      other found linked next has
  have kept (wellformed : store.Wellformed) : (store.setType var (.link target)).Wellformed := by
    refine ⟨?_, wellformed.unitsCovered, ?_, wellformed.unitsRanked⟩
    · have covered := forall_setType_link (motive := fun _ found => store.Covers found)
        leads.index_lt (wellformed.typesCovered holder target held) wellformed.typesCovered
      unfold Covers
      rw [types_size_setType]
      exact covered
    · obtain ⟨rank, ranking⟩ := wellformed.typesRanked
      exact ⟨rank, ranked rank ranking⟩
  exact
    { typeCount := types_size_setType
      unitCount := rfl
      typeBound := fun _ => isTypeBound_setType_link leads.bound
      unitBound := fun _ => rfl
      typeRanked := ranked
      unitRanked := fun _ ranking => ranking
      exact := id
      wellformed := kept
      depth := fun bound shallow => forall_setType_link
        (motive := fun _ found => found.depth ≤ bound)
        leads.index_lt (shallow holder target held) shallow
      satisfies := fun wellformed _ _ _ valuation _ =>
        satisfies_of_forward wellformed (kept wellformed)
          (fun _ => isTypeBound_setType_link leads.bound) (fun _ => rfl)
          (fun _ satisfies => ⟨forall_setType_link leads.index_lt (leads.value satisfies)
            satisfies.types, satisfies.units⟩) valuation
      reads := by
        intro wellformed
        refine reads_of_forward wellformed (kept wellformed) fun readout reads => ?_
        refine ⟨fun other free => reads.freeTypes other ?_, reads.freeUnits,
          forall_setType_link leads.index_lt (leads.read reads) reads.types, reads.units⟩
        rwa [← Option.not_isSome_iff_eq_none, ← isTypeBound, isTypeBound_setType_link leads.bound,
          isTypeBound, Option.not_isSome_iff_eq_none] at free }

private theorem settled_of_unit {shorter : InferredUnit}
    (unitLinked : store.unitLink? unitVar = some unit) (covered : store.CoversUnit shorter)
    (free : ∀ next ∈ shorter.vars.keys, store.unitLink? next = none)
    (sameValue : store.exact = true → ∀ {ν G : Type} [UnitGroup G] (valuation : Valuation ν G),
      valuation.Satisfies store → valuation.unit shorter = valuation.unit unit)
    (sameReadout : ∀ readout : Readout, readout.Reads store →
      readout.unit shorter = readout.unit unit) :
    store.Settled (store.setUnit unitVar (.link shorter)) := by
  have within := index_lt_of_unitLink unitLinked
  have bound : store.isUnitBound unitVar = true := isUnitBound_iff.mpr ⟨unit, unitLinked⟩
  have ranked (rank : UnitVar → Nat) (ranking : store.UnitRanking rank) :
      (store.setUnit unitVar (.link shorter)).UnitRanking rank := by
    apply ranking.transfer (fun other => by rw [isUnitBound_setUnit_link bound])
    rintro other next ⟨found, linked, has⟩
    refine forall_setUnit_link
      (motive := fun other found => ∀ next ∈ found.vars.keys, rank next < rank other)
      within (fun next has => ?_)
      (fun other found linked next has => ranking.below other next ⟨found, linked, has⟩)
      other found linked next has
    have zero := ranking.unbound next (by simp [isUnitBound, free next has])
    have positive := ranking.positive unitVar bound
    omega
  have kept (wellformed : store.Wellformed) :
      (store.setUnit unitVar (.link shorter)).Wellformed := by
    refine ⟨?_, ?_, wellformed.typesRanked, ?_⟩
    · have covered := wellformed.typesCovered
      unfold Covers CoversUnit at covered ⊢
      rw [units_size_setUnit]
      exact covered
    · have covered := forall_setUnit_link (motive := fun _ found => store.CoversUnit found)
        within covered wellformed.unitsCovered
      unfold CoversUnit
      rw [units_size_setUnit]
      exact covered
    · obtain ⟨rank, ranking⟩ := wellformed.unitsRanked
      exact ⟨rank, ranked rank ranking⟩
  exact
    { typeCount := rfl
      unitCount := units_size_setUnit
      typeBound := fun _ => rfl
      unitBound := fun _ => isUnitBound_setUnit_link bound
      typeRanked := fun _ ranking => ranking
      unitRanked := ranked
      exact := id
      wellformed := kept
      depth := fun _ shallow => shallow
      satisfies := by
        intro wellformed ν G _ valuation faithful
        refine satisfies_of_forward wellformed (kept wellformed) (fun _ => rfl)
          (fun _ => isUnitBound_setUnit_link bound) (fun valuation satisfies => ?_) valuation
        refine ⟨satisfies.types, forall_setUnit_link within ?_ satisfies.units⟩
        rw [satisfies.units unitVar unit unitLinked]
        rcases faithful with trivial | exact
        · exact Subsingleton.elim _ _
        · exact (sameValue exact valuation satisfies).symm
      reads := by
        intro wellformed
        refine reads_of_forward wellformed (kept wellformed) fun readout reads => ?_
        refine ⟨reads.freeTypes, fun other free => reads.freeUnits other ?_, reads.types,
          forall_setUnit_link within ?_ reads.units⟩
        · rwa [← Option.not_isSome_iff_eq_none, ← isUnitBound, isUnitBound_setUnit_link bound,
            isUnitBound, Option.not_isSome_iff_eq_none] at free
        · rw [reads.units unitVar unit unitLinked, sameReadout readout reads] }

theorem Shortening.settled (shortening : Shortening before after) : before.Settled after := by
  cases shortening with
  | type leads => exact leads.settled
  | unit linked covered free same reads => exact settled_of_unit linked covered free same reads
  | note within =>
    exact .of_links rfl rfl rfl rfl fun both => (Bool.and_eq_true_iff.mp both).1

theorem Shortening.requirements (shortening : Shortening before after) (var : TypeVar) :
    after.requirements? var = before.requirements? var := by
  cases shortening with
  | type leads => exact requirements?_setType_link leads.bound
  | unit _ _ _ _ _ => rfl
  | note _ => rfl

end SheetTypes.Store
