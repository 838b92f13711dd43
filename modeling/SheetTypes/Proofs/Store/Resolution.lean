import SheetTypes.Proofs.Store.Walks

/-!
Resolving. A unit is reduced to one whose variables are all unbound, and a type to one all of
whose variables are; links are only shortened on the way. The result is what the store is read as;
as long as the store stays exact, it has the same value as before under every valuation that
satisfies the store.
-/

set_option autoImplicit false

namespace SheetTypes

namespace TypeTerm

variable {ν υ μ ω : Type}

/-- A type whose leaves are pairs: what stands there, and what is put in its place. -/
abbrev Pairing (ν υ μ ω : Type) := TypeTerm (ν × TypeTerm μ ω) (υ × ω)

def Pairing.source (pairing : Pairing ν υ μ ω) : TypeTerm ν υ :=
  pairing.substitute (fun pair => .var pair.1) Prod.fst

def Pairing.image (pairing : Pairing ν υ μ ω) : TypeTerm μ ω :=
  pairing.substitute Prod.snd Prod.snd

def Paired (good : (ν × TypeTerm μ ω) ⊕ (υ × ω) → Prop) (type : TypeTerm ν υ)
    (image : TypeTerm μ ω) : Prop :=
  ∃ pairing : Pairing ν υ μ ω, pairing.source = type ∧ pairing.image = image ∧
    ∀ leaf ∈ pairing.leaves, good leaf

/-- What every leaf is paired with stands in its place in the image. -/
theorem eq_substitute_of_paired {types : ν → TypeTerm μ ω} {units : υ → ω}
    {type : TypeTerm ν υ} {image : TypeTerm μ ω}
    (paired : Paired (Sum.elim (fun pair => pair.2 = types pair.1)
      fun pair => pair.2 = units pair.1) type image) : image = type.substitute types units := by
  obtain ⟨pairing, rfl, rfl, same⟩ := paired
  unfold Pairing.image Pairing.source
  rw [substitute_substitute]
  apply substitute_congr
  · exact fun pair has => same (.inl pair) has
  · exact fun pair has => same (.inr pair) has

theorem paired_of_parts {good : (ν × TypeTerm μ ω) ⊕ (υ × ω) → Prop} {type : TypeTerm ν υ}
    {pairings : List (Operand (Pairing ν υ μ ω) (υ × ω))} (compound : type.isVar = false)
    (same : pairings.map (Operand.map Pairing.source Prod.fst) = type.parts)
    (goods : ∀ leaf ∈ operandsLeaves pairings, good leaf) :
    Paired good type (type.rebuild (pairings.map (Operand.map Pairing.image Prod.snd))) := by
  have kinds : pairings.map Operand.isType = type.parts.map Operand.isType := by
    rw [← same, List.map_map, Operand.isType_map]
  obtain ⟨isCompound, own, again⟩ := parts_rebuild compound kinds
  refine ⟨type.rebuild pairings, ?_, ?_, ?_⟩
  · rw [Pairing.source, substitute_eq _ _ isCompound, own, again]
    exact (congrArg type.rebuild same).trans (rebuild_parts compound)
  · rw [Pairing.image, substitute_eq _ _ isCompound, own, again]
    rfl
  · rwa [leaves_eq isCompound, own]

end TypeTerm

namespace Store

variable {ν υ μ ω : Type} {step : Store → Store → Prop} {store : Store}
  {onVar otherOnVar : ν → StateM Store (TypeTerm μ ω)} {onUnit : υ → StateM Store ω}
  {good : (ν × TypeTerm μ ω) ⊕ (υ × ω) → Store → Prop} {after before start : Store} {links : Nat}
  {meaning : UnitVar → StateM Store InferredUnit} {powers : List (UnitVar × Int)}
  {result unit : InferredUnit} {type : InferredType} {var : UnitVar}

open TypeTerm

private theorem substituteOperandsM_agree {operands : List (Operand (TypeTerm ν υ) υ)}
    (stays : ∀ leaf middle after, Relation.ReflTransGen step store middle →
      Relation.ReflTransGen step middle after → good leaf middle → good leaf after)
    (types : ∀ value, .type value ∈ operands → ∀ later, Relation.ReflTransGen step store later →
      Agree step later (value.substituteM onVar onUnit) (value.substituteM otherOnVar onUnit)
        fun image after => Paired (good · after) value image)
    (units : ∀ unit, .unit unit ∈ operands → ∀ later, Relation.ReflTransGen step store later →
      Yields step later (onUnit unit) fun image after => good (.inr (unit, image)) after) :
    Agree step store (substituteOperandsM onVar onUnit operands)
      (substituteOperandsM otherOnVar onUnit operands)
      fun images after => ∃ pairings : List (Operand (Pairing ν υ μ ω) (υ × ω)),
        pairings.map (Operand.map Pairing.source Prod.fst) = operands ∧
          pairings.map (Operand.map Pairing.image Prod.snd) = images ∧
          ∀ leaf ∈ operandsLeaves pairings, good leaf after := by
  induction operands generalizing store with
  | nil => exact .pure ⟨[], rfl, rfl, by simp⟩
  | cons operand operands ih =>
    have rest {middle : Store} (steps : Relation.ReflTransGen step store middle) :=
      ih (fun leaf between last (reached : Relation.ReflTransGen step middle between) =>
          stays leaf between last (steps.trans reached))
        (fun value member later further =>
          types value (List.mem_cons_of_mem _ member) later (steps.trans further))
        fun unit member later further =>
          units unit (List.mem_cons_of_mem _ member) later (steps.trans further)
    cases operand with
    | type value =>
      refine (types value (List.mem_cons_self ..) store .refl).bind
        fun image middle steps first => ?_
      refine (rest steps).bind fun images after further others => .pure ?_
      obtain ⟨pairing, rfl, rfl, here⟩ := first
      obtain ⟨pairings, rfl, rfl, there⟩ := others
      refine ⟨.type pairing :: pairings, rfl, rfl, fun leaf inside => ?_⟩
      rw [operandsLeaves, List.mem_append] at inside
      rcases inside with own | later
      · exact stays leaf middle after steps further (here leaf own)
      · exact there leaf later
    | unit unit =>
      refine (units unit (List.mem_cons_self ..) store .refl).bind
        fun image middle steps first => ?_
      refine (rest steps).bind fun images after further others => .pure ?_
      obtain ⟨pairings, rfl, rfl, there⟩ := others
      refine ⟨.unit (unit, image) :: pairings, rfl, rfl, fun leaf inside => ?_⟩
      rw [operandsLeaves, List.mem_cons] at inside
      rcases inside with own | later
      · rw [own]
        exact stays _ middle after steps further first
      · exact there leaf later

/-- Substituting with effects pairs every leaf with an image that has been good since then. -/
theorem substituteM_agree {type : TypeTerm ν υ}
    (good : (ν × TypeTerm μ ω) ⊕ (υ × ω) → Store → Prop)
    (stays : ∀ leaf middle after, Relation.ReflTransGen step store middle →
      Relation.ReflTransGen step middle after → good leaf middle → good leaf after)
    (vars : ∀ var, type.HasVar var → ∀ later, Relation.ReflTransGen step store later →
      Agree step later (onVar var) (otherOnVar var)
        fun image after => good (.inl (var, image)) after)
    (units : ∀ unit, type.HasUnit unit → ∀ later, Relation.ReflTransGen step store later →
      Yields step later (onUnit unit) fun image after => good (.inr (unit, image)) after) :
    Agree step store (type.substituteM onVar onUnit) (type.substituteM otherOnVar onUnit)
      fun image after => Paired (good · after) type image := by
  induction type using induction_children generalizing store with
  | step type ih =>
    rcases type.var_or_compound with ⟨name, rfl⟩ | compound
    · refine (vars name (List.mem_singleton_self _) store .refl).mono fun image after _ holds => ?_
      exact ⟨.var (name, image), rfl, rfl, by simpa [leaves] using holds⟩
    · rw [substituteM_eq compound, substituteM_eq compound]
      have parts := substituteOperandsM_agree stays
        (fun value member later steps => ih value (mem_children.mpr member)
          (fun leaf middle after reached => stays leaf middle after (steps.trans reached))
          (fun var has further more => vars var
            (mem_leaves_of_child (mem_children.mpr member) has) further (steps.trans more))
          fun unit has further more => units unit
            (mem_leaves_of_child (mem_children.mpr member) has) further (steps.trans more))
        fun unit member => units unit ((hasUnit_iff compound).mpr (.inr member))
      refine parts.bind fun images after _ holds => .pure ?_
      obtain ⟨pairings, same, rfl, there⟩ := holds
      exact paired_of_parts compound same there

/-! ### Units -/

structure Reduced (store : Store) (unit result : InferredUnit) : Prop where
  covered : store.CoversUnit result
  free : ∀ var ∈ result.vars.keys, store.unitLink? var = none
  value : store.exact = true → ∀ {ν G : Type} [UnitGroup G] (valuation : Valuation ν G),
    valuation.Satisfies store → valuation.unit result = valuation.unit unit
  read : ∀ readout : Readout, readout.Reads store → readout.unit unit = result

theorem Reduced.later (reduced : before.Reduced unit result) (wellformed : before.Wellformed)
    (settled : before.Settled after) : after.Reduced unit result where
  covered := settled.coversUnit.mpr reduced.covered
  free var member := settled.unitLink?_none.mpr (reduced.free var member)
  value exact _ _ _ valuation satisfies :=
    reduced.value (settled.exact exact) valuation
      ((settled.satisfies wellformed valuation (.inr exact)).mp satisfies)
  read readout reads := reduced.read readout ((settled.reads wellformed readout).mp reads)

theorem multiplyPower_yields (product unit : InferredUnit) (number : Int) :
    Yields Shortening store (multiplyPower product unit number) fun result after =>
      result = product.multiply (unit.raise number) ∧
        (after.exact = true → ∀ {ν G : Type} [UnitGroup G] (valuation : Valuation ν G),
          valuation.unit result = valuation.unit product + number • valuation.unit unit) := by
  refine ⟨rfl, .single (.note store _), rfl, ?_⟩
  intro exact ν G _ valuation
  exact UnitTerm.value_multiply_raise valuation.units (Bool.and_eq_true_iff.mp exact).2

private theorem multiplyPowers_agree {otherMeaning : UnitVar → StateM Store InferredUnit}
    {product : InferredUnit} (wellformed : store.Wellformed) (covered : store.CoversUnit product)
    (free : ∀ var ∈ product.vars.keys, store.unitLink? var = none)
    (each : ∀ power ∈ powers, ∀ later, store.Shortens later →
      Agree Shortening later (meaning power.1) (otherMeaning power.1)
        fun value after => after.Reduced (.ofVar power.1) value) :
    Agree Shortening store (multiplyPowers meaning product powers)
      (multiplyPowers otherMeaning product powers)
      fun result after => after.CoversUnit result ∧
        (∀ var ∈ result.vars.keys, after.unitLink? var = none) ∧
        (after.exact = true → ∀ {ν G : Type} [UnitGroup G] (valuation : Valuation ν G),
          valuation.Satisfies after → valuation.unit result = valuation.unit product +
            (powers.map fun power => power.2 • valuation.units power.1).sum) ∧
        ∀ readout : Readout, readout.Reads after →
          multiplyValues readout.units product powers = result := by
  induction powers generalizing store product with
  | nil =>
    refine .pure ⟨covered, free, ?_, fun _ _ => rfl⟩
    intro _ ν G _ valuation _
    simp
  | cons power powers ih =>
    obtain ⟨var, number⟩ := power
    refine (each _ (List.mem_cons_self ..) store .refl).bind fun value middle steps reduced => ?_
    have settled := Shortens.settled steps
    refine (multiplyPower_yields product value number).bind fun grown next further made => ?_
    obtain ⟨rfl, exactly⟩ := made
    have settledNext := Shortens.settled further
    have reducedNext := reduced.later (settled.wellformed wellformed) settledNext
    have both := settled.trans settledNext
    refine (ih (both.wellformed wellformed) ?_ ?_ fun other member later more => each other
      (List.mem_cons_of_mem _ member) later ((steps.trans further).trans more)).mono ?_
    · intro other member
      rcases UnitTerm.mem_keys_multiply_raise member with old | new
      · exact both.coversUnit.mpr covered other old
      · exact reducedNext.covered other new
    · intro other member
      rcases UnitTerm.mem_keys_multiply_raise member with old | new
      · exact both.unitLink?_none.mpr (free other old)
      · exact reducedNext.free other new
    intro result after more ends
    obtain ⟨coveredResult, freeResult, valueResult, readResult⟩ := ends
    have settledLast := Shortens.settled more
    refine ⟨coveredResult, freeResult, ?_, ?_⟩
    · intro exact ν G _ valuation satisfies
      have exactNext := settledLast.exact exact
      have satisfiesNext := (settledLast.satisfies (both.wellformed wellformed) valuation
        (.inr exact)).mp satisfies
      rw [valueResult exact valuation satisfies, exactly exactNext valuation,
        reducedNext.value exactNext valuation satisfiesNext]
      simp [Valuation.unit, add_assoc]
    · intro readout reads
      have readsNext := (settledLast.reads (both.wellformed wellformed) readout).mp reads
      rw [← readResult readout reads, ← reducedNext.read readout readsNext, Readout.unit_ofVar]
      rfl

/-- If variables have the same values throughout, only these matter. -/
theorem multiplyPowers_values {value : UnitVar → InferredUnit} {holds : Store → Prop}
    (notes : ∀ store within, holds store → holds ⟨store.types, store.units, store.exact && within⟩)
    (each : ∀ power ∈ powers, ∀ store, holds store →
      ∃ after, meaning power.1 store = (value power.1, after) ∧ holds after)
    (product : InferredUnit) (start : holds store) :
    ∃ after, multiplyPowers meaning product powers store =
      (multiplyValues value product powers, after) ∧ holds after := by
  induction powers generalizing store product with
  | nil => exact ⟨store, rfl, start⟩
  | cons power powers ih =>
    obtain ⟨here, others⟩ := List.forall_mem_cons.mp each
    obtain ⟨middle, found, kept⟩ := here store start
    obtain ⟨after, done, last⟩ := ih others
      (product.multiply ((value power.1).raise power.2)) (notes middle _ kept)
    refine ⟨after, ?_, last⟩
    change multiplyPowers meaning _ powers _ = _
    rw [found]
    exact done

def reduceVar (reduce : InferredUnit → StateM Store InferredUnit) (var : UnitVar) :
    StateM Store InferredUnit := do
  let store ← get
  match store.unitLink? var with
  | none => return .ofVar var
  | some target =>
    let value ← reduce target
    modify fun store => store.setUnit var (.link value)
    return value

section Opening

variable (reduce : InferredUnit → StateM Store InferredUnit) {var : UnitVar}

theorem reduceVar_free (free : store.unitLink? var = none) :
    reduceVar reduce var store = (.ofVar var, store) := by
  rw [reduceVar, state_get_bind_apply, free]
  rfl

theorem reduceVar_linked {target : InferredUnit} (linked : store.unitLink? var = some target) :
    reduceVar reduce var store = ((reduce target store).1,
      (reduce target store).2.setUnit var (.link (reduce target store).1)) := by
  rw [reduceVar, state_get_bind_apply, linked]
  rfl

end Opening

def reduceUnit (stop : InferredUnit → StateM Store InferredUnit) :
    Nat → InferredUnit → StateM Store InferredUnit
  | 0, unit => stop unit
  | links + 1, unit => do
      let store ← get
      if unit.vars.keys.all fun var => !store.isUnitBound var then return unit
      multiplyPowers (reduceVar (reduceUnit stop links)) (.ofGround unit.names) unit.vars.toList

theorem pruneUnitWithin_eq (links : Nat) :
    pruneUnitWithin links = reduceUnit pure links := by
  induction links with
  | zero => rfl
  | succ links ih =>
    funext unit
    rw [pruneUnitWithin, ih]
    rfl

private theorem shorten_unit {target value : InferredUnit} (wellformed : before.Wellformed)
    (linked : before.unitLink? var = some target) (shortens : before.Shortens store)
    (reduced : store.Reduced target value) :
    Shortening store (store.setUnit var (.link value)) := by
  have settled := Shortens.settled shortens
  obtain ⟨current, found⟩ : ∃ current, store.unitLink? var = some current := by
    rw [← isUnitBound_iff, settled.unitBound, isUnitBound_iff]
    exact ⟨target, linked⟩
  refine .unit found reduced.covered reduced.free ?_ ?_
  · intro exact ν G _ valuation satisfies
    have satisfiesBefore := (settled.satisfies wellformed valuation (.inr exact)).mp satisfies
    calc valuation.unit value
        = valuation.unit target := reduced.value exact valuation satisfies
      _ = valuation.units var := (satisfiesBefore.units var target linked).symm
      _ = valuation.unit current := satisfies.units var current found
  · intro readout reads
    have readsBefore := (settled.reads wellformed readout).mp reads
    calc readout.unit value
        = value := reads.unit_free reduced.free
      _ = readout.unit target := (reduced.read readout reads).symm
      _ = readout.units var := (readsBefore.units var target linked).symm
      _ = readout.unit current := reads.units var current found

private theorem reduced_self (covered : store.CoversUnit unit)
    (free : ∀ var ∈ unit.vars.keys, store.unitLink? var = none) : store.Reduced unit unit :=
  ⟨covered, free, fun _ _ _ _ _ _ => rfl, fun _ reads => reads.unit_free free⟩

theorem mem_keys_ofVar {other : UnitVar} (member : other ∈ (UnitTerm.ofVar var).vars.keys) :
    other = var := by
  by_cases same : other = var
  · exact same
  · exact absurd (PowerProduct.exponent_ofKey_of_ne same) (PowerProduct.mem_keys.mp member)

private theorem reduceVar_agree {reduce otherReduce : InferredUnit → StateM Store InferredUnit}
    (wellformed : store.Wellformed) (within : var.index < store.units.size)
    (targets : ∀ target, store.unitLink? var = some target →
      Agree Shortening store (reduce target) (otherReduce target)
        fun value after => after.Reduced target value) :
    Agree Shortening store (reduceVar reduce var) (reduceVar otherReduce var)
      fun value after => after.Reduced (.ofVar var) value := by
  refine .get ?_
  cases linked : store.unitLink? var with
  | none =>
    refine .pure (reduced_self ?_ ?_)
    · intro other member
      rw [mem_keys_ofVar member]
      exact within
    · intro other member
      rw [mem_keys_ofVar member]
      exact linked
  | some target =>
    refine (targets target linked).bind fun value middle steps reduced => ?_
    have settled := Shortens.settled steps
    have shortening := shorten_unit wellformed linked steps reduced
    refine (Agree.modify shortening).bind fun _ after _ same => .pure ?_
    subst same
    have both := settled.trans shortening.settled
    obtain ⟨covered, free, worth, read⟩ := reduced.later (settled.wellformed wellformed)
      shortening.settled
    refine ⟨covered, free, ?_, ?_⟩
    · intro exact ν G _ valuation satisfies
      have satisfiesBefore := (both.satisfies wellformed valuation (.inr exact)).mp satisfies
      rw [worth exact valuation satisfies, Valuation.unit_ofVar,
        satisfiesBefore.units var target linked]
    · intro readout reads
      have readsBefore := (both.reads wellformed readout).mp reads
      rw [← read readout reads, Readout.unit_ofVar, readsBefore.units var target linked]

private theorem reduceUnit_agree {rank : UnitVar → Nat} (wellformed : start.Wellformed)
    (ranking : start.UnitRanking rank) (stop otherStop : InferredUnit → StateM Store InferredUnit)
    (links more : Nat) (unit : InferredUnit) (store : Store) (shortens : start.Shortens store)
    (covered : start.CoversUnit unit)
    (enough : 0 < links ∧ ∀ var ∈ unit.vars.keys, rank var < links)
    (moreEnough : 0 < more ∧ ∀ var ∈ unit.vars.keys, rank var < more) :
    Agree Shortening store (reduceUnit stop links unit) (reduceUnit otherStop more unit)
      fun result after => after.Reduced unit result := by
  induction links generalizing more unit store with
  | zero => cases enough.1
  | succ links ih =>
    cases more with
    | zero => cases moreEnough.1
    | succ more =>
      have settled := Shortens.settled shortens
      refine .get ?_
      split
      next unbound =>
        refine .pure (reduced_self (settled.coversUnit.mpr covered) fun var member => ?_)
        have free := List.all_eq_true.mp unbound var member
        simpa [isUnitBound] using free
      next =>
        refine (multiplyPowers_agree (settled.wellformed wellformed)
          (fun _ member => by cases member) (fun _ member => by cases member) ?_).mono ?_
        · intro power member later further
          have present := PowerProduct.mem_keys_of_toList member
          have along := shortens.trans further
          have settledLater := Shortens.settled along
          have wellformedLater := settledLater.wellformed wellformed
          refine reduceVar_agree wellformedLater
            (settledLater.coversUnit.mpr covered _ present) fun target linked => ?_
          have ranked := settledLater.unitRanked rank ranking
          have positive := ranked.positive power.1 (isUnitBound_iff.mpr ⟨target, linked⟩)
          have own := enough.2 power.1 present
          have other := moreEnough.2 power.1 present
          refine ih more target later along
            (settledLater.coversUnit.mp (wellformedLater.unitsCovered _ target linked))
            ⟨by omega, fun next inside => ?_⟩ ⟨by omega, fun next inside => ?_⟩
          · have less := ranked.below power.1 next ⟨target, linked, inside⟩
            omega
          · have less := ranked.below power.1 next ⟨target, linked, inside⟩
            omega
        · intro result after _ ends
          obtain ⟨coveredResult, freeResult, worth, read⟩ := ends
          refine ⟨coveredResult, freeResult, ?_, read⟩
          intro exact ν G _ valuation satisfies
          rw [worth exact valuation satisfies, ← PowerProduct.value_eq_sum]
          unfold Valuation.unit
          rw [UnitTerm.value_ofGround]
          rfl

/-- Pruning a unit reduces it. No number of further links would change what is done. -/
theorem pruneUnit_agree (wellformed : store.Wellformed) (covered : store.CoversUnit unit)
    (stop : InferredUnit → StateM Store InferredUnit) (enough : store.units.size < links) :
    Agree Shortening store (pruneUnit unit) (reduceUnit stop links unit)
      fun result after => after.Reduced unit result := by
  obtain ⟨rank, ranking, small⟩ := wellformed.exists_unitRanking
  have agree := reduceUnit_agree wellformed ranking pure stop (store.units.size + 1) links unit
    store .refl covered
    ⟨Nat.succ_pos _, fun var _ => Nat.lt_succ_of_le (small var)⟩
    ⟨Nat.zero_lt_of_lt enough, fun var _ => Nat.lt_of_le_of_lt (small var) enough⟩
  rw [← pruneUnitWithin_eq] at agree
  exact ⟨agree.same, agree.steps, agree.ends⟩

/-! ### Types -/

/-- What a type has been resolved to: a type of unbound variables with the same value. -/
structure Resolved (store : Store) (type result : InferredType) : Prop where
  covered : store.Covers result
  free : ∀ var, result.HasVar var → store.typeLink? var = none
  unitsFree : ∀ unit, result.HasUnit unit → ∀ var ∈ unit.vars.keys, store.unitLink? var = none
  value : ∀ {ν G : Type} [UnitGroup G] (valuation : Valuation ν G), store.Faithful G →
    valuation.Satisfies store → valuation.type result = valuation.type type
  read : ∀ readout : Readout, readout.Reads store → readout.type type = result

theorem Resolved.later {result : InferredType} (resolved : before.Resolved type result)
    (wellformed : before.Wellformed) (settled : before.Settled after) :
    after.Resolved type result where
  covered := settled.covers.mpr resolved.covered
  free var has := settled.typeLink?_none.mpr (resolved.free var has)
  unitsFree unit has var member :=
    settled.unitLink?_none.mpr (resolved.unitsFree unit has var member)
  value valuation faithful satisfies :=
    resolved.value valuation (faithful.mono settled.exact)
      ((settled.satisfies wellformed valuation faithful).mp satisfies)
  read readout reads := resolved.read readout ((settled.reads wellformed readout).mp reads)

def ResolvedLeaf (store : Store) :
    (TypeVar × InferredType) ⊕ (InferredUnit × InferredUnit) → Prop
  | .inl pair => store.Resolved (.var pair.1) pair.2
  | .inr pair => store.Reduced pair.1 pair.2

theorem Reduced.faithful (reduced : store.Reduced unit result) {G : Type} [UnitGroup G]
    {valuation : Valuation ν G} (faithful : store.Faithful G)
    (satisfies : valuation.Satisfies store) : valuation.unit result = valuation.unit unit := by
  rcases faithful with trivial | exact
  · exact Subsingleton.elim _ _
  · exact reduced.value exact valuation satisfies

private theorem resolved_of_paired {image : InferredType}
    (paired : Paired store.ResolvedLeaf type image) : store.Resolved type image := by
  obtain ⟨pairing, rfl, rfl, good⟩ := paired
  have vars (pair : TypeVar × InferredType) (has : pairing.HasVar pair) :
      store.Resolved (.var pair.1) pair.2 := good (.inl pair) has
  have units (pair : InferredUnit × InferredUnit) (has : pairing.HasUnit pair) :
      store.Reduced pair.1 pair.2 := good (.inr pair) has
  refine ⟨?_, ?_, ?_, ?_, ?_⟩
  · constructor
    · intro var has
      obtain ⟨pair, inside, own⟩ := hasVar_substitute.mp has
      exact (vars pair inside).covered.1 var own
    · intro unit has
      rcases hasUnit_substitute.mp has with ⟨pair, inside, own⟩ | ⟨pair, inside, same⟩
      · exact (vars pair inside).covered.2 unit own
      · rw [← same]
        exact (units pair inside).covered
  · intro var has
    obtain ⟨pair, inside, own⟩ := hasVar_substitute.mp has
    exact (vars pair inside).free var own
  · intro unit has
    rcases hasUnit_substitute.mp has with ⟨pair, inside, own⟩ | ⟨pair, inside, same⟩
    · exact (vars pair inside).unitsFree unit own
    · rw [← same]
      exact (units pair inside).free
  · intro ν G _ valuation faithful satisfies
    unfold Valuation.type Pairing.image Pairing.source
    rw [substitute_substitute, substitute_substitute]
    refine substitute_congr _ (fun pair has => ?_) fun pair has => ?_
    · exact (vars pair has).value valuation faithful satisfies
    · exact (units pair has).faithful faithful satisfies
  · intro readout reads
    unfold Readout.type Pairing.image Pairing.source
    rw [substitute_substitute]
    refine substitute_congr _ (fun pair has => ?_) fun pair has => ?_
    · exact (vars pair has).read readout reads
    · exact (units pair has).read readout reads

def resolution (stop : TypeVar → StateM Store InferredType) :
    Nat → TypeVar → StateM Store InferredType :=
  walk (fun last => return .var last) (fun resolve type => type.substituteM resolve pruneUnit) stop

private theorem resolveVar_eq (links : Nat) :
    resolveVar links = resolution (fun var => pure (.var var)) links := by
  induction links with
  | zero => rfl
  | succ links ih =>
    funext var
    rw [resolveVar, ih]
    rfl

private theorem substituteM_resolved (wellformed : store.Wellformed) (covered : store.Covers type)
    {onVar otherOnVar : TypeVar → StateM Store InferredType}
    (each : ∀ var, type.HasVar var → ∀ later, store.Shortens later →
      Agree Shortening later (onVar var) (otherOnVar var)
        fun image after => after.Resolved (.var var) image) :
    Agree Shortening store (type.substituteM onVar pruneUnit)
      (type.substituteM otherOnVar pruneUnit) fun image after => after.Resolved type image := by
  have wellformedLater {later : Store} (steps : store.Shortens later) : later.Wellformed :=
    (Shortens.settled steps).wellformed wellformed
  refine (substituteM_agree (fun leaf now => now.ResolvedLeaf leaf) ?_ each ?_).mono ?_
  · intro leaf middle after reached steps holds
    have settled := Shortens.settled steps
    cases leaf with
    | inl pair => exact Resolved.later holds (wellformedLater reached) settled
    | inr pair => exact Reduced.later holds (wellformedLater reached) settled
  · intro unit has later steps
    have coveredLater := (Shortens.settled steps).coversUnit.mpr (covered.2 unit has)
    exact (pruneUnit_agree (wellformedLater steps) coveredLater pure (Nat.lt_succ_self _)).left
  · intro image after _ paired
    exact resolved_of_paired paired

private theorem resolution_agree {rank : TypeVar → Nat} (wellformed : start.Wellformed)
    (ranking : start.TypeRanking rank) (stop otherStop : TypeVar → StateM Store InferredType)
    {more : Nat} {var : TypeVar} (within : var.index < start.types.size)
    (enough : rank var < links) (moreEnough : rank var < more) (shortens : start.Shortens store) :
    Agree Shortening store (resolution stop links var) (resolution otherStop more var)
      fun image after => after.Resolved (.var var) image := by
  refine walk_agree _ _ (fun _ => True) (fun var image after => after.Resolved (.var var) image)
    wellformed ranking (fun _ _ shortening => shortening) (fun _ _ => Shortens.settled)
    (fun _ _ _ _ _ _ _ _ => trivial) ?_ ?_ stop otherStop links more var within trivial store
    shortens enough moreEnough
  · intro now steps var last _ reaches inside free
    refine .pure ⟨covers_var.mpr inside, ?_, ?_, ?_, ?_⟩
    · intro other has
      simp only [HasVar, leaves, List.mem_singleton, Sum.inl.injEq] at has
      rw [has]
      exact free
    · intro unit has
      simp [HasUnit, leaves] at has
    · intro ν G _ valuation _ satisfies
      exact reaches.value satisfies
    · intro readout reads
      rw [← reaches.read reads]
      exact reads.freeTypes last free
  · intro now steps var type leads _ first second each
    have wellformedNow := (Shortens.settled steps).wellformed wellformed
    obtain ⟨holder, linked⟩ := leads.exists_link
    have covered := wellformedNow.typesCovered holder type linked
    apply (substituteM_resolved wellformedNow covered each).mono
    intro image after further holds
    have settled := Shortens.settled further
    refine ⟨holds.covered, holds.free, holds.unitsFree, ?_, ?_⟩
    · intro ν G _ valuation faithful satisfies
      have satisfiesNow := (settled.satisfies wellformedNow valuation faithful).mp satisfies
      rw [holds.value valuation faithful satisfies, ← leads.value satisfiesNow]
      rfl
    · intro readout reads
      have readsNow := (settled.reads wellformedNow readout).mp reads
      rw [← holds.read readout reads]
      exact leads.read readsNow

/-- Resolving a type replaces all its linked variables. No number of further links would change
what is done. -/
theorem resolve_agree (wellformed : store.Wellformed) (covered : store.Covers type)
    (stop : TypeVar → StateM Store InferredType) (enough : store.types.size < links) :
    Agree Shortening store (resolve type) (type.substituteM (resolution stop links) pruneUnit)
      fun image after => after.Resolved type image := by
  obtain ⟨rank, ranking, small⟩ := wellformed.exists_typeRanking
  have agree := substituteM_resolved wellformed covered fun var has _ shortens =>
    resolution_agree wellformed ranking (fun var => pure (.var var)) stop (covered.1 var has)
      (Nat.lt_succ_of_le (small var)) (Nat.lt_of_le_of_lt (small var) enough) shortens
  rw [← resolveVar_eq] at agree
  exact ⟨agree.same, agree.steps, agree.ends⟩

theorem resolve_resolved (wellformed : store.Wellformed) (covered : store.Covers type) :
    Yields Shortening store (resolve type) fun result after => after.Resolved type result :=
  (resolve_agree wellformed covered (fun var => pure (.var var)) (Nat.lt_succ_self _)).left

section Foreign

variable {readout : Readout}

private theorem multiplyPowers_reads
    (each : ∀ power ∈ powers, ∀ later, store.Shortens later →
      Yields Shortening later (meaning power.1) fun value _ => value = readout.units power.1)
    (product : InferredUnit) :
    Yields Shortening store (multiplyPowers meaning product powers)
      fun result _ => result = multiplyValues readout.units product powers := by
  induction powers generalizing store product with
  | nil => exact .pure rfl
  | cons power powers ih =>
    obtain ⟨here, others⟩ := List.forall_mem_cons.mp each
    refine (here store .refl).bind fun value middle steps same => ?_
    refine (multiplyPower_yields product value power.2).bind fun grown next further made => ?_
    rw [made.1, same]
    exact ih (fun other member later more =>
      others other member later ((steps.trans further).trans more)) _

/-- Variables of other stores stand for themselves, so units that hold some are reduced too. -/
theorem pruneUnit_reads (wellformed : store.Wellformed) (reads : readout.Reads store)
    (unit : InferredUnit) :
    Yields Shortening store (pruneUnit unit) fun result _ => result = readout.unit unit := by
  obtain ⟨rank, ranking, small⟩ := wellformed.exists_unitRanking
  have each (var : UnitVar) (later : Store) (steps : store.Shortens later) :
      Yields Shortening later (reduceVar (reduceUnit pure store.units.size) var)
        fun value _ => value = readout.units var := by
    have settled := Shortens.settled steps
    have wellformedLater := settled.wellformed wellformed
    have readsLater := (settled.reads wellformed readout).mpr reads
    cases linked : later.unitLink? var with
    | none => exact .of_apply (reduceVar_free _ linked) .refl (readsLater.freeUnits var linked).symm
    | some target =>
      have ranked := settled.unitRanked rank ranking
      have own := ranked.positive var (isUnitBound_iff.mpr ⟨target, linked⟩)
      have enough : 0 < store.units.size ∧
          ∀ next ∈ target.vars.keys, rank next < store.units.size := by
        have most := small var
        refine ⟨by omega, fun next inside => ?_⟩
        have less := ranked.below var next ⟨target, linked, inside⟩
        omega
      have reduces := reduceVar_agree wellformedLater (index_lt_of_unitLink linked)
        fun other found => by
          cases linked.symm.trans found
          exact reduceUnit_agree wellformed ranking pure pure _ _ target later steps
            (settled.coversUnit.mp (wellformedLater.unitsCovered var target linked)) enough enough
      refine reduces.mono fun value after further reduced => ?_
      have readsAfter := ((Shortens.settled further).reads wellformedLater readout).mpr readsLater
      rw [← reduced.read readout readsAfter, Readout.unit_ofVar]
  have prunes : Yields Shortening store (reduceUnit pure (store.units.size + 1) unit)
      fun result _ => result = readout.unit unit := by
    refine .get ?_
    split
    next unbound =>
      refine .pure (reads.unit_free fun var member => ?_).symm
      have free := List.all_eq_true.mp unbound var member
      simpa [isUnitBound] using free
    next => exact multiplyPowers_reads (fun power _ => each power.1) (.ofGround unit.names)
  rw [← pruneUnitWithin_eq] at prunes
  exact ⟨rfl, prunes.steps, prunes.ends⟩

private def ReadLeaf (readout : Readout) :
    (TypeVar × InferredType) ⊕ (InferredUnit × InferredUnit) → Prop :=
  Sum.elim (fun pair => pair.2 = readout.types pair.1) fun pair => pair.2 = readout.unit pair.1

/-- Every type resolves to what it is read as, also one with variables of other stores. -/
theorem resolve_reads (wellformed : store.Wellformed) (reads : readout.Reads store)
    (type : InferredType) :
    Yields Shortening store (resolve type) fun result _ => result = readout.type type := by
  obtain ⟨rank, ranking, small⟩ := wellformed.exists_typeRanking
  have readsLater {later : Store} (steps : store.Shortens later) : readout.Reads later :=
    ((Shortens.settled steps).reads wellformed readout).mpr reads
  have vars (var : TypeVar) (later : Store) (steps : store.Shortens later) :
      Yields Shortening later (resolveVar (store.types.size + 1) var)
        fun image _ => image = readout.types var := by
    by_cases within : var.index < store.types.size
    · have resolves := (resolution_agree wellformed ranking (fun var => pure (.var var))
        (fun var => pure (.var var)) within (Nat.lt_succ_of_le (small var))
        (Nat.lt_succ_of_le (small var)) steps).left
      rw [← resolveVar_eq] at resolves
      refine resolves.mono fun image after further resolved => ?_
      exact (resolved.read readout (readsLater (steps.trans further))).symm
    · have free : later.typeLink? var = none := by
        cases linked : later.typeLink? var with
        | none => rfl
        | some target =>
          have inside := index_lt_of_typeLink linked
          rw [(Shortens.settled steps).typeCount] at inside
          exact absurd inside within
      have stays : resolveVar (store.types.size + 1) var later = (.var var, later) := by
        rw [resolveVar, state_bind_apply, prune_apply (follow_unbound free _)]
        rfl
      exact .of_apply stays .refl ((readsLater steps).freeTypes var free).symm
  have leaves : Yields Shortening store
      (type.substituteM (resolveVar (store.types.size + 1)) pruneUnit)
      fun image _ => Paired (ReadLeaf readout) type image :=
    substituteM_agree (fun leaf _ => ReadLeaf readout leaf) (fun _ _ _ _ _ same => same)
      (fun var _ => vars var) fun unit _ later steps =>
        pruneUnit_reads ((Shortens.settled steps).wellformed wellformed) (readsLater steps) unit
  have resolves := leaves.mono fun image _ _ paired => eq_substitute_of_paired paired
  exact ⟨rfl, resolves.steps, resolves.ends⟩

theorem resolve_read (wellformed : store.Wellformed) (reads : readout.Reads store) :
    (resolve type store).1 = readout.type type :=
  (resolve_reads wellformed reads type).ends

end Foreign

theorem Settled.resolve (settled : before.Settled after) (wellformed : before.Wellformed)
    (type : InferredType) : (Store.resolve type after).1 = (Store.resolve type before).1 := by
  obtain ⟨readout, reads⟩ := wellformed.exists_readout
  have readsAfter := (settled.reads wellformed readout).mpr reads
  rw [resolve_read wellformed reads, resolve_read (settled.wellformed wellformed) readsAfter]

theorem Settled.pruneUnit (settled : before.Settled after) (wellformed : before.Wellformed)
    (unit : InferredUnit) : (Store.pruneUnit unit after).1 = (Store.pruneUnit unit before).1 := by
  obtain ⟨readout, reads⟩ := wellformed.exists_readout
  have readsAfter := (settled.reads wellformed readout).mpr reads
  rw [(pruneUnit_reads wellformed reads unit).ends]
  exact (pruneUnit_reads (settled.wellformed wellformed) readsAfter unit).ends

end Store

end SheetTypes
