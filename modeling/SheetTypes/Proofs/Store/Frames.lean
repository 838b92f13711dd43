import SheetTypes.Proofs.Store.Solutions

/-!
Changes that keep to a region of variables. What lies outside stays: requirements on type variables
outside, unbound unit variables outside, and how often the variables outside occur in what is read.
The exponents of a variable depend on the exponents of that variable alone, also where others stop
at the limit, so a link of one variable leaves the exponents of all the others as they are.
-/

set_option autoImplicit false

namespace SheetTypes

def InferredType.HasUnitVar (type : InferredType) (var : UnitVar) : Prop :=
  ∃ unit, type.HasUnit unit ∧ var ∈ unit.vars.keys

structure Region where
  types : TypeVar → Prop
  units : UnitVar → Prop

namespace Region

def HoldsUnit (region : Region) (unit : InferredUnit) : Prop :=
  ∀ var ∈ unit.vars.keys, region.units var

def Holds (region : Region) (type : InferredType) : Prop :=
  (∀ var, type.HasVar var → region.types var) ∧ ∀ var, type.HasUnitVar var → region.units var

end Region

namespace TypeTerm

variable {ν υ ω : Type} {type : TypeTerm ν υ} {view : υ → ω} {var : ν}

theorem hasVar_view : (type.substitute .var view).HasVar var ↔ type.HasVar var := by
  rw [hasVar_substitute]
  simp [HasVar, leaves]

theorem hasVar_outline : type.outline.HasVar var ↔ type.HasVar var := hasVar_view

theorem hasUnit_view {shown : ω} :
    (type.substitute .var view).HasUnit shown ↔ ∃ unit, type.HasUnit unit ∧ view unit = shown := by
  rw [hasUnit_substitute]
  simp [HasUnit, leaves]

end TypeTerm

/-- A unit variable occurs in a type exactly if it has an exponent other than zero there. -/
theorem InferredType.hasUnitVar_iff_view {type : InferredType} {var : UnitVar} :
    type.HasUnitVar var ↔ ∃ number, number ≠ 0 ∧
      (type.substitute .var fun unit => unit.vars.exponent var).HasUnit number := by
  simp only [TypeTerm.hasUnit_view, HasUnitVar, PowerProduct.mem_keys]
  constructor
  · rintro ⟨unit, has, present⟩
    exact ⟨_, present, unit, has, rfl⟩
  · rintro ⟨_, present, unit, has, rfl⟩
    exact ⟨unit, has, present⟩

namespace Store

theorem exponent_multiplyValues {first second : UnitVar → InferredUnit} {var : UnitVar}
    {powers : List (UnitVar × Int)}
    (each : ∀ power ∈ powers,
      (first power.1).vars.exponent var = (second power.1).vars.exponent var)
    {product other : InferredUnit} (same : product.vars.exponent var = other.vars.exponent var) :
    (multiplyValues first product powers).vars.exponent var =
      (multiplyValues second other powers).vars.exponent var := by
  unfold multiplyValues
  induction powers generalizing product other with
  | nil => exact same
  | cons power powers ih =>
    obtain ⟨here, others⟩ := List.forall_mem_cons.mp each
    rw [List.foldl_cons, List.foldl_cons]
    refine ih others ?_
    unfold UnitTerm.multiply UnitTerm.raise
    rw [PowerProduct.exponent_multiply, PowerProduct.exponent_multiply,
      PowerProduct.exponent_raise, PowerProduct.exponent_raise, same, here]

end Store

namespace Readout

variable {readout earlier later : Readout} {store before after : Store} {type : InferredType}
  {var : TypeVar} {ω : Type}

theorem exponent_unit {unit : InferredUnit} {var : UnitVar}
    (each : ∀ next ∈ unit.vars.keys,
      (later.units next).vars.exponent var = (earlier.units next).vars.exponent var) :
    (later.unit unit).vars.exponent var = (earlier.unit unit).vars.exponent var :=
  Store.exponent_multiplyValues
    (fun power member => each power.1 (PowerProduct.mem_keys_of_toList member)) rfl

theorem view_type (readout : Readout) (view : InferredUnit → ω) (type : InferredType) :
    (readout.type type).substitute .var view =
      (type.substitute (fun var => (readout.types var).substitute .var view)
        fun unit => view (readout.unit unit) : TypeTerm TypeVar ω) :=
  TypeTerm.substitute_substitute ..

/-- What is read of a type, with its units left out, is its shape. -/
theorem Reads.outline_type (reads : readout.Reads store) (wellformed : store.Wellformed)
    (type : InferredType) : (readout.type type).outline = store.shape type := by
  let outlines : Valuation TypeVar Unit := ⟨fun var => (readout.types var).outline, fun _ => ()⟩
  have whole (type : InferredType) : outlines.type type = (readout.type type).outline :=
    (view_type readout (fun _ => ()) type).symm
  have satisfies : outlines.Satisfies store := by
    refine ⟨fun var target linked => ?_, fun _ _ _ => rfl⟩
    rw [whole, ← reads.types var target linked]
  rw [← whole]
  refine wellformed.type_eq_shape satisfies (fun var free => ?_) type
  exact congrArg TypeTerm.outline (reads.freeTypes var free)

theorem Reads.hasVar_type (reads : readout.Reads store) (wellformed : store.Wellformed) :
    (readout.type type).HasVar var ↔ (store.shape type).HasVar var := by
  rw [← reads.outline_type wellformed, TypeTerm.hasVar_outline]

theorem Reads.typeLink?_of_hasVar (reads : readout.Reads store) (wellformed : store.Wellformed)
    (has : (readout.type type).HasVar var) : store.typeLink? var = none :=
  wellformed.unbound_of_hasVar_shape ((reads.hasVar_type wellformed).mp has)

structure Kept (region : Region) (earlier later : Readout) : Prop where
  exponents : ∀ unit var, ¬region.units var →
    (later.unit unit).vars.exponent var = (earlier.unit unit).vars.exponent var
  vars : ∀ type var, ¬region.types var →
    ((later.type type).HasVar var ↔ (earlier.type type).HasVar var)
  unitVars : ∀ type var, ¬region.units var →
    ((later.type type).HasUnitVar var ↔ (earlier.type type).HasUnitVar var)
  outline : ∀ type, (∀ var, (earlier.type type).HasVar var → ¬region.types var) →
    (later.type type).outline = (earlier.type type).outline

namespace Kept

variable {region : Region} {middle : Readout}

theorem refl (readout : Readout) : Kept region readout readout where
  exponents _ _ _ := rfl
  vars _ _ _ := Iff.rfl
  unitVars _ _ _ := Iff.rfl
  outline _ _ := rfl

theorem trans (first : Kept region earlier middle) (second : Kept region middle later) :
    Kept region earlier later where
  exponents unit var outside :=
    (second.exponents unit var outside).trans (first.exponents unit var outside)
  vars type var outside := (second.vars type var outside).trans (first.vars type var outside)
  unitVars type var outside :=
    (second.unitVars type var outside).trans (first.unitVars type var outside)
  outline type apart := by
    have same := first.outline type apart
    refine (second.outline type fun var has => apart var ?_).trans same
    rw [← TypeTerm.hasVar_outline, ← same, TypeTerm.hasVar_outline]
    exact has

end Kept

private theorem view_type_eq (wellformed : before.Wellformed)
    (earlierReads : earlier.Reads before) (laterReads : later.Reads after)
    (typeLinks : after.typeLink? = before.typeLink?) {view : InferredUnit → ω}
    (same : ∀ unit, view (later.unit unit) = view (earlier.unit unit)) (type : InferredType) :
    ((later.type type).substitute .var view : TypeTerm TypeVar ω) =
      (earlier.type type).substitute .var view := by
  obtain ⟨rank, ranking⟩ := wellformed.typesRanked
  have vars (var : TypeVar) : ((later.types var).substitute .var view : TypeTerm TypeVar ω) =
      (earlier.types var).substitute .var view := by
    induction var using ranking.induction with
    | step var ih =>
      cases linked : before.typeLink? var with
      | none =>
        rw [laterReads.freeTypes var (typeLinks ▸ linked), earlierReads.freeTypes var linked]
      | some target =>
        rw [laterReads.types var target (typeLinks ▸ linked),
          earlierReads.types var target linked, view_type, view_type]
        exact TypeTerm.substitute_congr target (fun next has => ih next ⟨target, linked, has⟩)
          fun unit _ => same unit
  rw [view_type, view_type]
  exact TypeTerm.substitute_congr type (fun var _ => vars var) fun unit _ => same unit

private theorem kept_of_exponents {region : Region} (wellformed : before.Wellformed)
    (earlierReads : earlier.Reads before) (laterReads : later.Reads after)
    (typeLinks : after.typeLink? = before.typeLink?)
    (exponents : ∀ unit var, ¬region.units var →
      (later.unit unit).vars.exponent var = (earlier.unit unit).vars.exponent var) :
    Kept region earlier later := by
  have outlines (type : InferredType) : (later.type type).outline = (earlier.type type).outline :=
    view_type_eq wellformed earlierReads laterReads typeLinks (fun _ => rfl) type
  refine ⟨exponents, fun type var _ => ?_, fun type var outside => ?_, fun type _ => outlines type⟩
  · rw [← TypeTerm.hasVar_outline, outlines, TypeTerm.hasVar_outline]
  · have shown : ((later.type type).substitute .var fun unit => unit.vars.exponent var) =
        ((earlier.type type).substitute .var fun unit => unit.vars.exponent var :
          TypeTerm TypeVar Int) :=
      view_type_eq wellformed earlierReads laterReads typeLinks
        (fun unit => exponents unit var outside) type
    rw [InferredType.hasUnitVar_iff_view, shown, ← InferredType.hasUnitVar_iff_view]

/-- A link of a unit variable leaves the exponents of all variables that it does not concern. -/
theorem kept_of_bindUnit {region : Region} {bound : UnitVar} {target : InferredUnit}
    (wellformed : store.Wellformed) (within : bound.index < store.units.size)
    (free : store.unitLink? bound = none)
    (unbound : ∀ next ∈ target.vars.keys, store.unitLink? next = none)
    (absent : bound ∉ target.vars.keys) (inside : region.units bound)
    (held : region.HoldsUnit target) (earlierReads : earlier.Reads store)
    (laterReads : later.Reads (store.setUnit bound (.link target))) :
    Kept region earlier later := by
  obtain ⟨rank, ranking⟩ := wellformed.unitsRanked
  have targetRead : later.unit target = target := by
    refine laterReads.unit_free fun next member => ?_
    rw [Store.unitLink?_setUnit_of_ne (by rintro rfl; exact absent member)]
    exact unbound next member
  have units (other : UnitVar) (var : UnitVar) (outside : ¬region.units var) :
      (later.units other).vars.exponent var = (earlier.units other).vars.exponent var := by
    induction other using ranking.induction with
    | step other ih =>
      by_cases same : other = bound
      · subst same
        have different : var ≠ other := by
          rintro rfl
          exact outside inside
        have missing : var ∉ target.vars.keys := fun member => outside (held var member)
        rw [laterReads.units other target (Store.unitLink?_setUnit_self within), targetRead,
          earlierReads.freeUnits other free]
        rw [PowerProduct.mem_keys, not_not] at missing
        rw [missing]
        exact (PowerProduct.exponent_ofKey_of_ne different).symm
      · have kept : (store.setUnit bound (.link target)).unitLink? other =
            store.unitLink? other := Store.unitLink?_setUnit_of_ne same
        cases linked : store.unitLink? other with
        | none =>
          rw [laterReads.freeUnits other (kept.trans linked),
            earlierReads.freeUnits other linked]
        | some old =>
          rw [laterReads.units other old (kept.trans linked),
            earlierReads.units other old linked]
          exact exponent_unit fun next member => ih next ⟨old, linked, member⟩
  exact kept_of_exponents wellformed earlierReads laterReads rfl fun unit var outside =>
    exponent_unit fun next _ => units next var outside

private theorem type_later (wellformed : before.Wellformed) (earlierReads : earlier.Reads before)
    (laterReads : later.Reads after) (unitLinks : after.unitLink? = before.unitLink?)
    (kept : ∀ var target, before.typeLink? var = some target →
      after.typeLink? var = some target) :
    later.units = earlier.units ∧
      ∀ type, later.type type = (earlier.type type).substitute later.types id := by
  obtain ⟨unitRank, unitRanking⟩ := wellformed.unitsRanked
  obtain ⟨typeRank, typeRanking⟩ := wellformed.typesRanked
  have units (var : UnitVar) : later.units var = earlier.units var := by
    induction var using unitRanking.induction with
    | step var ih =>
      cases linked : before.unitLink? var with
      | none =>
        rw [laterReads.freeUnits var (unitLinks ▸ linked), earlierReads.freeUnits var linked]
      | some target =>
        rw [laterReads.units var target (unitLinks ▸ linked),
          earlierReads.units var target linked]
        exact unit_congr target fun next member => ih next ⟨target, linked, member⟩
  have whole (type : InferredType)
      (vars : ∀ var, type.HasVar var →
        later.types var = (earlier.types var).substitute later.types id) :
      later.type type = (earlier.type type).substitute later.types id := by
    unfold Readout.type
    rw [TypeTerm.substitute_substitute]
    exact TypeTerm.substitute_congr type vars fun unit _ => unit_congr unit fun var _ => units var
  have types (var : TypeVar) :
      later.types var = (earlier.types var).substitute later.types id := by
    induction var using typeRanking.induction with
    | step var ih =>
      cases linked : before.typeLink? var with
      | none =>
        rw [earlierReads.freeTypes var linked]
        rfl
      | some target =>
        rw [laterReads.types var target (kept var target linked),
          earlierReads.types var target linked]
        exact whole target fun next has => ih next ⟨target, linked, has⟩
  exact ⟨funext units, fun type => whole type fun var _ => types var⟩

/-- A link of a type variable brings in what its target is read as, and nothing else. -/
theorem kept_of_bindType {region : Region} {bound : TypeVar} {target : InferredType}
    (wellformed : store.Wellformed) (within : bound.index < store.types.size)
    (free : store.typeLink? bound = none) (absent : ¬(store.shape target).HasVar bound)
    (inside : region.types bound) (held : region.Holds (earlier.type target))
    (earlierReads : earlier.Reads store)
    (laterReads : later.Reads (store.setType bound (.link target))) :
    Kept region earlier later := by
  have link {other : TypeVar} (different : other ≠ bound) :
      (store.setType bound (.link target)).typeLink? other = store.typeLink? other :=
    Store.typeLink?_setType_of_ne different
  obtain ⟨units, types⟩ := type_later wellformed earlierReads laterReads rfl
    fun other old linked => (link (by rintro rfl; rw [free] at linked; cases linked)).trans linked
  have own {type : InferredType} {other : TypeVar} (has : (earlier.type type).HasVar other)
      (different : other ≠ bound) : later.types other = .var other :=
    laterReads.freeTypes other
      ((link different).trans (earlierReads.typeLink?_of_hasVar wellformed has))
  have unchanged {type : InferredType} (missing : ¬(earlier.type type).HasVar bound) :
      later.type type = earlier.type type := by
    rw [types]
    refine (TypeTerm.substitute_congr _ (fun other has => ?_) fun _ _ => rfl).trans
      (TypeTerm.substitute_self _)
    exact own has (by rintro rfl; exact missing has)
  have boundRead : later.types bound = earlier.type target := by
    rw [laterReads.types bound target (Store.typeLink?_setType_self within)]
    exact unchanged fun has => absent ((earlierReads.hasVar_type wellformed).mp has)
  have exponents (unit : InferredUnit) : later.unit unit = earlier.unit unit :=
    unit_congr unit fun var _ => congrFun units var
  refine ⟨fun unit var _ => ?_, fun type var outside => ?_, fun type var outside => ?_,
    fun type apart => ?_⟩
  · rw [exponents]
  · rw [types, TypeTerm.hasVar_substitute]
    constructor
    · rintro ⟨other, has, found⟩
      by_cases same : other = bound
      · rw [same, boundRead] at found
        exact absurd (held.1 var found) outside
      · rw [own has same] at found
        rw [TypeTerm.hasVar_var.mp found]
        exact has
    · intro has
      refine ⟨var, has, ?_⟩
      rw [own has (by rintro rfl; exact outside inside)]
      exact TypeTerm.hasVar_var.mpr rfl
  · unfold InferredType.HasUnitVar
    constructor
    · rintro ⟨unit, has, member⟩
      rw [types, TypeTerm.hasUnit_substitute] at has
      rcases has with ⟨other, among, found⟩ | ⟨old, found, rfl⟩
      · by_cases same : other = bound
        · rw [same, boundRead] at found
          exact absurd (held.2 var ⟨unit, found, member⟩) outside
        · rw [own among same] at found
          cases found with
          | tail _ impossible => cases impossible
      · exact ⟨old, found, member⟩
    · rintro ⟨unit, has, member⟩
      refine ⟨unit, ?_, member⟩
      rw [types, TypeTerm.hasUnit_substitute]
      exact .inr ⟨unit, has, rfl⟩
  · rw [unchanged fun has => apart bound has inside]

end Readout

namespace Store

variable {store before middle after : Store} {region : Region} {depth : Nat}
  {requirements : Requirements} {var : TypeVar}

structure Framed (region : Region) (before after : Store) : Prop where
  requirements : ∀ var, ¬region.types var → after.requirements? var = before.requirements? var
  unitsFree : ∀ var, ¬region.units var → before.unitLink? var = none → after.unitLink? var = none
  readouts : before.Wellformed → ∀ {earlier later : Readout}, earlier.Reads before →
    later.Reads after → Readout.Kept region earlier later

private theorem kept_of_reads (same : before.Wellformed → ∀ readout : Readout,
      readout.Reads after → readout.Reads before) (wellformed : before.Wellformed)
    {earlier later : Readout} (earlierReads : earlier.Reads before)
    (laterReads : later.Reads after) : Readout.Kept region earlier later := by
  rw [wellformed.readout_unique (same wellformed later laterReads) earlierReads]
  exact .refl earlier

namespace Framed

theorem refl (store : Store) : Framed region store store where
  requirements _ _ := rfl
  unitsFree _ _ free := free
  readouts := kept_of_reads fun _ _ reads => reads

theorem trans (first : Framed region before middle) (second : Framed region middle after)
    (wellformed : before.Wellformed → middle.Wellformed) : Framed region before after where
  requirements var outside :=
    (second.requirements var outside).trans (first.requirements var outside)
  unitsFree var outside free := second.unitsFree var outside (first.unitsFree var outside free)
  readouts := by
    intro here earlier later earlierReads laterReads
    obtain ⟨between, reads⟩ := (wellformed here).exists_readout
    exact (first.readouts here earlierReads reads).trans
      (second.readouts (wellformed here) reads laterReads)

end Framed

theorem Shortening.framed (shortening : Shortening before after) :
    Framed region before after where
  requirements var _ := shortening.requirements var
  unitsFree _ _ := shortening.settled.unitLink?_none.mpr
  readouts := kept_of_reads fun wellformed readout =>
    (shortening.settled.reads wellformed readout).mp

structure Touching (region : Region) (depth : Nat) (before after : Store) : Prop where
  solving : Solving depth before after
  framed : Framed region before after

theorem Touching.run_solving (run : Relation.ReflTransGen (Touching region depth) before after) :
    Relation.ReflTransGen (Solving depth) before after :=
  Relation.ReflTransGen.mono (fun _ _ => Touching.solving) _ _ run

theorem Touching.run_framed (run : Relation.ReflTransGen (Touching region depth) before after) :
    Framed region before after := by
  induction run with
  | refl => exact .refl before
  | tail run touching ih =>
    exact ih.trans touching.framed (Solving.run_extends (Touching.run_solving run)).wellformed

theorem Shortening.touching (shortening : Shortening before after) :
    Touching region depth before after :=
  ⟨.adjust (.shorten shortening), shortening.framed⟩

theorem Shortens.touching (shortens : before.Shortens after) :
    Relation.ReflTransGen (Touching region depth) before after :=
  Relation.ReflTransGen.mono (fun _ _ => Shortening.touching) _ _ shortens

theorem touching_require (found : store.requirements? var = some requirements)
    (extra : Requirements) (inside : region.types var) :
    Touching region depth store (store.setType var (.unbound (requirements.union extra))) where
  solving := .adjust (.require found extra)
  framed :=
    { requirements := fun other outside =>
        requirements?_setType_of_ne (by rintro rfl; exact outside inside)
      unitsFree := fun _ _ free => free
      readouts := kept_of_reads fun wellformed readout =>
        ((Adjustment.require found extra).settled.reads wellformed readout).mp }

theorem touching_freshUnit (store : Store) : Touching region depth store store.withUnit where
  solving := .freshUnit store
  framed := by
    have typeLinks : store.withUnit.typeLink? = store.typeLink? := rfl
    refine ⟨fun _ _ => rfl, fun var _ free => ?_, kept_of_reads fun _ _ => ?_⟩
    · rw [unitLink?_withUnit]
      exact free
    · exact (Readout.reads_of_links typeLinks (unitLink?_withUnit store)).mp

theorem touching_bindUnit {var : UnitVar} {target : InferredUnit}
    (within : var.index < store.units.size) (free : store.unitLink? var = none)
    (covered : store.CoversUnit target)
    (unbound : ∀ next ∈ target.vars.keys, store.unitLink? next = none)
    (absent : var ∉ target.vars.keys) (inside : region.units var)
    (held : region.HoldsUnit target) :
    Touching region depth store (store.setUnit var (.link target)) where
  solving := .bindUnit within free covered unbound absent
  framed :=
    { requirements := fun _ _ => rfl
      unitsFree := fun other outside freeOther => by
        rw [unitLink?_setUnit_of_ne (by rintro rfl; exact outside inside)]
        exact freeOther
      readouts := fun wellformed {earlier later} earlierReads laterReads =>
        Readout.kept_of_bindUnit wellformed within free unbound absent inside held earlierReads
          laterReads }

def Inside (store : Store) (region : Region) (type : InferredType) : Prop :=
  ∀ readout : Readout, readout.Reads store → region.Holds (readout.type type)

def InsideUnit (store : Store) (region : Region) (unit : InferredUnit) : Prop :=
  ∀ readout : Readout, readout.Reads store → region.HoldsUnit (readout.unit unit)

theorem touching_bindType {target : InferredType}
    (found : store.requirements? var = some requirements) (covered : store.Covers target)
    (absent : ¬(store.shape target).HasVar var) (meets : store.Meets requirements target)
    (shallow : target.depth ≤ depth) (inside : region.types var)
    (held : store.Inside region target) :
    Touching region depth store (store.setType var (.link target)) where
  solving := .bindType found covered absent meets shallow
  framed :=
    { requirements := fun other outside =>
        requirements?_setType_of_ne (by rintro rfl; exact outside inside)
      unitsFree := fun _ _ free => free
      readouts := fun wellformed {earlier later} earlierReads laterReads =>
        Readout.kept_of_bindType wellformed (index_lt_of_requirements found)
          (typeLink?_of_requirements found) absent inside (held earlier earlierReads) earlierReads
          laterReads }

variable {type : InferredType} {unit : InferredUnit}

/-- A type inside a region stays inside while there are changes in the region only. -/
theorem Inside.run (inside : before.Inside region type) (wellformed : before.Wellformed)
    (run : Relation.ReflTransGen (Touching region depth) before after) :
    after.Inside region type := by
  intro later laterReads
  obtain ⟨earlier, earlierReads⟩ := wellformed.exists_readout
  have kept := (Touching.run_framed run).readouts wellformed earlierReads laterReads
  obtain ⟨types, units⟩ := inside earlier earlierReads
  constructor
  · intro var has
    by_contra outside
    exact outside (types var ((kept.vars type var outside).mp has))
  · intro var has
    by_contra outside
    exact outside (units var ((kept.unitVars type var outside).mp has))

theorem InsideUnit.run (inside : before.InsideUnit region unit) (wellformed : before.Wellformed)
    (run : Relation.ReflTransGen (Touching region depth) before after) :
    after.InsideUnit region unit := by
  intro later laterReads var member
  obtain ⟨earlier, earlierReads⟩ := wellformed.exists_readout
  have kept := (Touching.run_framed run).readouts wellformed earlierReads laterReads
  by_contra outside
  refine outside (inside earlier earlierReads var (PowerProduct.mem_keys.mpr ?_))
  rw [← kept.exponents unit var outside]
  exact PowerProduct.mem_keys.mp member

theorem insideUnit_of_free (free : ∀ var ∈ unit.vars.keys, store.unitLink? var = none)
    (held : region.HoldsUnit unit) : store.InsideUnit region unit := by
  intro readout reads
  rw [reads.unit_free free]
  exact held

theorem Inside.reaches {result : InferredType} (inside : store.Inside region type)
    (reaches : store.Reaches type result) : store.Inside region result := by
  intro readout reads
  rw [reaches.read reads]
  exact inside readout reads

theorem Inside.hasUnit (inside : store.Inside region type) (has : type.HasUnit unit) :
    store.InsideUnit region unit := by
  intro readout reads var member
  refine (inside readout reads).2 var ⟨readout.unit unit, ?_, member⟩
  exact TypeTerm.hasUnit_substitute.mpr (.inr ⟨unit, has, rfl⟩)

theorem Inside.child {child : InferredType} (inside : store.Inside region type)
    (member : child ∈ type.children) : store.Inside region child := by
  intro readout reads
  obtain ⟨types, units⟩ := inside readout reads
  constructor
  · intro var has
    obtain ⟨other, among, found⟩ := TypeTerm.hasVar_substitute.mp has
    exact types var (TypeTerm.hasVar_substitute.mpr
      ⟨other, TypeTerm.mem_leaves_of_child member among, found⟩)
  · rintro var ⟨shown, has, occurs⟩
    refine units var ⟨shown, TypeTerm.hasUnit_substitute.mpr ?_, occurs⟩
    rcases TypeTerm.hasUnit_substitute.mp has with ⟨other, among, found⟩ | ⟨old, among, same⟩
    · exact .inl ⟨other, TypeTerm.mem_leaves_of_child member among, found⟩
    · exact .inr ⟨old, TypeTerm.mem_leaves_of_child member among, same⟩

theorem Inside.of_hasVar_shape (inside : store.Inside region type) (wellformed : store.Wellformed)
    (has : (store.shape type).HasVar var) : region.types var := by
  obtain ⟨readout, reads⟩ := wellformed.exists_readout
  exact (inside readout reads).1 var ((reads.hasVar_type wellformed).mpr has)

theorem Inside.of_free (inside : store.Inside region (.var var)) (wellformed : store.Wellformed)
    (free : store.typeLink? var = none) : region.types var := by
  apply inside.of_hasVar_shape wellformed
  rw [shape_unbound free]
  exact TypeTerm.hasVar_var.mpr rfl

end Store

end SheetTypes
