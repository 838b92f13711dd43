import SheetTypes.Proofs.Store.Links

/-!
Readouts: what the variables of a store are resolved to. An unbound variable is read as itself and
a linked one as its target; the powers of a unit are multiplied one after the other and stop at
the limit, as resolving does it. A well formed store has exactly one readout. It holds exponents
that have stopped at the limit too, which no valuation accounts for.
-/

set_option autoImplicit false

namespace SheetTypes

namespace UnitTerm

variable {ν : Type} [Ord ν] [Std.LawfulEqOrd ν] [Std.TransOrd ν]

theorem multiply_ofVar_raise (product : UnitTerm ν) (var : ν) {number : Int}
    (within : WithinLimit number) :
    product.multiply ((ofVar var).raise number) = ⟨product.names, product.vars.add var number⟩ := by
  have names : product.names.multiply (PowerProduct.one.raise number) = product.names :=
    product.names.multiply_raise_one number
  have vars : product.vars.multiply ((PowerProduct.ofKey var).raise number) =
      product.vars.add var number := by
    apply PowerProduct.ext_exponent
    intro query
    rw [PowerProduct.exponent_multiply, PowerProduct.exponent_raise]
    by_cases same : query = var
    · rw [same, PowerProduct.exponent_ofKey_self, PowerProduct.exponent_add_self, Int.one_mul,
        clampToLimit_of_within within]
    · have zero : clampToLimit 0 = 0 := by decide
      rw [PowerProduct.exponent_ofKey_of_ne same, PowerProduct.exponent_add_of_ne _ _ same,
        Int.zero_mul, zero, Int.add_zero, PowerProduct.clampToLimit_exponent]
  unfold multiply raise ofVar
  rw [names, vars]

end UnitTerm

namespace Ranking

variable {α β : Type} {bound : α → Prop} {edge : α → α → Prop} {rank : α → Nat}
  {step : (α → β) → α → β}

/-- Values that each depend on those along the edges can be given to all variables at once. -/
theorem exists_values [Nonempty β] (ranking : Ranking bound edge rank)
    (depends : ∀ first second var, (∀ next, edge var next → first next = second next) →
      step first var = step second var) :
    ∃ values, ∀ var, values var = step values var := by
  obtain ⟨base⟩ : Nonempty (α → β) := inferInstance
  have stable (rounds more : Nat) (var : α) (enough : rank var < rounds)
      (moreEnough : rank var < more) : step^[rounds] base var = step^[more] base var := by
    induction rounds generalizing more var with
    | zero => cases enough
    | succ rounds ih =>
      cases more with
      | zero => cases moreEnough
      | succ more =>
        rw [Function.iterate_succ_apply', Function.iterate_succ_apply']
        refine depends _ _ var fun next leads => ?_
        have less := ranking.below var next leads
        exact ih more next (by omega) (by omega)
  refine ⟨fun var => step^[rank var + 1] base var, fun var => ?_⟩
  apply (congrFun (Function.iterate_succ_apply' step (rank var) base) var).trans
  refine depends _ _ var fun next leads => ?_
  exact stable _ _ next (ranking.below var next leads) (Nat.lt_succ_self _)

theorem values_unique (ranking : Ranking bound edge rank)
    (depends : ∀ first second var, (∀ next, edge var next → first next = second next) →
      step first var = step second var)
    {first second : α → β} (firstFixed : ∀ var, first var = step first var)
    (secondFixed : ∀ var, second var = step second var) (var : α) : first var = second var := by
  induction var using ranking.induction with
  | step var ih => rw [firstFixed, secondFixed, depends first second var ih]

end Ranking

namespace Store

def multiplyValues (value : UnitVar → InferredUnit) (product : InferredUnit)
    (powers : List (UnitVar × Int)) : InferredUnit :=
  powers.foldl (fun product power => product.multiply ((value power.1).raise power.2)) product

/-- Powers of variables that stand for themselves are added to the exponents. -/
theorem multiplyValues_vars {value : UnitVar → InferredUnit} {powers : List (UnitVar × Int)}
    (each : ∀ power ∈ powers, value power.1 = .ofVar power.1 ∧ WithinLimit power.2)
    (product : InferredUnit) :
    multiplyValues value product powers = ⟨product.names,
      powers.foldl (fun product power => product.add power.1 power.2) product.vars⟩ := by
  unfold multiplyValues
  induction powers generalizing product with
  | nil => rfl
  | cons power powers ih =>
    obtain ⟨here, others⟩ := List.forall_mem_cons.mp each
    rw [List.foldl_cons, List.foldl_cons, here.1, UnitTerm.multiply_ofVar_raise product _ here.2]
    exact ih others _

end Store

/-- What each variable is resolved to. -/
structure Readout where
  types : TypeVar → InferredType
  units : UnitVar → InferredUnit

namespace Readout

def unit (readout : Readout) (unit : InferredUnit) : InferredUnit :=
  Store.multiplyValues readout.units (.ofGround unit.names) unit.vars.toList

def type (readout : Readout) (type : InferredType) : InferredType :=
  type.substitute readout.types readout.unit

/-- Whether unbound variables are read as themselves, and linked ones as their targets. -/
structure Reads (readout : Readout) (store : Store) : Prop where
  freeTypes : ∀ var, store.typeLink? var = none → readout.types var = .var var
  freeUnits : ∀ var, store.unitLink? var = none → readout.units var = .ofVar var
  types : ∀ var target, store.typeLink? var = some target →
    readout.types var = readout.type target
  units : ∀ var target, store.unitLink? var = some target →
    readout.units var = readout.unit target

theorem ext_values {first second : Readout} (types : ∀ var, first.types var = second.types var)
    (units : ∀ var, first.units var = second.units var) : first = second := by
  cases first
  cases second
  congr 1
  · exact funext types
  · exact funext units

@[simp]
theorem type_var (readout : Readout) (var : TypeVar) :
    readout.type (.var var) = readout.types var := rfl

theorem unit_congr {first second : Readout} (unit : InferredUnit)
    (same : ∀ var ∈ unit.vars.keys, first.units var = second.units var) :
    first.unit unit = second.unit unit := by
  refine List.foldl_ext _ _ _ fun product power member => ?_
  rw [same power.1 (PowerProduct.mem_keys_of_toList member)]

theorem type_congr {first second : Readout} (type : InferredType)
    (sameTypes : ∀ var, type.HasVar var → first.types var = second.types var)
    (sameUnits : ∀ unit, type.HasUnit unit → ∀ var ∈ unit.vars.keys,
      first.units var = second.units var) :
    first.type type = second.type type :=
  TypeTerm.substitute_congr type sameTypes fun unit has => unit_congr unit (sameUnits unit has)

@[simp]
theorem unit_ofVar (readout : Readout) (var : UnitVar) :
    readout.unit (.ofVar var) = readout.units var := by
  change UnitTerm.multiply ⟨.one, .one⟩ ((readout.units var).raise 1) = readout.units var
  unfold UnitTerm.multiply UnitTerm.raise
  rw [PowerProduct.one_multiply, PowerProduct.one_multiply, PowerProduct.raise_one,
    PowerProduct.raise_one]

variable {unit : InferredUnit}

/-- A unit whose variables are read as themselves is read as itself: its exponents are within the
limit. -/
theorem unit_eq_self {readout : Readout}
    (own : ∀ var ∈ unit.vars.keys, readout.units var = .ofVar var) : readout.unit unit = unit := by
  have each (power : UnitVar × Int) (member : power ∈ unit.vars.toList) :
      readout.units power.1 = .ofVar power.1 ∧ WithinLimit power.2 := by
    refine ⟨own power.1 (PowerProduct.mem_keys_of_toList member), ?_⟩
    rw [← (PowerProduct.mem_toList.mp member).1]
    exact unit.vars.exponent_within power.1
  rw [Readout.unit, Store.multiplyValues_vars each]
  congr 1
  exact (PowerProduct.multiply_eq .one unit.vars).symm.trans (PowerProduct.one_multiply unit.vars)

variable {readout : Readout} {store : Store}

theorem Reads.unit_free (reads : readout.Reads store)
    (free : ∀ var ∈ unit.vars.keys, store.unitLink? var = none) : readout.unit unit = unit :=
  unit_eq_self fun var member => reads.freeUnits var (free var member)

theorem reads_of_links {before after : Store} (typeLinks : after.typeLink? = before.typeLink?)
    (unitLinks : after.unitLink? = before.unitLink?) :
    readout.Reads after ↔ readout.Reads before := by
  constructor
  · rintro ⟨freeTypes, freeUnits, types, units⟩
    rw [typeLinks] at freeTypes types
    rw [unitLinks] at freeUnits units
    exact ⟨freeTypes, freeUnits, types, units⟩
  · rintro ⟨freeTypes, freeUnits, types, units⟩
    rw [← typeLinks] at freeTypes types
    rw [← unitLinks] at freeUnits units
    exact ⟨freeTypes, freeUnits, types, units⟩

end Readout

namespace Store

variable {store : Store}

private def readUnit (store : Store) (units : UnitVar → InferredUnit) (var : UnitVar) :
    InferredUnit :=
  (store.unitLink? var).elim (.ofVar var) (Readout.unit ⟨.var, units⟩)

private def readType (store : Store) (units : UnitVar → InferredUnit)
    (types : TypeVar → InferredType) (var : TypeVar) : InferredType :=
  (store.typeLink? var).elim (.var var) (Readout.type ⟨types, units⟩)

private theorem readUnit_depends (first second : UnitVar → InferredUnit) (var : UnitVar)
    (same : ∀ next, store.UnitEdge var next → first next = second next) :
    store.readUnit first var = store.readUnit second var := by
  unfold readUnit
  cases linked : store.unitLink? var with
  | none => rfl
  | some target =>
    exact Readout.unit_congr target fun next member => same next ⟨target, linked, member⟩

private theorem readType_depends (units : UnitVar → InferredUnit)
    (first second : TypeVar → InferredType) (var : TypeVar)
    (same : ∀ next, store.TypeEdge var next → first next = second next) :
    store.readType units first var = store.readType units second var := by
  unfold readType
  cases linked : store.typeLink? var with
  | none => rfl
  | some target =>
    exact Readout.type_congr target (fun next has => same next ⟨target, linked, has⟩)
      fun _ _ _ _ => rfl

private theorem reads_iff (readout : Readout) :
    readout.Reads store ↔ (∀ var, readout.units var = store.readUnit readout.units var) ∧
      ∀ var, readout.types var = store.readType readout.units readout.types var := by
  unfold readUnit readType
  constructor
  · rintro ⟨freeTypes, freeUnits, types, units⟩
    refine ⟨fun var => ?_, fun var => ?_⟩
    · cases linked : store.unitLink? var with
      | none => exact freeUnits var linked
      | some target => exact units var target linked
    · cases linked : store.typeLink? var with
      | none => exact freeTypes var linked
      | some target => exact types var target linked
  · rintro ⟨units, types⟩
    refine ⟨fun var free => ?_, fun var free => ?_, fun var target linked => ?_,
      fun var target linked => ?_⟩
    · rw [types, free]
      rfl
    · rw [units, free]
      rfl
    · rw [types, linked]
      rfl
    · rw [units, linked]
      rfl

theorem Wellformed.exists_readout (wellformed : store.Wellformed) :
    ∃ readout : Readout, readout.Reads store := by
  obtain ⟨unitRank, unitRanking⟩ := wellformed.unitsRanked
  obtain ⟨typeRank, typeRanking⟩ := wellformed.typesRanked
  have : Nonempty InferredUnit := ⟨.scalar⟩
  have : Nonempty InferredType := ⟨.text⟩
  obtain ⟨units, unitsRead⟩ := unitRanking.exists_values (@readUnit_depends store)
  obtain ⟨types, typesRead⟩ := typeRanking.exists_values (@readType_depends store units)
  exact ⟨⟨types, units⟩, (reads_iff _).mpr ⟨unitsRead, typesRead⟩⟩

theorem Wellformed.readout_unique (wellformed : store.Wellformed) {first second : Readout}
    (firstReads : first.Reads store) (secondReads : second.Reads store) : first = second := by
  obtain ⟨unitRank, unitRanking⟩ := wellformed.unitsRanked
  obtain ⟨typeRank, typeRanking⟩ := wellformed.typesRanked
  obtain ⟨firstUnits, firstTypes⟩ := (reads_iff first).mp firstReads
  obtain ⟨secondUnits, secondTypes⟩ := (reads_iff second).mp secondReads
  have units := unitRanking.values_unique readUnit_depends firstUnits secondUnits
  rw [← funext units] at secondTypes
  exact Readout.ext_values
    (typeRanking.values_unique (readType_depends first.units) firstTypes secondTypes) units

end Store

end SheetTypes
