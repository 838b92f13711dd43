import SheetTypes.Proofs.Unification.Rounds

/-!
The rounds of solving `quotient = 1` come to an end. The link that a round makes leaves, of every
other exponent, at most its remainder modulo the chosen one, also where an exponent stops at the
limit. So the smallest exponent of a variable falls from round to round, until the variable that
the last round made is the only one; then one more round gives the answer.
-/

set_option autoImplicit false

namespace SheetTypes

def leftover (number other : Int) : Int :=
  clampToLimit (other + clampToLimit (reducedExponent number other * number))

theorem leftover_zero (number : Int) : leftover number 0 = 0 := by
  unfold leftover reducedExponent
  rw [Int.zero_ediv, Int.neg_zero, Int.zero_mul]
  decide

variable {number other : Int}

/-- Where the replacement stops at the limit, less than the remainder is left. -/
theorem leftover_bounds (nonzero : number ≠ 0) (within : WithinLimit other) :
    0 ≤ leftover number other ∧ leftover number other ≤ other % number := by
  have whole : other + reducedExponent number other * number = other % number := by
    rw [Int.emod_def, reducedExponent]
    ring
  have nonnegative := Int.emod_nonneg other nonzero
  unfold leftover clampToLimit
  unfold WithinLimit at within
  unfold exponentLimit at *
  generalize reducedExponent number other * number = change at *
  omega

theorem leftover_lt (nonzero : number ≠ 0) (within : WithinLimit other) :
    0 ≤ leftover number other ∧ leftover number other < number.natAbs := by
  obtain ⟨nonnegative, atMost⟩ := leftover_bounds nonzero within
  have smaller := Int.emod_lt other nonzero
  omega

namespace PowerProduct

variable {κ : Type} [Ord κ] [Std.LawfulEqOrd κ] {product : PowerProduct κ} {key : κ} {number : Int}
  {first last : List (κ × Int)}

theorem not_mem_of_split (split : product.toList = first ++ (key, number) :: last) :
    key ∉ first.map Prod.fst ∧ key ∉ last.map Prod.fst := by
  have distinct := product.toList_nodup
  rw [split, List.map_append, List.map_cons, List.nodup_append, List.nodup_cons] at distinct
  obtain ⟨_, ⟨notLast, _⟩, apart⟩ := distinct
  exact ⟨fun member => apart key member key (List.mem_cons_self ..) rfl, notLast⟩

/-- A factor in place of a key is multiplied onto the other powers, wherever the key stands. -/
theorem foldl_add_split [Std.TransOrd κ]
    (split : product.toList = first ++ (key, number) :: last) (factor : PowerProduct κ) :
    last.foldl (fun product power => product.add power.1 power.2)
        ((ofList first).multiply factor) = (product.erase key).multiply factor := by
  obtain ⟨notFirst, notLast⟩ := not_mem_of_split split
  have distinct := product.toList_nodup
  rw [split, List.map_append, List.map_cons, List.nodup_append, List.nodup_cons] at distinct
  obtain ⟨firstDistinct, ⟨_, lastDistinct⟩, apart⟩ := distinct
  have listed {part : List (κ × Int)} (inside : part ⊆ product.toList) {query : κ}
      (member : query ∈ part.map Prod.fst) : (query, product.exponent query) ∈ part := by
    obtain ⟨power, own, rfl⟩ := List.mem_map.mp member
    rw [(mem_toList.mp (inside own)).1]
    exact own
  have firstInside : first ⊆ product.toList := by simp [split]
  have lastInside : last ⊆ product.toList := by simp [split]
  apply ext_exponent
  intro query
  have inFirst := exponent_ofList firstDistinct query
  have inLast := exponent_foldl_add last ((ofList first).multiply factor) lastDistinct query
  rw [exponent_multiply] at inLast ⊢
  -- A key is listed once: before the split, after it, or not at all besides the key itself.
  by_cases early : query ∈ first.map Prod.fst
  · have different : query ≠ key := fun same => notFirst (same ▸ early)
    have notLate : query ∉ last.map Prod.fst :=
      fun late => apart query early query (List.mem_cons_of_mem _ late) rfl
    rw [inLast.2 notLate, inFirst.1 _ (listed firstInside early),
      clampToLimit_exponent, exponent_erase_of_ne product different]
  · by_cases late : query ∈ last.map Prod.fst
    · have different : query ≠ key := fun same => notLast (same ▸ late)
      rw [inLast.1 _ (listed lastInside late), inFirst.2 early, Int.zero_add,
        clampToLimit_exponent, exponent_erase_of_ne product different, Int.add_comm]
    · have absent : (product.erase key).exponent query = 0 := by
        by_cases same : query = key
        · rw [same, exponent_erase_self]
        · rw [exponent_erase_of_ne product same]
          by_contra nonzero
          have member := mem_toList.mpr ⟨rfl, nonzero⟩
          rw [split, List.mem_append, List.mem_cons, Prod.mk.injEq] at member
          rcases member with before | ⟨same', _⟩ | behind
          · exact early (List.mem_map_of_mem before)
          · exact same same'
          · exact late (List.mem_map_of_mem behind)
      rw [inLast.2 late, inFirst.2 early, absent]

end PowerProduct

namespace UnitTerm

variable {ν : Type} [Ord ν] [Std.LawfulEqOrd ν] [Std.TransOrd ν]

def replaceVar (unit : UnitTerm ν) (var : ν) (target : UnitTerm ν) : UnitTerm ν :=
  (unit.eraseVar var).multiply (target.raise (unit.vars.exponent var))

end UnitTerm

namespace Store

open Unification

variable {store : Store} {var : UnitVar}

def valueWith (var : UnitVar) (target : InferredUnit) (other : UnitVar) : InferredUnit :=
  if other = var then target else .ofVar other

/-- Whichever place the replaced variable has among the powers, what comes before it and what comes
after it is added to different exponents. -/
theorem multiplyValues_replace (unit target : InferredUnit) (present : var ∈ unit.vars.keys) :
    multiplyValues (valueWith var target) (.ofGround unit.names) unit.vars.toList =
      unit.replaceVar var target := by
  have listed : (var, unit.vars.exponent var) ∈ unit.vars.toList :=
    PowerProduct.mem_toList.mpr ⟨rfl, PowerProduct.mem_keys.mp present⟩
  obtain ⟨first, last, split⟩ := List.append_of_mem listed
  have others (power : UnitVar × Int) (member : power ∈ first ∨ power ∈ last) :
      valueWith var target power.1 = .ofVar power.1 ∧ WithinLimit power.2 := by
    have inside : power ∈ unit.vars.toList := by
      rw [split]
      rcases member with early | late
      · exact List.mem_append_left _ early
      · exact List.mem_append_right _ (List.mem_cons_of_mem _ late)
    constructor
    · apply if_neg
      intro same
      obtain ⟨notFirst, notLast⟩ := PowerProduct.not_mem_of_split split
      rcases member with early | late
      · exact notFirst (same ▸ List.mem_map_of_mem early)
      · exact notLast (same ▸ List.mem_map_of_mem late)
    · rw [← (PowerProduct.mem_toList.mp inside).1]
      exact unit.vars.exponent_within power.1
  have early : multiplyValues (valueWith var target) (.ofGround unit.names) first =
      ⟨unit.names, .ofList first⟩ := by
    rw [multiplyValues_vars fun power member => others power (.inl member),
      PowerProduct.ofList_eq]
    rfl
  have late := multiplyValues_vars fun power member => others power (.inr member)
  have own : valueWith var target var = target := if_pos rfl
  unfold multiplyValues at early late ⊢
  rw [split, List.foldl_append, List.foldl_cons, own, early, late]
  unfold UnitTerm.replaceVar UnitTerm.multiply
  congr 1
  exact PowerProduct.foldl_add_split split _

/-- Pruning a unit that has just one linked variable replaces that variable. -/
theorem pruneUnit_linked {unit target : InferredUnit} (linked : store.unitLink? var = some target)
    (present : var ∈ unit.vars.keys)
    (others : ∀ other ∈ unit.vars.keys, other ≠ var → store.unitLink? other = none)
    (free : ∀ next ∈ target.vars.keys, store.unitLink? next = none) :
    (pruneUnit unit store).1 = unit.replaceVar var target := by
  have bound : ¬(unit.vars.keys.all fun var => !store.isUnitBound var) = true := by
    intro all
    have unbound := List.all_eq_true.mp all var present
    rw [isUnitBound, linked] at unbound
    cases unbound
  have each (power : UnitVar × Int) (member : power ∈ unit.vars.toList) (later : Store)
      (same : later.unitLink? = store.unitLink?) :
      ∃ after, reduceVar (pruneUnitWithin store.units.size) power.1 later =
        (valueWith var target power.1, after) ∧ after.unitLink? = store.unitLink? := by
    by_cases own : power.1 = var
    · have found : later.unitLink? power.1 = some target := by rw [same, own, linked]
      have kept : pruneUnitWithin store.units.size target later = (target, later) := by
        apply pruneUnitWithin_of_unbound
        rw [same]
        exact free
      refine ⟨later.setUnit power.1 (.link target), ?_, ?_⟩
      · rw [reduceVar_linked _ found, kept, valueWith, if_pos own]
      · funext other
        by_cases here : other = power.1
        · rw [here, unitLink?_setUnit_self (index_lt_of_unitLink found), own, linked]
        · rw [unitLink?_setUnit_of_ne here, same]
    · have found : later.unitLink? power.1 = none := by
        rw [same]
        exact others power.1 (PowerProduct.mem_keys_of_toList member) own
      refine ⟨later, ?_, same⟩
      rw [reduceVar_free _ found, valueWith, if_neg own]
  obtain ⟨after, done, _⟩ := multiplyPowers_values (fun _ _ same => same) each
    (.ofGround unit.names) rfl
  have opened : pruneUnit unit store = multiplyPowers
      (reduceVar (pruneUnitWithin store.units.size)) (.ofGround unit.names) unit.vars.toList
        store := by
    change pruneUnitWithin (store.units.size + 1) unit store = _
    rw [pruneUnitWithin_eq, reduceUnit, state_get_bind_apply, if_neg bound, pruneUnitWithin_eq]
  rw [opened, done]
  exact multiplyValues_replace unit target present

end Store

namespace UnitTerm

variable {ν : Type} [Ord ν] [Std.LawfulEqOrd ν]

def leastExponent (unit : UnitTerm ν) : Nat :=
  (unit.vars.toList.map fun power => power.2.natAbs).min?.getD 0

theorem leastExponent_le {unit : UnitTerm ν} {var : ν} (member : var ∈ unit.vars.keys) :
    unit.leastExponent ≤ (unit.vars.exponent var).natAbs := by
  have listed : (unit.vars.exponent var).natAbs ∈
      unit.vars.toList.map fun power => power.2.natAbs :=
    List.mem_map_of_mem (PowerProduct.mem_toList.mpr ⟨rfl, PowerProduct.mem_keys.mp member⟩)
  exact List.min?_getD_le_of_mem listed

end UnitTerm

namespace Unification

open Store

theorem leastExponent_of_pivot {unit : InferredUnit} {var : UnitVar}
    (chosen : pivot? unit.vars.toList = some (var, number)) :
    unit.leastExponent = number.natAbs := by
  obtain ⟨member, least⟩ := pivot?_eq_some chosen
  have found : (unit.vars.toList.map fun power => power.2.natAbs).min? = some number.natAbs := by
    rw [List.min?_eq_some_iff]
    constructor
    · exact List.mem_map_of_mem member
    · intro other inside
      obtain ⟨power, listed, rfl⟩ := List.mem_map.mp inside
      exact least power listed
  rw [UnitTerm.leastExponent, found]
  rfl

section Remainder

variable {store : Store} {quotient : InferredUnit} {var : UnitVar} {number : Int} {κ : Type}

def remainder (store : Store) (quotient : InferredUnit) (var : UnitVar) (number : Int) :
    InferredUnit :=
  quotient.replaceVar var (reduction store quotient var number)

theorem pruneUnit_remainder (covered : store.CoversUnit quotient)
    (free : ∀ var ∈ quotient.vars.keys, store.unitLink? var = none)
    (chosen : pivot? quotient.vars.toList = some (var, number)) :
    (pruneUnit quotient
      (store.withUnit.setUnit var (.link (reduction store quotient var number)))).1 =
        remainder store quotient var number := by
  have present := mem_keys_of_pivot chosen
  have linkable := linkable_reduction covered free present number
  apply pruneUnit_linked (unitLink?_setUnit_self linkable.within) present
  · intro other inside different
    rw [unitLink?_setUnit_of_ne different, unitLink?_withUnit]
    exact free other inside
  · intro next member
    have different : next ≠ var := fun same => linkable.absent (same ▸ member)
    rw [unitLink?_setUnit_of_ne different]
    exact linkable.unbound next member

private theorem exponent_replaced [Ord κ] [Std.LawfulEqOrd κ] [Std.TransOrd κ]
    (product fresh : PowerProduct κ) (number : Int) (query : κ) :
    (product.multiply ((fresh.multiply
        (product.mapExponents (reducedExponent number))).raise number)).exponent query =
      clampToLimit (product.exponent query + clampToLimit (clampToLimit
        (fresh.exponent query + reducedExponent number (product.exponent query)) * number)) := by
  rw [PowerProduct.exponent_multiply, PowerProduct.exponent_raise, PowerProduct.exponent_multiply,
    PowerProduct.exponent_mapExponents_of_le product (reducedExponent_le number)]

private theorem exponent_leftover [Ord κ] [Std.LawfulEqOrd κ] [Std.TransOrd κ]
    (product : PowerProduct κ) {fresh : PowerProduct κ} (number : Int) {query : κ}
    (absent : fresh.exponent query = 0) :
    (product.multiply ((fresh.multiply
        (product.mapExponents (reducedExponent number))).raise number)).exponent query =
      leftover number (product.exponent query) := by
  have kept : clampToLimit (reducedExponent number (product.exponent query)) =
      reducedExponent number (product.exponent query) := by
    rw [← PowerProduct.exponent_mapExponents_of_le product (reducedExponent_le number)]
    exact PowerProduct.clampToLimit_exponent _ query
  rw [exponent_replaced, absent, Int.zero_add, kept]
  rfl

variable (chosen : pivot? quotient.vars.toList = some (var, number))

include chosen

theorem exponent_remainder_name (name : String) :
    (remainder store quotient var number).names.exponent name =
      leftover number (quotient.names.exponent name) := by
  unfold remainder UnitTerm.replaceVar
  rw [(exponent_of_pivot chosen).1]
  exact exponent_leftover quotient.names number (PowerProduct.exponent_one name)

theorem exponent_remainder_of_ne {other : UnitVar} (old : other ≠ ⟨store.units.size⟩) :
    (remainder store quotient var number).vars.exponent other =
      leftover number ((quotient.vars.erase var).exponent other) := by
  unfold remainder UnitTerm.replaceVar
  rw [(exponent_of_pivot chosen).1]
  exact exponent_leftover (quotient.vars.erase var) number
    (PowerProduct.exponent_ofKey_of_ne old)

theorem exponent_remainder_fresh (covered : store.CoversUnit quotient) :
    (remainder store quotient var number).vars.exponent ⟨store.units.size⟩ = number := by
  have absent : (quotient.vars.erase var).exponent ⟨store.units.size⟩ = 0 := by
    by_contra present
    have old := PowerProduct.mem_keys_erase.mp (PowerProduct.mem_keys.mpr present)
    exact Nat.lt_irrefl _ (covered _ old.1)
  have within : clampToLimit number = number := by
    rw [← (exponent_of_pivot chosen).1, PowerProduct.clampToLimit_exponent]
  have one : clampToLimit (1 + reducedExponent number 0) = 1 := by
    rw [reducedExponent, Int.zero_ediv]
    decide
  unfold remainder UnitTerm.replaceVar
  rw [(exponent_of_pivot chosen).1]
  refine (exponent_replaced (quotient.vars.erase var) (.ofKey ⟨store.units.size⟩) number _).trans ?_
  rw [absent, PowerProduct.exponent_ofKey_self, one, Int.one_mul, Int.zero_add, within, within]

theorem exponent_remainder_bounds {other : UnitVar} (old : other ≠ ⟨store.units.size⟩) :
    0 ≤ (remainder store quotient var number).vars.exponent other ∧
      (remainder store quotient var number).vars.exponent other < number.natAbs := by
  rw [exponent_remainder_of_ne chosen old]
  exact leftover_lt (exponent_of_pivot chosen).2 (PowerProduct.exponent_within _ other)

theorem leastExponent_remainder (covered : store.CoversUnit quotient) :
    (remainder store quotient var number).leastExponent < quotient.leastExponent ∨
      (remainder store quotient var number).vars.keys = [⟨store.units.size⟩] := by
  rw [leastExponent_of_pivot chosen]
  by_cases others : ∃ other ∈ (remainder store quotient var number).vars.keys,
      other ≠ ⟨store.units.size⟩
  · obtain ⟨other, member, old⟩ := others
    have small := exponent_remainder_bounds chosen old
    have least := UnitTerm.leastExponent_le member
    left
    omega
  · right
    push Not at others
    have present : ⟨store.units.size⟩ ∈ (remainder store quotient var number).vars.keys := by
      rw [PowerProduct.mem_keys, exponent_remainder_fresh chosen covered]
      exact (exponent_of_pivot chosen).2
    have distinct : (remainder store quotient var number).vars.keys.Nodup :=
      OrderedMap.keys_nodup _
    rw [← List.perm_singleton,
      List.perm_ext_iff_of_nodup distinct (List.nodup_singleton ⟨store.units.size⟩)]
    intro other
    rw [List.mem_singleton]
    constructor
    · exact others other
    · intro same
      rw [same]
      exact present

end Remainder

section Ending

variable {store after : Store} {quotient next : InferredUnit} {rounds : Nat} {var : UnitVar}

theorem size_eq_length (unit : InferredUnit) : unit.vars.size = unit.vars.keys.length :=
  (List.length_map ..).symm

theorem size_pos_of_pivot (chosen : pivot? quotient.vars.toList = some (var, number)) :
    0 < quotient.vars.size := by
  rw [size_eq_length]
  exact List.length_pos_of_mem (mem_keys_of_pivot chosen)

/-- A round with an exponent that does not divide all others chooses one that is no unit. -/
theorem two_le_of_indivisible {others : List Int} (nonzero : number ≠ 0)
    (indivisible : ¬∀ other ∈ others, number ∣ other) : 2 ≤ number.natAbs := by
  by_contra small
  apply indivisible
  intro other _
  rw [← Int.natAbs_dvd_natAbs]
  have one : number.natAbs = 1 := by omega
  rw [one]
  exact Nat.one_dvd _

/-- What a round that goes on has done: which unit it has pruned the quotient to, and which variable
of that unit it has linked. -/
structure Reducing (before : Store) (quotient : InferredUnit) (middle : Store) (var : UnitVar)
    (number : Int) (next : InferredUnit) (after : Store) : Prop where
  pruned : pruneUnit quotient before = (next, middle)
  shortens : before.Shortens middle
  reduced : middle.Reduced quotient next
  chosen : pivot? next.vars.toList = some (var, number)
  indivisible : ¬∀ other ∈ (next.eraseVar var).exponents, number ∣ other
  several : next.vars.size ≠ 1
  linked : after = middle.withUnit.setUnit var (.link (reduction middle next var number))

section Round

variable (wellformed : store.Wellformed) (covered : store.CoversUnit quotient)

include wellformed covered

/-- A round never fails. -/
theorem solveRound_cases :
    (∃ found last, solveRound quotient store = (.ok (.done found), last)) ∨
      ∃ next after, solveRound quotient store = (.ok (.more next), after) := by
  generalize done : pruneUnit quotient store = result
  obtain ⟨pruned, middle⟩ := result
  obtain ⟨_, reduced⟩ := pruneUnit_reduced wellformed covered done
  have round := solveRound_round done reduced.covered reduced.free
  generalize solveRound quotient store = outcome at round
  cases round with
  | ground none => exact .inl ⟨_, _, rfl⟩
  | solved chosen divides => exact .inl ⟨_, _, rfl⟩
  | alone chosen indivisible single => exact .inl ⟨_, _, rfl⟩
  | reduced chosen indivisible several => exact .inr ⟨_, _, rfl⟩

theorem solveRound_more (continued : solveRound quotient store = (.ok (.more next), after)) :
    ∃ middle var number, Reducing store quotient middle var number next after := by
  generalize done : pruneUnit quotient store = result
  obtain ⟨pruned, middle⟩ := result
  obtain ⟨shortens, reduced⟩ := pruneUnit_reduced wellformed covered done
  have round := solveRound_round done reduced.covered reduced.free
  rw [continued] at round
  cases round with
  | reduced chosen indivisible several =>
    exact ⟨middle, _, _, done, shortens, reduced, chosen, indivisible, several, rfl⟩

/-- A round ends the search where at most one variable is left. -/
theorem solveRound_last (few : (pruneUnit quotient store).1.vars.size ≤ 1) :
    ∃ found last, solveRound quotient store = (.ok (.done found), last) := by
  apply (solveRound_cases wellformed covered).resolve_right
  rintro ⟨next, after, continued⟩
  obtain ⟨middle, var, number, reducing⟩ := solveRound_more wellformed covered continued
  rw [reducing.pruned] at few
  dsimp only at few
  have positive := size_pos_of_pivot reducing.chosen
  have several := reducing.several
  omega

end Round

namespace Reducing

variable {middle : Store} {var : UnitVar} {number : Int}
  (reducing : Reducing store quotient middle var number next after)

include reducing

theorem unitCount : middle.units.size = store.units.size :=
  (Shortens.settled reducing.shortens).unitCount

theorem units_size : after.units.size = store.units.size + 1 := by
  rw [reducing.linked, units_size_setUnit, units_size_withUnit, reducing.unitCount]

theorem grows : store.Extends after := by
  rw [reducing.linked]
  exact (Solving.run_extends (Shortens.solving reducing.shortens 0)).trans
    (extends_reduction reducing.reduced.covered reducing.reduced.free reducing.chosen)

theorem coversUnit : after.CoversUnit next := by
  rw [reducing.linked]
  exact (extends_reduction reducing.reduced.covered reducing.reduced.free
    reducing.chosen).coversUnit reducing.reduced.covered

theorem pruneUnit_next : (pruneUnit next after).1 = remainder middle next var number := by
  rw [reducing.linked]
  exact pruneUnit_remainder reducing.reduced.covered reducing.reduced.free reducing.chosen

/-- The exponents of the next quotient, apart from that of the new variable. -/
theorem bounds {other : UnitVar} (old : other ≠ ⟨store.units.size⟩) :
    0 ≤ (pruneUnit next after).1.vars.exponent other ∧
      (pruneUnit next after).1.vars.exponent other < number.natAbs := by
  rw [← reducing.unitCount] at old
  rw [reducing.pruneUnit_next]
  exact exponent_remainder_bounds reducing.chosen old

/-- The smallest exponent falls, unless the new variable is the only one left. -/
theorem descends :
    (pruneUnit next after).1.leastExponent < next.leastExponent ∨
      (pruneUnit next after).1.vars.keys = [⟨store.units.size⟩] := by
  rw [← reducing.unitCount, reducing.pruneUnit_next]
  exact leastExponent_remainder reducing.chosen reducing.reduced.covered

end Reducing

def Continues (first next : InferredUnit × Store) : Prop :=
  solveRound first.1 first.2 = (.ok (.more next.1), next.2)

/-- What holds at the start of every round. -/
theorem continues_run {last : InferredUnit × Store} (wellformed : store.Wellformed)
    (covered : store.CoversUnit quotient)
    (rounds : Relation.ReflTransGen Continues (quotient, store) last) :
    last.2.Wellformed ∧ last.2.CoversUnit last.1 := by
  induction rounds with
  | refl => exact ⟨wellformed, covered⟩
  | tail _ continued ih =>
    obtain ⟨_, _, _, reducing⟩ := solveRound_more ih.1 ih.2 continued
    exact ⟨reducing.grows.wellformed ih.1, reducing.coversUnit⟩

/-- Whether so many rounds are enough to solve `quotient = 1`: the smallest exponent falls from
round to round, until a single variable is left. -/
structure Enough (rounds : Nat) (quotient : InferredUnit) (store : Store) : Prop where
  positive : 0 < rounds
  small : (pruneUnit quotient store).1.vars.size ≤ 1 ∨
    (pruneUnit quotient store).1.leastExponent ≤ rounds

theorem Reducing.enough {middle : Store}
    (reducing : Reducing store quotient middle var number next after)
    (enough : Enough (rounds + 1) quotient store) : Enough rounds next after := by
  have least := leastExponent_of_pivot reducing.chosen
  have large := two_le_of_indivisible (exponent_of_pivot reducing.chosen).2 reducing.indivisible
  have atMost : next.leastExponent ≤ rounds + 1 := by
    have positive := size_pos_of_pivot reducing.chosen
    have several := reducing.several
    have small := enough.small
    rw [reducing.pruned] at small
    dsimp only at small
    omega
  constructor
  · omega
  · rcases reducing.descends with falls | single
    · right
      omega
    · left
      rw [size_eq_length, single]
      exact Nat.le_refl 1

/-- With enough rounds the search ends by itself: neither what is done where no more rounds may be
made nor the number of further rounds matters. -/
theorem solving_ends {more : Nat} (wellformed : store.Wellformed)
    (covered : store.CoversUnit quotient) (enough : Enough rounds quotient store)
    (atLeast : rounds ≤ more) (stop : InferredUnit → Infer Bool) :
    solving stop more quotient store = solveWithin rounds quotient store := by
  rw [solveWithin_eq]
  induction rounds generalizing more quotient store with
  | zero => exact absurd enough.positive (Nat.lt_irrefl 0)
  | succ rounds ih =>
    obtain ⟨fewer, rfl⟩ := Nat.exists_eq_add_of_lt (Nat.lt_of_succ_le atLeast)
    rcases solveRound_cases wellformed covered with
      ⟨found, last, ended⟩ | ⟨next, after, continued⟩
    · rw [solving_of_done ended, solving_of_done ended]
    · obtain ⟨middle, var, number, reducing⟩ := solveRound_more wellformed covered continued
      rw [solving_of_more continued, solving_of_more continued]
      apply ih (reducing.grows.wellformed wellformed) reducing.coversUnit
        (reducing.enough enough)
      omega

theorem leastExponent_le_solvingRounds (quotient : InferredUnit) :
    quotient.leastExponent ≤ solvingRounds quotient := by
  unfold UnitTerm.leastExponent solvingRounds
  cases quotient.vars.toList with
  | nil => exact Nat.zero_le 2
  | cons first rest =>
    have least : ((first :: rest).map fun power => power.2.natAbs).min?.getD 0 ≤
        first.2.natAbs := List.min?_getD_le_of_mem (List.mem_cons_self ..)
    rw [List.foldr_cons]
    omega

theorem solvingRounds_pos (quotient : InferredUnit) : 0 < solvingRounds quotient := by
  unfold solvingRounds
  induction quotient.vars.toList with
  | nil => exact Nat.succ_pos 1
  | cons first rest ih => exact Nat.lt_of_lt_of_le ih (Nat.le_add_left _ _)

theorem enough_solvingRounds
    (free : ∀ var ∈ quotient.vars.keys, store.unitLink? var = none) :
    Enough (solvingRounds quotient) quotient store := by
  constructor
  · exact solvingRounds_pos quotient
  · right
    rw [pruneUnit_of_unbound free]
    exact leastExponent_le_solvingRounds quotient

end Ending

end Unification

end SheetTypes
