import SheetTypes.Proofs.Store.Solutions

/-!
Rounds of solving `quotient = 1`. A round replaces the linked variables of the quotient and links
the variable with the smallest exponent. Either that exponent divides all others, and the link
solves the equation; or the link reduces all other exponents modulo that one, with a new variable
for what is left, and another round follows.
-/

set_option autoImplicit false

namespace SheetTypes

theorem WithinLimit.of_natAbs_le {number bound : Int} (within : WithinLimit bound)
    (small : number.natAbs ≤ bound.natAbs) : WithinLimit number := by
  unfold WithinLimit exponentLimit at *
  omega

namespace PowerProduct

variable {κ : Type} [Ord κ] [Std.LawfulEqOrd κ] [Std.TransOrd κ] {change : Int → Int} {key : κ}
  {product : PowerProduct κ}

/-- Changes that do not make exponents greater pass no limit. -/
theorem exponent_mapExponents_of_le (product : PowerProduct κ)
    (smaller : ∀ number, (change number).natAbs ≤ number.natAbs) (query : κ) :
    (product.mapExponents change).exponent query = change (product.exponent query) := by
  have zero : change 0 = 0 := by
    have less := smaller 0
    omega
  rw [exponent_mapExponents product zero, clampToLimit_of_within]
  exact (product.exponent_within query).of_natAbs_le (smaller _)

theorem mem_keys_mapExponents (smaller : ∀ number, (change number).natAbs ≤ number.natAbs)
    (member : key ∈ (product.mapExponents change).keys) : key ∈ product.keys := by
  rw [mem_keys, exponent_mapExponents_of_le product smaller] at member
  rw [mem_keys]
  intro zero
  rw [zero] at member
  have less := smaller 0
  omega

theorem mem_keys_erase {query : κ} :
    query ∈ (product.erase key).keys ↔ query ∈ product.keys ∧ query ≠ key := by
  rw [mem_keys, mem_keys]
  by_cases same : query = key
  · rw [same, exponent_erase_self]
    simp
  · rw [exponent_erase_of_ne product same]
    simp [same]

end PowerProduct

/-- What is put in place of the chosen variable where its exponent divides all others. -/
def solvedExponent (number other : Int) : Int := (-other).tdiv number

/-- What is put in place of the chosen variable besides a new one. -/
def reducedExponent (number other : Int) : Int := -(other / number)

theorem solvedExponent_le (number other : Int) :
    (solvedExponent number other).natAbs ≤ other.natAbs := by
  unfold solvedExponent
  rw [Int.natAbs_tdiv, Int.natAbs_neg]
  exact Nat.div_le_self _ _

theorem reducedExponent_le (number other : Int) :
    (reducedExponent number other).natAbs ≤ other.natAbs := by
  unfold reducedExponent
  rw [Int.natAbs_neg]
  exact Int.natAbs_ediv_le_natAbs other number

namespace UnitTerm

variable {ν : Type} [Ord ν] [Std.LawfulEqOrd ν] {unit : UnitTerm ν}

/-- Divisibility of the listed exponents is divisibility of all of them. -/
theorem dvd_exponents_iff {number : Int} :
    (∀ other ∈ unit.exponents, number ∣ other) ↔
      (∀ name, number ∣ unit.names.exponent name) ∧ ∀ var, number ∣ unit.vars.exponent var := by
  have listed {κ : Type} [Ord κ] [Std.LawfulEqOrd κ] (product : PowerProduct κ) :
      (∀ other ∈ product.toList.map Prod.snd, number ∣ other) ↔
        ∀ key, number ∣ product.exponent key := by
    constructor
    · intro divides key
      by_cases zero : product.exponent key = 0
      · rw [zero]
        exact dvd_zero number
      · exact divides _ (List.mem_map_of_mem (PowerProduct.mem_toList.mpr ⟨rfl, zero⟩))
    · intro divides other member
      obtain ⟨power, inside, rfl⟩ := List.mem_map.mp member
      rw [← (PowerProduct.mem_toList.mp inside).1]
      exact divides power.1
  unfold exponents
  rw [List.forall_mem_append, listed, listed]

variable [Std.TransOrd ν]

theorem mem_keys_erased {var next : ν} {change : Int → Int}
    (smaller : ∀ number, (change number).natAbs ≤ number.natAbs)
    (member : next ∈ ((unit.eraseVar var).mapExponents change).vars.keys) :
    next ∈ unit.vars.keys ∧ next ≠ var :=
  PowerProduct.mem_keys_erase.mp (PowerProduct.mem_keys_mapExponents smaller member)

end UnitTerm

namespace Unification

open Store

private theorem foldl_smallerPower (rest : List (UnitVar × Int)) (first : UnitVar × Int) :
    rest.foldl smallerPower first ∈ first :: rest ∧
      ∀ power ∈ first :: rest, (rest.foldl smallerPower first).2.natAbs ≤ power.2.natAbs := by
  induction rest generalizing first with
  | nil => simp
  | cons second rest ih =>
    have choice : smallerPower first second = first ∧ first.2.natAbs ≤ second.2.natAbs ∨
        smallerPower first second = second ∧ second.2.natAbs ≤ first.2.natAbs := by
      unfold smallerPower
      split
      next less => exact .inr ⟨rfl, Nat.le_of_lt less⟩
      next notLess => exact .inl ⟨rfl, Nat.le_of_not_lt notLess⟩
    obtain ⟨member, least⟩ := ih (smallerPower first second)
    rw [List.foldl_cons]
    have atMost := least _ (List.mem_cons_self ..)
    constructor
    · rcases List.mem_cons.mp member with same | later
      · rw [same]
        rcases choice with ⟨chosen, _⟩ | ⟨chosen, _⟩
        · rw [chosen]
          exact List.mem_cons_self ..
        · rw [chosen]
          exact List.mem_cons_of_mem _ (List.mem_cons_self ..)
      · exact List.mem_cons_of_mem _ (List.mem_cons_of_mem _ later)
    · intro power inside
      have leFirst : (rest.foldl smallerPower (smallerPower first second)).2.natAbs ≤
          first.2.natAbs := by
        rcases choice with ⟨chosen, _⟩ | ⟨chosen, less⟩
        · exact Nat.le_trans atMost (by rw [chosen])
        · exact Nat.le_trans atMost (by rwa [chosen])
      have leSecond : (rest.foldl smallerPower (smallerPower first second)).2.natAbs ≤
          second.2.natAbs := by
        rcases choice with ⟨chosen, less⟩ | ⟨chosen, _⟩
        · exact Nat.le_trans atMost (by rwa [chosen])
        · exact Nat.le_trans atMost (by rw [chosen])
      rcases List.mem_cons.mp inside with same | further
      · rw [same]
        exact leFirst
      · rcases List.mem_cons.mp further with same | later
        · rw [same]
          exact leSecond
        · exact least power (List.mem_cons_of_mem _ later)

/-- The chosen power is one of the powers, and none has a smaller exponent. -/
theorem pivot?_eq_some {powers : List (UnitVar × Int)} {chosen : UnitVar × Int}
    (found : pivot? powers = some chosen) :
    chosen ∈ powers ∧ ∀ power ∈ powers, chosen.2.natAbs ≤ power.2.natAbs := by
  cases powers with
  | nil => cases found
  | cons first rest =>
    rw [pivot?, Option.some.injEq] at found
    rw [← found]
    exact foldl_smallerPower rest first

variable {store : Store} {after : Store} {number : Int} {pruned quotient target unit : InferredUnit}
  {var : UnitVar}

theorem pruneUnitWithin_of_unbound (free : ∀ var ∈ unit.vars.keys, store.unitLink? var = none)
    (links : Nat) : pruneUnitWithin links unit store = (unit, store) := by
  have unbound : (unit.vars.keys.all fun var => !store.isUnitBound var) = true := by
    rw [List.all_eq_true]
    intro var member
    rw [isUnitBound, free var member]
    rfl
  cases links with
  | zero => rfl
  | succ links =>
    rw [pruneUnitWithin, state_get_bind_apply, if_pos unbound]
    rfl

theorem pruneUnit_of_unbound (free : ∀ var ∈ unit.vars.keys, store.unitLink? var = none) :
    pruneUnit unit store = (unit, store) :=
  pruneUnitWithin_of_unbound free (store.units.size + 1)

theorem linkUnit_apply (within : var.index < store.units.size) (free : store.unitLink? var = none)
    (target : InferredUnit) :
    linkUnit var target store = (.ok (), store.setUnit var (.link target)) := by
  have cell : store.units[var.index]? = some .unbound := by
    have present : store.units[var.index]? = some store.units[var.index] :=
      Array.getElem?_eq_some_iff.mpr ⟨within, rfl⟩
    cases found : store.units[var.index] with
    | unbound => rw [present, found]
    | link old =>
      rw [found] at present
      rw [unitLink?_eq_some.mpr present] at free
      cases free
  rw [linkUnit, get_bind_apply, cell]
  rfl

/-- Whether an unbound variable can be linked to a unit: all variables of the unit are unbound, and
it is not one of them. -/
structure Linkable (store : Store) (var : UnitVar) (target : InferredUnit) : Prop where
  within : var.index < store.units.size
  free : store.unitLink? var = none
  covered : store.CoversUnit target
  unbound : ∀ next ∈ target.vars.keys, store.unitLink? next = none
  absent : var ∉ target.vars.keys

theorem Linkable.step (linkable : Linkable store var target) (depth : Nat) :
    Solving depth store (store.setUnit var (.link target)) :=
  .bindUnit linkable.within linkable.free linkable.covered linkable.unbound linkable.absent

theorem Linkable.bindUnit_apply (linkable : Linkable store var target) :
    bindUnit var target store = (.ok (), store.setUnit var (.link target)) := by
  have missing : target.vars.contains var = false := by
    rw [Bool.eq_false_iff, ne_eq, PowerProduct.contains_iff, ← PowerProduct.mem_keys]
    exact linkable.absent
  unfold bindUnit
  rw [lift_bind_apply, pruneUnit_of_unbound linkable.unbound]
  simp only [missing]
  exact linkUnit_apply linkable.within linkable.free target

def solution (quotient : InferredUnit) (var : UnitVar) (number : Int) : InferredUnit :=
  (quotient.eraseVar var).mapExponents (solvedExponent number)

def reduction (store : Store) (quotient : InferredUnit) (var : UnitVar) (number : Int) :
    InferredUnit :=
  (UnitTerm.ofVar ⟨store.units.size⟩).multiply
    ((quotient.eraseVar var).mapExponents (reducedExponent number))

theorem mem_keys_reduction {next : UnitVar}
    (member : next ∈ (reduction store quotient var number).vars.keys) :
    next = ⟨store.units.size⟩ ∨ next ∈ quotient.vars.keys ∧ next ≠ var := by
  rcases PowerProduct.mem_keys_multiply member with new | old
  · exact .inl (mem_keys_ofVar new)
  · exact .inr (UnitTerm.mem_keys_erased (reducedExponent_le number) old)

section Links

variable {quotient : InferredUnit} {var : UnitVar} (covered : store.CoversUnit quotient)
  (free : ∀ var ∈ quotient.vars.keys, store.unitLink? var = none)
  (present : var ∈ quotient.vars.keys) (number : Int)

include covered free present

theorem linkable_solution : Linkable store var (solution quotient var number) := by
  have old {next : UnitVar} (member : next ∈ (solution quotient var number).vars.keys) :=
    UnitTerm.mem_keys_erased (solvedExponent_le number) member
  constructor
  · exact covered var present
  · exact free var present
  · exact fun next member => covered next (old member).1
  · exact fun next member => free next (old member).1
  · exact fun member => (old member).2 rfl

theorem linkable_reduction :
    Linkable store.withUnit var (reduction store quotient var number) := by
  have within := covered var present
  constructor
  · rw [units_size_withUnit]
    omega
  · rw [unitLink?_withUnit]
    exact free var present
  · intro next member
    rw [units_size_withUnit]
    rcases mem_keys_reduction member with same | ⟨inside, _⟩
    · rw [same]
      exact Nat.lt_succ_self _
    · exact Nat.lt_succ_of_lt (covered next inside)
  · intro next member
    rw [unitLink?_withUnit]
    rcases mem_keys_reduction member with same | ⟨inside, _⟩
    · rw [same]
      exact unitLink?_of_le (Nat.le_refl _)
    · exact free next inside
  · intro member
    rcases mem_keys_reduction member with same | ⟨_, different⟩
    · rw [same] at within
      exact Nat.lt_irrefl _ within
    · exact different rfl

end Links

theorem exponent_of_pivot (chosen : pivot? unit.vars.toList = some (var, number)) :
    unit.vars.exponent var = number ∧ number ≠ 0 :=
  PowerProduct.mem_toList.mp (pivot?_eq_some chosen).1

theorem mem_keys_of_pivot (chosen : pivot? unit.vars.toList = some (var, number)) :
    var ∈ unit.vars.keys := by
  obtain ⟨same, nonzero⟩ := exponent_of_pivot chosen
  rw [PowerProduct.mem_keys, same]
  exact nonzero

inductive Progress where
  | done (found : Bool)
  | more (quotient : InferredUnit)
deriving DecidableEq

def solveRound (quotient : InferredUnit) : Infer Progress := do
  let quotient ← pruneUnit quotient
  match pivot? quotient.vars.toList with
  | none => return .done quotient.isScalar
  | some (var, number) =>
    let rest := quotient.eraseVar var
    if rest.exponents.all fun other => other.tmod number == 0 then
      bindUnit var (rest.mapExponents fun other => (-other).tdiv number)
      return .done true
    if quotient.vars.size = 1 then return .done false
    let fresh ← freshUnitVar
    let reduced := rest.mapExponents fun other => -(other / number)
    bindUnit var ((UnitTerm.ofVar fresh).multiply reduced)
    return .more quotient

inductive Round (pruned : InferredUnit) (store : Store) :
    Except TypeError Progress × Store → Prop where
  | ground (none : pivot? pruned.vars.toList = none) :
      Round pruned store (.ok (.done pruned.isScalar), store)
  | solved {var : UnitVar} {number : Int}
      (chosen : pivot? pruned.vars.toList = some (var, number))
      (divides : ∀ other ∈ (pruned.eraseVar var).exponents, number ∣ other) :
      Round pruned store
        (.ok (.done true), store.setUnit var (.link (solution pruned var number)))
  | alone {var : UnitVar} {number : Int}
      (chosen : pivot? pruned.vars.toList = some (var, number))
      (indivisible : ¬∀ other ∈ (pruned.eraseVar var).exponents, number ∣ other)
      (single : pruned.vars.size = 1) : Round pruned store (.ok (.done false), store)
  | reduced {var : UnitVar} {number : Int}
      (chosen : pivot? pruned.vars.toList = some (var, number))
      (indivisible : ¬∀ other ∈ (pruned.eraseVar var).exponents, number ∣ other)
      (several : pruned.vars.size ≠ 1) :
      Round pruned store (.ok (.more pruned),
        store.withUnit.setUnit var (.link (reduction store pruned var number)))

theorem solveRound_round (done : pruneUnit quotient store = (pruned, after))
    (covered : after.CoversUnit pruned)
    (free : ∀ var ∈ pruned.vars.keys, after.unitLink? var = none) :
    Round pruned after (solveRound quotient store) := by
  rw [solveRound, lift_bind_apply, done]
  cases chosen : pivot? pruned.vars.toList with
  | none => exact .ground chosen
  | some power =>
    obtain ⟨var, number⟩ := power
    have divisible : ((pruned.eraseVar var).exponents.all fun other => other.tmod number == 0) =
        true ↔ ∀ other ∈ (pruned.eraseVar var).exponents, number ∣ other := by
      simp [List.all_eq_true, Int.dvd_iff_tmod_eq_zero]
    have present := mem_keys_of_pivot chosen
    by_cases divides : ∀ other ∈ (pruned.eraseVar var).exponents, number ∣ other
    · have target : ((pruned.eraseVar var).mapExponents fun other => (-other).tdiv number) =
          solution pruned var number := rfl
      simp only [divisible.mpr divides, if_true]
      rw [target, ok_bind_apply (linkable_solution covered free present number).bindUnit_apply]
      exact .solved chosen divides
    · simp only [mt divisible.mp divides, Bool.false_eq_true, if_false]
      by_cases single : pruned.vars.size = 1
      · simp only [single, if_true]
        exact .alone chosen divides single
      · simp only [single, if_false]
        have fresh : freshUnitVar after = (⟨after.units.size⟩, after.withUnit) := rfl
        have target : (UnitTerm.ofVar ⟨after.units.size⟩).multiply
            ((pruned.eraseVar var).mapExponents fun other => -(other / number)) =
              reduction after pruned var number := rfl
        rw [lift_bind_apply, fresh, target,
          ok_bind_apply (linkable_reduction covered free present number).bindUnit_apply]
        exact .reduced chosen divides single

theorem pruneUnit_reduced (wellformed : store.Wellformed) (covered : store.CoversUnit quotient)
    (done : pruneUnit quotient store = (pruned, after)) :
    store.Shortens after ∧ after.Reduced quotient pruned := by
  have pruning := (pruneUnit_agree wellformed covered pure (Nat.lt_succ_self _)).left
  have steps := pruning.steps
  have ends := pruning.ends
  rw [done] at steps ends
  exact ⟨steps, ends⟩

theorem extends_reduction (covered : store.CoversUnit quotient)
    (free : ∀ var ∈ quotient.vars.keys, store.unitLink? var = none)
    (chosen : pivot? quotient.vars.toList = some (var, number)) :
    store.Extends (store.withUnit.setUnit var (.link (reduction store quotient var number))) :=
  (Solving.freshUnit store : Solving 0 store store.withUnit).extends.trans
    ((linkable_reduction covered free (mem_keys_of_pivot chosen) number).step 0).extends

def solving (stop : InferredUnit → Infer Bool) : Nat → InferredUnit → Infer Bool
  | 0, quotient => stop quotient
  | rounds + 1, quotient => do
      match ← solveRound quotient with
      | .done found => return found
      | .more next => solving stop rounds next

theorem solveWithin_eq (rounds : Nat) :
    solveWithin rounds = solving (fun _ => return false) rounds := by
  induction rounds with
  | zero => rfl
  | succ rounds ih =>
    funext quotient
    rw [solveWithin, solving, solveRound, ih, bind_assoc]
    congr 1
    funext pruned
    cases pivot? pruned.vars.toList with
    | none => rfl
    | some power =>
      obtain ⟨var, number⟩ := power
      dsimp only
      by_cases divides :
          ((pruned.eraseVar var).exponents.all fun other => other.tmod number == 0) = true
      · rw [if_pos divides, if_pos divides, bind_assoc]
        rfl
      · rw [if_neg divides, if_neg divides]
        by_cases single : pruned.vars.size = 1
        · rw [if_pos single, if_pos single]
          rfl
        · rw [if_neg single, if_neg single, bind_assoc]
          congr 1
          funext fresh
          rw [bind_assoc]
          rfl

section Running

variable {stop : InferredUnit → Infer Bool} {quotient next : InferredUnit} {after : Store}
  {found : Bool}

theorem solving_of_done (ended : solveRound quotient store = (.ok (.done found), after))
    (rounds : Nat) : solving stop (rounds + 1) quotient store = (.ok found, after) :=
  ok_bind_apply ended _

theorem solving_of_more (continued : solveRound quotient store = (.ok (.more next), after))
    (rounds : Nat) :
    solving stop (rounds + 1) quotient store = solving stop rounds next after :=
  ok_bind_apply continued _

theorem solveWithin_of_done (ended : solveRound quotient store = (.ok (.done found), after))
    (rounds : Nat) : solveWithin (rounds + 1) quotient store = (.ok found, after) := by
  rw [solveWithin_eq]
  exact solving_of_done ended rounds

theorem solveWithin_of_more (continued : solveRound quotient store = (.ok (.more next), after))
    (rounds : Nat) :
    solveWithin (rounds + 1) quotient store = solveWithin rounds next after := by
  rw [solveWithin_eq, solveWithin_eq]
  exact solving_of_more continued rounds

end Running

end Unification

end SheetTypes
