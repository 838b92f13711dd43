import SheetTypes.Proofs.Store.Pruning
import SheetTypes.Proofs.Unification.Types

/-!
Unification with the sides exchanged. The two runs do the same with type variables. They link unit
variables differently and create other new ones, but the equations between units that were solved
on the way have the same solutions in both, so that the next one can be solved in both or in none.
-/

set_option autoImplicit false

namespace SheetTypes

namespace Store

variable {store first second : Store}

def withUnits (store : Store) (units : Array UnitCell) : Store := ⟨store.types, units, true⟩

def SolvesUnits (store : Store) (values : UnitVar → ExactUnit) : Prop :=
  ∀ var target, store.unitLink? var = some target → values var = target.value values

/-- Whether every solution for the units of a store is one for those of another store, with other
values for the variables from a given number on. -/
def Follows (count : Nat) (first second : Store) : Prop :=
  ∀ values, first.SolvesUnits values → ∃ others, second.SolvesUnits others ∧
    ∀ var, var.index < count → others var = values var

theorem Follows.refl (count : Nat) (store : Store) : Follows count store store :=
  fun values solves => ⟨values, solves, fun _ _ => rfl⟩

theorem Wellformed.exists_solvesUnits (wellformed : store.Wellformed) :
    ∃ values, store.SolvesUnits values :=
  ⟨_, (wellformed.extend_satisfies (⟨fun _ => .text, fun _ => 0⟩ : Assignment)).units⟩

theorem Wellformed.withoutTypes (wellformed : store.Wellformed) :
    (store.withTypes #[]).Wellformed := by
  refine ⟨fun var target linked => ?_, wellformed.unitsCovered, empty_wellformed.typesRanked,
    wellformed.unitsRanked⟩
  cases linked

theorem isSolution_withoutTypes {assignment : Assignment} :
    assignment.IsSolution (store.withTypes #[]) ↔ store.SolvesUnits assignment.units := by
  constructor
  · exact fun solution => solution.links.units
  · refine fun solves => ⟨⟨fun var target linked => ?_, solves⟩, fun var requirements found => ?_⟩
    · cases linked
    · cases found

end Store

namespace Unification

open Store

variable {store first second after : Store} {depth levels count : Nat}

section Units

variable {left right : InferredUnit} (registry : Option Registry) (wellformed : store.Wellformed)
  (leftCovered : store.CoversUnit left) (rightCovered : store.CoversUnit right)
  {values : UnitVar → ExactUnit}

include wellformed leftCovered rightCovered

private theorem unifyUnits_withoutTypes :
    Solves 0 (store.withTypes #[]) (unifyUnits registry left right)
      (fun assignment => assignment.unit left = assignment.unit right)
      fun _ after => after.UnitsAgree left right :=
  unifyUnits_solves 0 registry wellformed.withoutTypes leftCovered rightCovered

theorem unifyUnits_sound (unified : ∃ value, (unifyUnits registry left right store).1 = .ok value)
    (exact : (unifyUnits registry left right store).2.exact = true)
    (solves : (unifyUnits registry left right store).2.SolvesUnits values) :
    store.SolvesUnits values ∧ left.value values = right.value values := by
  have yields := (unifyUnits_withoutTypes registry wellformed leftCovered rightCovered).yields
  have steps := yields.steps
  have ends := yields.ends
  obtain ⟨value, done⟩ := unified
  rw [unifyUnits_withTypes] at steps ends
  rw [done] at ends
  let assignment : Assignment := ⟨fun _ => .text, values⟩
  have solution :
      assignment.IsSolution ((unifyUnits registry left right store).2.withTypes #[]) :=
    isSolution_withoutTypes.mpr solves
  have before := (Solving.run_extends steps).satisfies wellformed.withoutTypes assignment
    (.inr exact) solution.links
  exact ⟨before.units, ends assignment (.inr exact) solution.links⟩

theorem unifyUnits_complete (exact : (unifyUnits registry left right store).2.exact = true)
    (solves : store.SolvesUnits values) (same : left.value values = right.value values) :
    (∃ value, (unifyUnits registry left right store).1 = .ok value) ∧
      ∃ later, (unifyUnits registry left right store).2.SolvesUnits later ∧
        ∀ var, var.index < store.units.size → later var = values var := by
  have keeps := (unifyUnits_withoutTypes registry wellformed leftCovered rightCovered).keeps
    ⟨fun _ => .text, values⟩ (isSolution_withoutTypes.mpr solves) same
  rw [unifyUnits_withTypes] at keeps
  obtain ⟨value, later, done, solution, continues⟩ := keeps exact
  exact ⟨⟨value, done⟩, later.units, isSolution_withoutTypes.mp solution, continues.units⟩

end Units

/-! ### Two runs -/

/-- What holds of a store on the way from another one: its types still mention no other variables
than those of the start. -/
structure Grown (start : Store) (depth : Nat) (store : Store) : Prop where
  bounded : store.Bounded depth
  origin : (store.withUnits start.units).Bounded depth
  typeCount : store.types.size = start.types.size
  unitCount : start.units.size ≤ store.units.size

/-- What holds of the stores of two runs that are to have the same outcome. -/
structure Abreast (start : Store) (depth : Nat) (first second : Store) : Prop where
  types : second.types = first.types
  left : Grown start depth first
  right : Grown start depth second
  forth : Follows start.units.size first second
  back : Follows start.units.size second first

/-- Whether two runs have the same outcome, unless an exponent has stopped at the limit. -/
def Together {α : Type} (start : Store) (depth : Nat)
    (left right : Except TypeError α × Store) : Prop :=
  left.2.exact = true → right.2.exact = true →
    ((∃ error, left.1 = .error error) ∧ ∃ error, right.1 = .error error) ∨
    ((∃ value, left.1 = .ok value) ∧ (∃ value, right.1 = .ok value) ∧
      Abreast start depth left.2 right.2)

variable {start : Store} {α β : Type} {left right : InferredUnit}

namespace Grown

theorem run (grown : Grown start depth store)
    (steps : Relation.ReflTransGen (Solving depth) store after)
    (originSteps : Relation.ReflTransGen (Solving depth) (store.withUnits start.units)
      (after.withUnits start.units)) : Grown start depth after where
  bounded := grown.bounded.run steps
  origin := grown.origin.run originSteps
  typeCount := (Solving.run_typeCount steps).trans grown.typeCount
  unitCount := Nat.le_trans grown.unitCount (Solving.run_extends steps).unitCount

theorem withUnits (grown : Grown start depth store) :
    Grown start depth (store.withUnits start.units) :=
  ⟨grown.origin, grown.origin, grown.typeCount, Nat.le_refl _⟩

variable {type : InferredType}

theorem fits (grown : Grown start depth store) (fits : start.Fits depth type) :
    store.Fits depth type := by
  refine ⟨⟨fun var has => ?_, fun unit has var member => ?_⟩, fits.shallow⟩
  · rw [grown.typeCount]
    exact fits.covered.1 var has
  · exact Nat.lt_of_lt_of_le (fits.covered.2 unit has var member) grown.unitCount

theorem fits_start (grown : Grown start depth store)
    (fits : (store.withUnits start.units).Fits depth type) : start.Fits depth type := by
  refine ⟨⟨fun var has => ?_, fits.covered.2⟩, fits.shallow⟩
  rw [← grown.typeCount]
  exact fits.covered.1 var has

theorem coversUnit (grown : Grown start depth store) {unit : InferredUnit}
    (covered : start.CoversUnit unit) : store.CoversUnit unit :=
  fun var member => Nat.lt_of_lt_of_le (covered var member) grown.unitCount

theorem equationFits (grown : Grown start depth store) {equation : Equation}
    (fits : equation.Fits start depth) : equation.Fits store depth := by
  cases equation with
  | types left right => exact ⟨grown.fits fits.1, grown.fits fits.2⟩
  | units left right => exact ⟨grown.coversUnit fits.1, grown.coversUnit fits.2⟩
  | clash => trivial

theorem unifyUnits_steps (grown : Grown start depth store) (registry : Option Registry)
    (leftCovered : start.CoversUnit left) (rightCovered : start.CoversUnit right) :
    Relation.ReflTransGen (Solving depth) store (unifyUnits registry left right store).2 :=
  (unifyUnits_solves depth registry grown.bounded.wellformed (grown.coversUnit leftCovered)
    (grown.coversUnit rightCovered)).yields.steps

theorem unifyWithin_steps (grown : Grown start depth store) (registry : Option Registry)
    (levels : Nat) {left right : InferredType} (leftFits : start.Fits depth left)
    (rightFits : start.Fits depth right) :
    Relation.ReflTransGen (Solving depth) store (unifyWithin registry levels left right store).2 :=
  (unifyWithin_solves registry depth levels grown.bounded (grown.fits leftFits)
    (grown.fits rightFits)).yields.steps

end Grown

namespace Together

theorem fail {left right : Except TypeError α × Store} (leftFails : ∃ error, left.1 = .error error)
    (rightFails : ∃ error, right.1 = .error error) : Together start depth left right :=
  fun _ _ => .inl ⟨leftFails, rightFails⟩

variable {action : Infer α} {other value : α}

theorem ok (abreast : Abreast start depth first second) :
    Together start depth (.ok value, first) (.ok other, second) :=
  fun _ _ => .inr ⟨⟨value, rfl⟩, ⟨other, rfl⟩, abreast⟩

theorem succeeds_iff {left right : Except TypeError α × Store}
    (together : Together start depth left right) (exact : left.2.exact = true)
    (otherExact : right.2.exact = true) :
    (∃ value, left.1 = .ok value) ↔ ∃ value, right.1 = .ok value := by
  rcases together exact otherExact with ⟨⟨_, failed⟩, ⟨_, otherFailed⟩⟩ | ⟨done, otherDone, _⟩
  · simp [failed, otherFailed]
  · exact iff_of_true done otherDone

theorem abreast (together : Together start depth (.ok value, first) (.ok other, second))
    (exact : first.exact = true) (otherExact : second.exact = true) :
    Abreast start depth first second := by
  rcases together exact otherExact with ⟨⟨_, impossible⟩, _⟩ | ⟨_, _, abreast⟩
  · cases impossible
  · exact abreast

/-- Runs that go on after runs with the same outcome. -/
theorem andThen {other : Infer α} {next otherNext : α → Infer β}
    (begins : Together start depth (action first) (other second))
    (leftExact : ∀ value, (next value (action first).2).2.exact = true →
      (action first).2.exact = true)
    (rightExact : ∀ value, (otherNext value (other second).2).2.exact = true →
      (other second).2.exact = true)
    (rest : ∀ value otherValue, Abreast start depth (action first).2 (other second).2 →
      Together start depth (next value (action first).2) (otherNext otherValue (other second).2)) :
    Together start depth ((action >>= next : Infer β) first)
      ((other >>= otherNext : Infer β) second) := by
  generalize leftRun : action first = left at begins leftExact rest
  generalize rightRun : other second = right at begins rightExact rest
  obtain ⟨leftFound, leftAfter⟩ := left
  obtain ⟨rightFound, rightAfter⟩ := right
  cases leftFound with
  | error leftError =>
    rw [error_bind_apply leftRun]
    cases rightFound with
    | error rightError =>
      rw [error_bind_apply rightRun]
      exact .fail ⟨_, rfl⟩ ⟨_, rfl⟩
    | ok rightValue =>
      rw [ok_bind_apply rightRun]
      -- One run goes on while the other has failed: exact runs succeed together, so this cannot be.
      intro exact otherExact
      obtain ⟨_, impossible⟩ :=
        (begins.succeeds_iff exact (rightExact rightValue otherExact)).mpr ⟨_, rfl⟩
      cases impossible
  | ok leftValue =>
    rw [ok_bind_apply leftRun]
    cases rightFound with
    | error rightError =>
      rw [error_bind_apply rightRun]
      intro exact otherExact
      obtain ⟨_, impossible⟩ :=
        (begins.succeeds_iff (leftExact leftValue exact) otherExact).mp ⟨_, rfl⟩
      cases impossible
    | ok rightValue =>
      rw [ok_bind_apply rightRun]
      intro exact otherExact
      have along :=
        begins.abreast (leftExact leftValue exact) (rightExact rightValue otherExact)
      exact rest leftValue rightValue along exact otherExact

/-- Runs that replace their errors by others. -/
theorem rethrow {other : Infer α} {handle otherHandle : TypeError → Infer α}
    (begins : Together start depth (action first) (other second))
    (leftFails : ∀ error, ∃ shown, (handle error (action first).2).1 = .error shown)
    (leftExact : ∀ error, (handle error (action first).2).2.exact = true →
      (action first).2.exact = true)
    (rightFails : ∀ error, ∃ shown, (otherHandle error (other second).2).1 = .error shown)
    (rightExact : ∀ error, (otherHandle error (other second).2).2.exact = true →
      (other second).2.exact = true) :
    Together start depth ((tryCatch action handle : Infer α) first)
      ((tryCatch other otherHandle : Infer α) second) := by
  generalize leftRun : action first = left at begins leftFails leftExact
  generalize rightRun : other second = right at begins rightFails rightExact
  obtain ⟨leftFound, leftAfter⟩ := left
  obtain ⟨rightFound, rightAfter⟩ := right
  cases leftFound with
  | error leftError =>
    rw [error_tryCatch_apply leftRun]
    cases rightFound with
    | error rightError =>
      rw [error_tryCatch_apply rightRun]
      exact .fail (leftFails leftError) (rightFails rightError)
    | ok rightValue =>
      rw [ok_tryCatch_apply rightRun]
      intro exact otherExact
      obtain ⟨_, impossible⟩ :=
        (begins.succeeds_iff (leftExact leftError exact) otherExact).mpr ⟨_, rfl⟩
      cases impossible
  | ok leftValue =>
    rw [ok_tryCatch_apply leftRun]
    cases rightFound with
    | error rightError =>
      rw [error_tryCatch_apply rightRun]
      intro exact otherExact
      obtain ⟨_, impossible⟩ :=
        (begins.succeeds_iff exact (rightExact rightError otherExact)).mp ⟨_, rfl⟩
      cases impossible
    | ok rightValue =>
      rw [ok_tryCatch_apply rightRun]
      exact begins

end Together

theorem Abreast.withTypes (abreast : Abreast start depth first second) {later : Array TypeCell}
    (steps : ∀ store, store.types = first.types → Grown start depth store →
      Relation.ReflTransGen (Solving depth) store (store.withTypes later)) :
    Abreast start depth (first.withTypes later) (second.withTypes later) := by
  have grows (store : Store) (same : store.types = first.types) (grown : Grown start depth store) :
      Grown start depth (store.withTypes later) :=
    grown.run (steps store same grown) (steps (store.withUnits start.units) same grown.withUnits)
  exact ⟨rfl, grows first rfl abreast.left, grows second abreast.types abreast.right,
    abreast.forth, abreast.back⟩

/-- The type variables of both runs are the same, and so is what they decide. -/
theorem Abreast.decided {action : Infer α} (abreast : Abreast start depth first second)
    (decided : DecidedByTypes action)
    (steps : ∀ store, store.types = first.types → Grown start depth store →
      Relation.ReflTransGen (Solving depth) store (action store).2) :
    Together start depth (action first) (action second) := by
  rcases decided.runs first.types with ⟨value, later, runs⟩ | fails
  · rw [runs first rfl, runs second abreast.types]
    refine .ok (abreast.withTypes fun store same grown => ?_)
    have made := steps store same grown
    rw [runs store same] at made
    exact made
  · exact .fail (fails first rfl) (fails second abreast.types)

private theorem unifyUnits_follows (registry : Option Registry) (grown : Grown start depth first)
    (otherGrown : Grown start depth second) (follows : Follows start.units.size first second)
    (leftCovered : start.CoversUnit left) (rightCovered : start.CoversUnit right)
    (exact : (unifyUnits registry left right first).2.exact = true)
    (otherExact : (unifyUnits registry right left second).2.exact = true)
    (unified : ∃ value, (unifyUnits registry left right first).1 = .ok value) :
    (∃ value, (unifyUnits registry right left second).1 = .ok value) ∧
      Follows start.units.size (unifyUnits registry left right first).2
        (unifyUnits registry right left second).2 := by
  have leftHere := grown.coversUnit leftCovered
  have rightHere := grown.coversUnit rightCovered
  have wellformed := grown.bounded.wellformed
  have transfers (values : UnitVar → ExactUnit)
      (solves : (unifyUnits registry left right first).2.SolvesUnits values) :
      (∃ value, (unifyUnits registry right left second).1 = .ok value) ∧
        ∃ later, (unifyUnits registry right left second).2.SolvesUnits later ∧
          ∀ var, var.index < start.units.size → later var = values var := by
    obtain ⟨before, same⟩ :=
      unifyUnits_sound registry wellformed leftHere rightHere unified exact solves
    obtain ⟨others, solvesOthers, agree⟩ := follows values before
    have kept {unit : InferredUnit} (covered : start.CoversUnit unit) :
        unit.value others = unit.value values :=
      UnitTerm.value_congr unit fun var member => agree var (covered var member)
    have exchanged : right.value others = left.value others := by
      rw [kept leftCovered, kept rightCovered, same]
    obtain ⟨done, later, solvesLater, continues⟩ := unifyUnits_complete registry
      otherGrown.bounded.wellformed (otherGrown.coversUnit rightCovered)
      (otherGrown.coversUnit leftCovered) otherExact solvesOthers exchanged
    refine ⟨done, later, solvesLater, fun var inside => ?_⟩
    rw [continues var (Nat.lt_of_lt_of_le inside otherGrown.unitCount), agree var inside]
  have steps := grown.unifyUnits_steps registry leftCovered rightCovered
  obtain ⟨values, solves⟩ :=
    ((Solving.run_extends steps).wellformed wellformed).exists_solvesUnits
  exact ⟨(transfers values solves).1, fun values solves => (transfers values solves).2⟩

private theorem unifyUnits_grown (registry : Option Registry) (grown : Grown start depth store)
    (leftCovered : start.CoversUnit left) (rightCovered : start.CoversUnit right) :
    Grown start depth (unifyUnits registry left right store).2 := by
  refine grown.run (grown.unifyUnits_steps registry leftCovered rightCovered) ?_
  unfold withUnits
  rw [unifyUnits_types]

theorem unifyUnits_together (registry : Option Registry)
    (abreast : Abreast start depth first second) (leftCovered : start.CoversUnit left)
    (rightCovered : start.CoversUnit right) :
    Together start depth (unifyUnits registry left right first)
      (unifyUnits registry right left second) := by
  intro exact otherExact
  have forth := unifyUnits_follows registry abreast.left abreast.right abreast.forth leftCovered
    rightCovered exact otherExact
  have back := unifyUnits_follows registry abreast.right abreast.left abreast.back rightCovered
    leftCovered otherExact exact
  cases leftRun : (unifyUnits registry left right first).1 with
  | error leftError =>
    cases rightRun : (unifyUnits registry right left second).1 with
    | error rightError => exact .inl ⟨⟨_, rfl⟩, ⟨_, rfl⟩⟩
    | ok value =>
      obtain ⟨⟨_, impossible⟩, _⟩ := back ⟨value, rightRun⟩
      rw [leftRun] at impossible
      cases impossible
  | ok value =>
    obtain ⟨done, follows⟩ := forth ⟨value, leftRun⟩
    refine .inr ⟨⟨_, rfl⟩, done, ?_⟩
    constructor
    · rw [unifyUnits_types, unifyUnits_types]
      exact abreast.types
    · exact unifyUnits_grown registry abreast.left leftCovered rightCovered
    · exact unifyUnits_grown registry abreast.right rightCovered leftCovered
    · exact follows
    · exact (back done).2

private theorem prune_together {next otherNext : InferredType → Infer α}
    (abreast : Abreast start depth first second) {type : InferredType}
    (fits : start.Fits depth type)
    (rest : ∀ result later, Abreast start depth (first.withTypes later) (second.withTypes later) →
      start.Fits depth result →
      (∀ last, result = .var last → (first.withTypes later).typeLink? last = none) →
      (∀ var, first.typeLink? var = none → (first.withTypes later).typeLink? var = none) →
        Together start depth (next result (first.withTypes later))
          (otherNext result (second.withTypes later))) :
    Together start depth ((liftM (prune type) >>= next : Infer α) first)
      ((liftM (prune type) >>= otherNext : Infer α) second) := by
  obtain ⟨result, later, runs⟩ := (prune_onTypes type).runs first.types
  rw [lift_bind_apply, lift_bind_apply, runs first rfl, runs second abreast.types]
  have along : Abreast start depth (first.withTypes later) (second.withTypes later) := by
    refine abreast.withTypes fun store same grown => ?_
    have made := Shortens.solving (prune_yields grown.bounded.wellformed type).steps depth
    rw [runs store same] at made
    exact made
  have pruned := prune_yields abreast.left.origin.wellformed type
  have settled := Shortens.settled pruned.steps
  obtain ⟨reaches, free⟩ := pruned.ends
  rw [runs (first.withUnits start.units) rfl] at settled reaches free
  have inside := (along.left.withUnits.fits fits).reaches along.left.origin reaches
  exact rest result later along (along.left.fits_start inside) free
    fun var unbound => settled.typeLink?_none.mpr unbound

private theorem prune_swap {next : InferredType → InferredType → Infer α}
    (wellformed : store.Wellformed) (left right : InferredType) :
    (do let leftEnd ← prune left
        let rightEnd ← prune right
        next leftEnd rightEnd : Infer α) store =
      (do let rightEnd ← prune right
          let leftEnd ← prune left
          next leftEnd rightEnd : Infer α) store := by
  simp only [lift_bind_apply]
  rw [prune_comm wellformed left right, prune_comm wellformed right left]

theorem mergeVars_comm {left right : TypeVar} (different : left ≠ right) :
    mergeVars left right = mergeVars right left := by
  have indices : left.index ≠ right.index := by
    intro same
    apply different
    cases left
    cases right
    cases same
    rfl
  unfold mergeVars
  by_cases less : left.index < right.index
  · rw [if_pos less, if_neg (Nat.lt_asymm less)]
  · rw [if_neg less, if_pos (by omega)]

private theorem mismatch_fails (left right : InferredType) :
    ∃ error, (mismatch left right store : Except TypeError α × Store).1 = .error error :=
  ⟨_, rfl⟩

private theorem fits_swap {equation : Equation} (fits : equation.Fits start depth) :
    equation.swap.Fits start depth := by
  cases equation with
  | types left right => exact ⟨fits.2, fits.1⟩
  | units left right => exact ⟨fits.2, fits.1⟩
  | clash => trivial

section Levels

variable {registry : Option Registry} {left right : InferredType} {equations : List Equation}
  {var : TypeVar}

private theorem solveEquations_exact (grown : Grown start depth store)
    (steps : Relation.ReflTransGen (Solving depth) store after)
    (fits : ∀ equation ∈ equations, equation.Fits start depth)
    (exact : (solveEquations registry (unifyWithin registry levels) left right equations
      after).2.exact = true) : after.exact = true := by
  have solves := solveEquations_solves registry left right
    (fun bounded firstFits secondFits =>
      (unifyWithin_solves registry depth levels bounded firstFits secondFits).mono_post
        fun _ _ _ unified => unified.sides)
    (grown.bounded.run steps)
    fun equation member => (grown.equationFits (fits equation member)).run steps
  exact (Solving.run_extends solves.yields.steps).exact exact

def Symmetric (registry : Option Registry) (start : Store) (depth levels : Nat) : Prop :=
  ∀ ⦃first second left right⦄, Abreast start depth first second → start.Fits depth left →
    start.Fits depth right → Together start depth (unifyWithin registry levels left right first)
      (unifyWithin registry levels right left second)

theorem solveEquations_together (recursion : Symmetric registry start depth levels)
    (abreast : Abreast start depth first second)
    (fits : ∀ equation ∈ equations, equation.Fits start depth) :
    Together start depth
      (solveEquations registry (unifyWithin registry levels) left right equations first)
      (solveEquations registry (unifyWithin registry levels) right left
        (equations.map Equation.swap) second) := by
  induction equations generalizing first second with
  | nil => exact .ok abreast
  | cons equation equations ih =>
    obtain ⟨here, others⟩ := List.forall_mem_cons.mp fits
    have swapped : ∀ other ∈ equations.map Equation.swap, other.Fits start depth := by
      intro other member
      obtain ⟨equation, inside, rfl⟩ := List.mem_map.mp member
      exact fits_swap (others equation inside)
    have goesOn {γ : Type} {action other : Infer γ}
        (begins : Together start depth (action first) (other second))
        (leftSteps : Relation.ReflTransGen (Solving depth) first (action first).2)
        (rightSteps : Relation.ReflTransGen (Solving depth) second (other second).2) :
        Together start depth
          ((action >>= fun _ =>
            solveEquations registry (unifyWithin registry levels) left right equations :
              Infer Unit) first)
          ((other >>= fun _ => solveEquations registry (unifyWithin registry levels) right left
            (equations.map Equation.swap) : Infer Unit) second) :=
      begins.andThen
        (fun _ => solveEquations_exact abreast.left leftSteps others)
        (fun _ => solveEquations_exact abreast.right rightSteps swapped)
        fun _ _ along => ih along others
    rw [List.map_cons]
    cases equation with
    | types child otherChild =>
      rw [Equation.swap, solveEquations, solveEquations, discard_bind, discard_bind]
      exact goesOn (recursion abreast here.1 here.2)
        (abreast.left.unifyWithin_steps registry levels here.1 here.2)
        (abreast.right.unifyWithin_steps registry levels here.2 here.1)
    | units unit otherUnit =>
      rw [Equation.swap, solveEquations, solveEquations]
      exact goesOn (unifyUnits_together registry abreast here.1 here.2)
        (abreast.left.unifyUnits_steps registry here.1 here.2)
        (abreast.right.unifyUnits_steps registry here.2 here.1)
    | clash => exact .fail (mismatch_fails left right) (mismatch_fails right left)

private theorem bindVar_together {type : InferredType}
    (abreast : Abreast start depth first second) {requirements : Requirements}
    (found : first.requirements? var = some requirements) (fits : start.Fits depth type)
    (compound : type.isVar = false) :
    Together start depth (bindVar var type first) (bindVar var type second) := by
  refine abreast.decided (compositional_decidedByTypes.bindVar var type) fun store same grown => ?_
  have here := (requirements?_of_types same var).trans found
  exact (bindVar_solves grown.bounded here (grown.fits fits) compound).yields.steps

private theorem mergeVars_together {other : TypeVar} (abreast : Abreast start depth first second)
    {required otherRequired : Requirements} (positive : 0 < depth)
    (found : first.requirements? var = some required)
    (otherFound : first.requirements? other = some otherRequired) (different : var ≠ other) :
    Together start depth (mergeVars var other first) (mergeVars other var second) := by
  rw [mergeVars_comm different.symm]
  refine abreast.decided (compositional_decidedByTypes.mergeVars var other)
    fun store same grown => ?_
  have here := (requirements?_of_types same var).trans found
  have otherHere := (requirements?_of_types same other).trans otherFound
  exact (mergeVars_solves grown.bounded positive here otherHere different).yields.steps

private theorem unifyShapes_together (recursion : Symmetric registry start depth levels)
    (abreast : Abreast start depth first second) (leftFits : start.Fits depth left)
    (rightFits : start.Fits depth right) (leftCompound : left.isVar = false)
    (rightCompound : right.isVar = false) :
    Together start depth (unifyPruned registry levels left right first)
      (unifyPruned registry levels right left second) := by
  rw [unifyPruned_compound registry levels leftCompound rightCompound,
    unifyPruned_compound registry levels rightCompound leftCompound, decompose_swap left right]
  cases found : decompose left right with
  | none => exact .fail (mismatch_fails left right) (mismatch_fails right left)
  | some equations =>
    have fits (equation : Equation) (member : equation ∈ equations) :=
      fits_of_among (among_of_decompose found equation member) leftFits rightFits
    exact (solveEquations_together recursion abreast fits).andThen
      (fun _ exact => exact) (fun _ exact => exact) fun _ _ along => .ok along

private theorem unifyPruned_together (recursion : Symmetric registry start depth levels)
    (abreast : Abreast start depth first second) (leftFits : start.Fits depth left)
    (rightFits : start.Fits depth right)
    (leftFree : ∀ var, left = .var var → first.typeLink? var = none)
    (rightFree : ∀ var, right = .var var → first.typeLink? var = none) :
    Together start depth (unifyPruned registry levels left right first)
      (unifyPruned registry levels right left second) := by
  have positive : 0 < depth := Nat.lt_of_lt_of_le left.depth_pos leftFits.shallow
  have required {var : TypeVar} (fits : start.Fits depth (.var var))
      (free : first.typeLink? var = none) :=
    exists_requirements (covers_var.mp (abreast.left.fits fits).covered) free
  rcases left.var_or_compound with ⟨leftVar, rfl⟩ | leftCompound
  · obtain ⟨leftRequired, leftFound⟩ := required leftFits (leftFree leftVar rfl)
    rcases right.var_or_compound with ⟨rightVar, rfl⟩ | rightCompound
    · obtain ⟨rightRequired, rightFound⟩ := required rightFits (rightFree rightVar rfl)
      rw [unifyPruned, unifyPruned]
      by_cases same : leftVar = rightVar
      · rw [if_pos same, if_pos same.symm]
        exact .ok abreast
      · rw [if_neg same, if_neg (Ne.symm same)]
        exact mergeVars_together abreast positive leftFound rightFound same
    · rw [unifyPruned_var_left registry levels leftVar rightCompound,
        unifyPruned_var_right registry levels leftVar rightCompound]
      exact bindVar_together abreast leftFound rightFits rightCompound
  · rcases right.var_or_compound with ⟨rightVar, rfl⟩ | rightCompound
    · obtain ⟨rightRequired, rightFound⟩ := required rightFits (rightFree rightVar rfl)
      rw [unifyPruned_var_right registry levels rightVar leftCompound,
        unifyPruned_var_left registry levels rightVar leftCompound]
      exact bindVar_together abreast rightFound leftFits leftCompound
    · exact unifyShapes_together recursion abreast leftFits rightFits leftCompound rightCompound

end Levels

theorem unifyWithin_symmetric (registry : Option Registry) (start : Store) (depth levels : Nat) :
    Symmetric registry start depth levels := by
  induction levels with
  | zero =>
    intro first second left right _ _ _
    exact .fail (mismatch_fails left right) (mismatch_fails right left)
  | succ levels ih =>
    intro first second left right abreast leftFits rightFits
    rw [unifyWithin_succ, unifyWithin_succ, prune_swap abreast.left.bounded.wellformed]
    refine prune_together abreast rightFits
      fun rightEnd middle along rightInside rightFree _ => ?_
    refine prune_together along leftFits fun leftEnd last further leftInside leftFree kept => ?_
    exact unifyPruned_together ih further leftInside rightInside leftFree fun var same =>
      kept var (rightFree var same)

theorem unificationLevels_comm (store : Store) (left right : InferredType) :
    unificationLevels store left right = unificationLevels store right left := by
  unfold unificationLevels
  rw [Nat.add_comm left.depth]

private theorem rethrow_exact (registry : Option Registry) {left right : InferredType}
    (bounded : start.Bounded depth) (leftFits : start.Fits depth left)
    (rightFits : start.Fits depth right) (levels : Nat) (error : TypeError)
    (exact : ((do
      let outer ← render left
      let other ← render right
      throw (error.withContext outer other) : Infer InferredType)
        (unifyWithin registry levels left right start).2).2.exact = true) :
    (unifyWithin registry levels left right start).2.exact = true := by
  have steps := (unifyWithin_solves registry depth levels bounded leftFits rightFits).yields.steps
  generalize (unifyWithin registry levels left right start).2 = failed at steps exact
  have wellformed := (bounded.run steps).wellformed
  have settled := Shortens.settled (render_yields wellformed left).steps
  have second := render_yields (settled.wellformed wellformed) right
  exact settled.exact ((Shortens.settled second.steps).exact exact)

theorem unify_together (registry : Option Registry) {left right : InferredType}
    (wellformed : start.Wellformed) (exact : start.exact = true)
    (leftCovered : start.Covers left) (rightCovered : start.Covers right) :
    Together start (left.depth + right.depth + linkDepths start) (unify registry left right start)
      (unify registry right left start) := by
  have bounded := bounded_linkDepths wellformed (left.depth + right.depth)
  have leftFits : start.Fits (left.depth + right.depth + linkDepths start) left :=
    ⟨leftCovered, by omega⟩
  have rightFits : start.Fits (left.depth + right.depth + linkDepths start) right :=
    ⟨rightCovered, by omega⟩
  have same : start.withUnits start.units = start := by
    unfold withUnits
    rw [← exact]
  have grown : Grown start (left.depth + right.depth + linkDepths start) start :=
    ⟨bounded, by rwa [same], rfl, Nat.le_refl _⟩
  have abreast : Abreast start (left.depth + right.depth + linkDepths start) start start :=
    ⟨rfl, grown, grown, .refl _ start, .refl _ start⟩
  unfold unify
  rw [get_bind_apply, get_bind_apply, ← unificationLevels_comm start left right]
  exact (unifyWithin_symmetric registry start _ _ abreast leftFits rightFits).rethrow
    (fun _ => ⟨_, rfl⟩) (rethrow_exact registry bounded leftFits rightFits _)
    (fun _ => ⟨_, rfl⟩) (rethrow_exact registry bounded rightFits leftFits _)

end Unification

end SheetTypes
