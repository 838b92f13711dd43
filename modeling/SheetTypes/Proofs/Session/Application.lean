import SheetTypes.Proofs.Session.Reachability
import SheetTypes.Proofs.Unification.Spare

/-!
Applying functions. A function that is known is applied by unifying its parameters with the
arguments, pair by pair. That comes to the same as unifying the function with one from the arguments
to a new variable: until the results are compared, the variable is spare, and then it is linked to
the result.
-/

set_option autoImplicit false

namespace SheetTypes

section Alias

open Store

variable {store : Store} {readout : Readout} {target type : InferredType} {var : TypeVar}

theorem Store.typeLink?_withAlias_self (store : Store) (target : InferredType) :
    (store.withAlias target).typeLink? store.spare = some target :=
  typeLink?_eq_some.mpr Array.getElem?_push_size

theorem Store.getElem?_withAlias (different : var ≠ store.spare) :
    (store.withAlias target).types[var.index]? = store.types[var.index]? := by
  have apart : var.index ≠ store.types.size := fun same => different (congrArg TypeVar.mk same)
  unfold withAlias
  rw [Array.getElem?_push, if_neg apart]

theorem Store.typeLink?_withAlias (different : var ≠ store.spare) :
    (store.withAlias target).typeLink? var = store.typeLink? var := by
  unfold typeLink?
  rw [getElem?_withAlias different]

theorem Store.requirements?_withAlias (different : var ≠ store.spare) :
    (store.withAlias target).requirements? var = store.requirements? var := by
  unfold requirements?
  rw [getElem?_withAlias different]

theorem Store.Covers.ne_spare (covered : store.Covers type) (has : type.HasVar var) :
    var ≠ store.spare := by
  intro same
  have within := covered.1 var has
  rw [same] at within
  exact Nat.lt_irrefl _ within

def Readout.withAlias (readout : Readout) (name : TypeVar) (value : InferredType) : Readout :=
  ⟨fun var => if var = name then value else readout.types var, readout.units⟩

theorem Readout.type_withAlias (covered : store.Covers type) (value : InferredType) :
    (readout.withAlias store.spare value).type type = readout.type type :=
  type_congr type (fun _ has => if_neg (covered.ne_spare has)) fun _ _ _ _ => rfl

theorem Readout.Reads.withAlias (reads : readout.Reads store) (wellformed : store.Wellformed)
    (covered : store.Covers target) :
    (readout.withAlias store.spare (readout.type target)).Reads (store.withAlias target) := by
  refine ⟨fun var free => ?_, reads.freeUnits, fun var found linked => ?_, reads.units⟩
  · have different : var ≠ store.spare := by
      rintro rfl
      rw [typeLink?_withAlias_self] at free
      cases free
    rw [typeLink?_withAlias different] at free
    exact (if_neg different).trans (reads.freeTypes var free)
  · by_cases same : var = store.spare
    · rw [same, typeLink?_withAlias_self] at linked
      cases linked
      rw [type_withAlias covered]
      exact if_pos same
    · rw [typeLink?_withAlias same] at linked
      rw [type_withAlias (wellformed.typesCovered var found linked)]
      exact (if_neg same).trans (reads.types var found linked)

/-- One more variable that is linked to a type resolves to the same as the type, and changes nothing
else. -/
theorem Store.agree_withAlias {after now : Store} (wellformed : after.Wellformed)
    (covered : after.Covers type) (steps : after.Shortens now)
    (aliased : (now.withAlias type).Wellformed) :
    (resolve type after).1 = (resolve (.var after.spare) (now.withAlias type)).1 ∧
      (∀ shown, after.Covers shown →
        (resolve shown after).1 = (resolve shown (now.withAlias type)).1) ∧
      ∀ var : TypeVar, var.index < after.types.size →
        after.requirements? var = (now.withAlias type).requirements? var := by
  obtain ⟨readout, reads⟩ := wellformed.exists_readout
  have settled := Shortens.settled steps
  have nowReads := (settled.reads wellformed readout).mpr reads
  have aliasReads :=
    nowReads.withAlias (settled.wellformed wellformed) (settled.covers.mpr covered)
  have next : after.spare = now.spare := spare_eq settled.typeCount
  refine ⟨?_, ?_, ?_⟩
  · rw [resolve_read wellformed reads, resolve_read aliased aliasReads, next]
    exact (if_pos rfl).symm
  · intro shown shownCovered
    rw [resolve_read wellformed reads, resolve_read aliased aliasReads,
      Readout.type_withAlias (settled.covers.mpr shownCovered)]
  · intro var within
    have different : var ≠ now.spare := by
      rw [← next]
      rintro rfl
      exact Nat.lt_irrefl _ within
    rw [requirements?_withAlias different, Shortens.requirements steps var]

end Alias

namespace Session

open Store Unification

variable {α β γ δ : Type} {session : Session} {action : Infer α} {depth levels : Nat}

/-- Whether an operation of a session succeeds and fails together with an action on the store that
has a spare variable besides, and both leave the same store. -/
def SparesOperation (session : Session) (operation : Checking α) (action : Infer β) : Prop :=
  (∃ value result after, operation session = (.ok value, { session with store := after }) ∧
    action session.store.withSpare = (.ok result, after.withSpare) ∧
    session.store.Extends after ∧ after.types.size = session.store.types.size) ∨
  (∃ failure, (operation session).1 = .error failure) ∧
    ∃ error, (action session.store.withSpare).1 = .error error

theorem inferEscalating_of_ok {value : α} {after : Store}
    (ran : action session.store = (.ok value, after)) :
    inferEscalating action session = (.ok value, { session with store := after }) := by
  change escalate (action session.store).1 { session with store := (action session.store).2 } = _
  rw [ran]
  rfl

theorem inferEscalating_of_error (failed : ∃ error, (action session.store).1 = .error error) :
    ∃ failure, (inferEscalating action session).1 = .error failure := by
  obtain ⟨error, failed⟩ := failed
  change ∃ failure, (escalate (action session.store).1
    { session with store := (action session.store).2 }).1 = .error failure
  rw [failed]
  exact ⟨_, rfl⟩

theorem unify_apply (left right : InferredType) (session : Session) :
    unify left right session =
      inferEscalating (Unification.unify (some session.registry) left right) session := by
  unfold unify
  exact get_bind_apply _

theorem unify_sparesOperation {left right : InferredType} (wellformed : session.store.Wellformed)
    (leftCovered : session.store.Covers left) (rightCovered : session.store.Covers right)
    (comparable : Comparable session.store.withSpare depth levels left right) :
    SparesOperation session (unify left right)
      (unifyWithin (some session.registry) levels left right) := by
  rcases unify_spares wellformed leftCovered rightCovered comparable with
    ⟨type, after, ran, ranSpare, extended, count⟩ | ⟨failed, failedSpare⟩
  · refine .inl ⟨type, type, after, ?_, ranSpare, extended, count⟩
    rw [unify_apply]
    exact inferEscalating_of_ok ran
  · refine .inr ⟨?_, failedSpare⟩
    rw [unify_apply]
    exact inferEscalating_of_error failed

theorem SparesOperation.andThen {operation : Checking α} {action : Infer β}
    {next : α → Checking γ} {nextAction : β → Infer δ}
    (first : SparesOperation session operation action)
    (rest : ∀ value result after, action session.store.withSpare = (.ok result, after.withSpare) →
      session.store.Extends after →
      SparesOperation { session with store := after } (next value) (nextAction result)) :
    SparesOperation session (operation >>= next) (action >>= nextAction) := by
  rcases first with ⟨value, result, after, ran, ranSpare, extended, count⟩ |
    ⟨⟨failure, failed⟩, error, failedSpare⟩
  · rcases rest value result after ranSpare extended with
      ⟨last, lastResult, later, further, furtherSpare, extendedLater, countLater⟩ |
      ⟨fails, failsSpare⟩
    · refine .inl ⟨last, lastResult, later, ?_, ?_, extended.trans extendedLater,
        countLater.trans count⟩
      · rw [ok_bind_apply ran]
        exact further
      · rw [ok_bind_apply ranSpare]
        exact furtherSpare
    · refine .inr ⟨?_, ?_⟩
      · rw [ok_bind_apply ran]
        exact fails
      · rw [ok_bind_apply ranSpare]
        exact failsSpare
  · refine .inr ⟨⟨failure, ?_⟩, error, ?_⟩
    · rw [error_bind_apply (Prod.ext failed rfl) next]
    · rw [error_bind_apply (Prod.ext failedSpare rfl) nextAction]

/-- Unifying pair by pair solves the equations of the pairs. -/
theorem unifyPairs_spares (left right : InferredType) {params arguments : List InferredType}
    (wellformed : session.store.Wellformed)
    (paramsCovered : ∀ type ∈ params, session.store.Covers type)
    (argumentsCovered : ∀ type ∈ arguments, session.store.Covers type)
    (comparable : ∀ equation ∈ List.zipWith Equation.types params arguments,
      equation.Comparable session.store.withSpare depth levels) :
    SparesOperation session (unifyPairs params arguments)
      (solveEquations (some session.registry) (unifyWithin (some session.registry) levels) left
        right (List.zipWith .types params arguments)) := by
  induction params generalizing session arguments with
  | nil => exact .inl ⟨(), (), session.store, rfl, rfl, .refl _, rfl⟩
  | cons param params ih =>
    cases arguments with
    | nil => exact .inl ⟨(), (), session.store, rfl, rfl, .refl _, rfl⟩
    | cons argument arguments =>
      obtain ⟨paramCovered, restParams⟩ := List.forall_mem_cons.mp paramsCovered
      obtain ⟨argumentCovered, restArguments⟩ := List.forall_mem_cons.mp argumentsCovered
      obtain ⟨here, others⟩ := List.forall_mem_cons.mp comparable
      have pair : Comparable session.store.withSpare depth levels param argument := here
      have solves := unifyWithin_solves (some session.registry) depth levels pair.bounded
        pair.leftFits pair.rightFits
      rw [unifyPairs, List.zipWith_cons_cons, solveEquations, discard_bind, discard_bind]
      refine (unify_sparesOperation wellformed paramCovered argumentCovered pair).andThen
        fun _ _ after ranSpare extended => ?_
      exact ih (extended.wellformed wellformed)
        (fun type member => extended.covers (restParams type member))
        (fun type member => extended.covers (restArguments type member))
        fun equation member =>
          (others equation member).run (solves.yields.steps_to ranSpare)

section Application

variable {function result : InferredType} {params arguments : List InferredType} {middle : Store}
  {store : Store}

theorem onStore_bind_apply (action : StateM Store α) (next : α → Checking β)
    (session : Session) :
    (onStore action >>= next : Checking β) session =
      next (action session.store).1 { session with store := (action session.store).2 } := rfl

theorem apply_function (pruned : prune function session.store = (.function params result, middle))
    (enough : params.length = arguments.length) :
    apply function arguments session =
      (unifyPairs params arguments >>= fun _ => onStore (prune result) : Checking InferredType)
        { session with store := middle } := by
  unfold apply
  rw [onStore_bind_apply, pruned]
  dsimp only
  rw [if_neg (not_not.mpr enough)]

theorem solveEquations_pairs (registry : Option Registry)
    (unifyTypes : InferredType → InferredType → Infer InferredType) (left right : InferredType)
    (params arguments : List InferredType) (others : List Equation) :
    solveEquations registry unifyTypes left right (List.zipWith .types params arguments ++ others) =
      (do
        solveEquations registry unifyTypes left right (List.zipWith .types params arguments)
        solveEquations registry unifyTypes left right others) := by
  induction params generalizing arguments with
  | nil => exact (pure_bind ..).symm
  | cons param params ih =>
    cases arguments with
    | nil => exact (pure_bind ..).symm
    | cons argument arguments =>
      rw [List.zipWith_cons_cons, List.cons_append, solveEquations, solveEquations, ih,
        bind_assoc]

theorem decompose_function (enough : params.length = arguments.length) (last : InferredType) :
    decompose (.function params result) (.function arguments last) =
      some (List.zipWith .types params arguments ++ [.types result last]) := if_pos enough

theorem unifyWithin_function (registry : Option Registry) (levels : Nat)
    (wellformed : store.Wellformed)
    (pruned : prune function store = (.function params result, middle))
    (enough : params.length = arguments.length) (last : InferredType) :
    unifyWithin registry (levels + 1) function (.function arguments last) store.withSpare =
      (do
        solveEquations registry (unifyWithin registry levels) (.function params result)
          (.function arguments last) (List.zipWith .types params arguments)
        solveEquations registry (unifyWithin registry levels) (.function params result)
          (.function arguments last) [.types result last]
        return .function params result : Infer InferredType) middle.withSpare := by
  rw [unifyWithin_succ, lift_bind_apply, prune_withSpare wellformed, pruned, lift_bind_apply,
    prune_of_not_var rfl, unifyPruned_compound registry levels rfl rfl, decompose_function enough,
    Option.elim_some, solveEquations_pairs, bind_assoc]

theorem covers_function_spare (argumentsCovered : ∀ type ∈ arguments, store.Covers type) :
    store.withSpare.Covers (.function arguments (.var store.spare)) := by
  refine covers_function.mpr ⟨fun type member => (argumentsCovered type member).withSpare,
    covers_var.mpr ?_⟩
  rw [types_size_withSpare]
  exact Nat.lt_succ_self _

/-- The equations between a known function and one from the arguments to a spare variable can be
followed down to their end. -/
theorem exists_comparable_pairs (wellformed : store.Wellformed) (covered : store.Covers function)
    (argumentsCovered : ∀ type ∈ arguments, store.Covers type)
    (pruned : prune function store = (.function params result, middle))
    (enough : params.length = arguments.length) :
    ∃ depth levels, unificationLevels store.withSpare function
        (.function arguments (.var store.spare)) = levels + 2 ∧
      ∀ equation ∈ List.zipWith Equation.types params arguments,
        equation.Comparable middle.withSpare depth (levels + 1) := by
  have whole := comparable_unificationLevels wellformed.withSpare covered.withSpare
    (covers_function_spare argumentsCovered)
  have first := prune_yields wellformed.withSpare function
  have firstSteps := first.steps
  have firstReaches := first.ends.1
  rw [prune_withSpare wellformed, pruned] at firstSteps firstReaches
  obtain ⟨levels, count⟩ : ∃ levels, unificationLevels store.withSpare function
      (.function arguments (.var store.spare)) = levels + 1 := ⟨_, rfl⟩
  rw [count] at whole ⊢
  have parts := (whole.pruned firstSteps firstReaches .refl (.inl rfl)).decompose rfl
    (decompose_function enough _)
  obtain ⟨pairs, rest⟩ := List.forall_mem_append.mp parts
  have last : Comparable middle.withSpare _ levels result (.var store.spare) :=
    rest _ (List.mem_singleton_self _)
  obtain ⟨fewer, rfl⟩ := Nat.exists_eq_add_one.mpr (Nat.zero_lt_of_lt (last.stays _ .refl))
  exact ⟨_, fewer, rfl, pairs⟩

/-- A known function is applied with the same outcome as it is unified with a function from the
arguments to a spare variable, which is then linked to the result. -/
theorem apply_spares (wellformed : session.store.Wellformed)
    (covered : session.store.Covers function)
    (argumentsCovered : ∀ type ∈ arguments, session.store.Covers type)
    (pruned : prune function session.store = (.function params result, middle))
    (enough : params.length = arguments.length) :
    (∃ type after now,
      apply function arguments session = (.ok type, { session with store := after }) ∧
      unify function (.function arguments (.var session.store.spare))
          { session with store := session.store.withSpare } =
        (.ok (.function params result), { session with store := now.withAlias type }) ∧
      session.store.Extends after ∧ after.types.size = session.store.types.size ∧
      after.Covers type ∧ after.Shortens now) ∨
    (∃ failure, (apply function arguments session).1 = .error failure) ∧
      ∃ failure, (unify function (.function arguments (.var session.store.spare))
        { session with store := session.store.withSpare }).1 = .error failure := by
  obtain ⟨depth, levels, count, comparable⟩ :=
    exists_comparable_pairs wellformed covered argumentsCovered pruned enough
  have whole := unifyWithin_function (some session.registry) (levels + 1) wellformed pruned enough
    (.var session.store.spare)
  rw [← count] at whole
  obtain ⟨_, shortened, reaches, _⟩ := prune_spares wellformed function
  rw [pruned] at shortened reaches
  have settled := Shortens.settled shortened
  have middleWellformed := settled.wellformed wellformed
  obtain ⟨paramsCovered, resultCovered⟩ :=
    covers_function.mp (reaches.covers middleWellformed (settled.covers.mpr covered))
  have pairs : SparesOperation { session with store := middle } _ _ :=
    unifyPairs_spares (.function params result) (.function arguments (.var session.store.spare))
      middleWellformed paramsCovered
      (fun type member => settled.covers.mpr (argumentsCovered type member)) comparable
  rw [apply_function pruned enough, unify_apply]
  rcases pairs with ⟨_, _, last, ran, ranSpare, extended, lastCount⟩ |
    ⟨⟨failure, failed⟩, error, failedSpare⟩
  · have lastWellformed := extended.wellformed middleWellformed
    obtain ⟨now, further, links⟩ := unifyWithin_spare (some session.registry) levels
      lastWellformed (extended.covers resultCovered)
    have lastPrune := prune_yields lastWellformed result
    have lastSettled := Shortens.settled lastPrune.steps
    have next : session.store.spare = last.spare :=
      spare_eq (lastCount.trans settled.typeCount)
    have toLast := (Solving.run_extends (Shortens.solving shortened 0)).trans extended
    refine .inl ⟨(prune result last).1, (prune result last).2, now, ?_, ?_,
      toLast.trans (Solving.run_extends (Shortens.solving lastPrune.steps 0)),
      lastSettled.typeCount.trans (lastCount.trans settled.typeCount),
      lastPrune.ends.1.covers (lastSettled.wellformed lastWellformed)
        (lastSettled.covers.mpr (extended.covers resultCovered)), further⟩
    · rw [ok_bind_apply ran]
      rfl
    · refine inferEscalating_of_ok (unify_of_ok (whole.trans ?_))
      rw [ok_bind_apply ranSpare, solveEquations, discard_bind, bind_assoc, next,
        ok_bind_apply links]
      rfl
  · refine .inr ⟨⟨failure, ?_⟩, inferEscalating_of_error (unify_of_error ⟨error, ?_⟩)⟩
    · rw [error_bind_apply (Prod.ext failed rfl)]
    · rw [whole, error_bind_apply (Prod.ext failedSpare rfl)]

/-- What resolves to a function is pruned to one with as many parameters. -/
theorem exists_pruned_function (wellformed : session.store.Wellformed)
    (known : (Store.resolve function session.store).1 = .function params result) :
    ∃ inner last middle, prune function session.store = (.function inner last, middle) ∧
      inner.length = params.length := by
  obtain ⟨readout, reads⟩ := wellformed.exists_readout
  rw [resolve_read wellformed reads] at known
  obtain ⟨_, steps, reaches, free⟩ := prune_spares wellformed function
  generalize prune function session.store = pruned at steps reaches free
  obtain ⟨type, middle⟩ := pruned
  have middleReads := ((Shortens.settled steps).reads wellformed readout).mpr reads
  have same := (reaches.read middleReads).trans known
  cases type with
  | function inner last =>
    simp only [Readout.type, TypeTerm.substitute_function, TypeTerm.function.injEq] at same
    refine ⟨inner, last, middle, rfl, ?_⟩
    rw [← same.1, List.length_map]
  | var var =>
    rw [Readout.type_var, middleReads.freeTypes var (free var rfl)] at same
    cases same
  | _ => simp [Readout.type] at same

/-- Applying a function that is known, to as many arguments as it has parameters, agrees with
unifying it with a function from the arguments to a new variable: one succeeds if and only if the
other does, and then the result and the new variable resolve to the same type, and so does every
type over the variables that there were, of which the same is required. -/
theorem apply_agrees_with_unify (reachable : session.Reachable)
    (covered : session.store.Covers function)
    (argumentsCovered : ∀ argument ∈ arguments, session.store.Covers argument)
    (known : (Store.resolve function session.store).1 = .function params result)
    (enough : params.length = arguments.length) :
    let fresh := freshType .none session
    let applied := apply function arguments session
    let unified := unify function (.function arguments fresh.1) fresh.2
    ((∃ type, applied.1 = .ok type) ↔ ∃ type, unified.1 = .ok type) ∧
      ∀ type, applied.1 = .ok type →
        (Store.resolve type applied.2.store).1 = (Store.resolve fresh.1 unified.2.store).1 ∧
        (∀ shown, session.store.Covers shown →
          (Store.resolve shown applied.2.store).1 = (Store.resolve shown unified.2.store).1) ∧
        ∀ var : TypeVar, var.index < session.store.types.size →
          applied.2.store.requirements? var = unified.2.store.requirements? var := by
  have made : freshType .none session =
      (.var session.store.spare, { session with store := session.store.withSpare }) := rfl
  have wellformed := reachable.wellformed
  obtain ⟨inner, last, middle, pruned, alike⟩ := exists_pruned_function wellformed known
  -- The two runs differ only in the spare variable that the expected function returns.
  have outcomes := apply_spares wellformed covered argumentsCovered pruned (alike.trans enough)
  have wellformedLater : (unify function (.function arguments (.var session.store.spare))
      { session with store := session.store.withSpare }).2.store.Wellformed :=
    (extends_of_run (unify_yields wellformed.withSpare covered.withSpare
      (covers_function_spare argumentsCovered)).steps).wellformed wellformed.withSpare
  rw [made]
  dsimp only
  generalize apply function arguments session = applied at outcomes ⊢
  generalize unify function (.function arguments (.var session.store.spare))
    { session with store := session.store.withSpare } = unified at outcomes wellformedLater ⊢
  rcases outcomes with ⟨type, after, now, rfl, rfl, extended, count, typeCovered, steps⟩ |
    ⟨⟨failure, failed⟩, other, failedFresh⟩
  · obtain ⟨alike, resolves, requires⟩ :=
      agree_withAlias (extended.wellformed wellformed) typeCovered steps wellformedLater
    refine ⟨iff_of_true ⟨_, rfl⟩ ⟨_, rfl⟩, fun found done => ?_⟩
    cases done
    rw [spare_eq count, ← count]
    exact ⟨alike, fun shown shownCovered => resolves shown (extended.covers shownCovered), requires⟩
  · rw [failed, failedFresh]
    refine ⟨iff_of_false ?_ ?_, fun found done => ?_⟩
    · rintro ⟨_, done⟩
      cases done
    · rintro ⟨_, done⟩
      cases done
    · cases done

end Application

/-- A function that a variable stands for, whose parameters and result share a variable. -/
theorem apply_agrees_with_unify_shared :
    let shared : InferredType := .function [.var ⟨1⟩, .number (.ofVar ⟨0⟩)] (.array (.var ⟨1⟩))
    let before := (((start .empty {}).after (.freshType .none)).after (.freshType
      (.single "Comparable" "<"))).after .freshUnit
    let session := before.after (.unify (.var ⟨0⟩) shared)
    let arguments : List InferredType := [.text, .number .scalar]
    let fresh := freshType .none session
    let applied := apply (.var ⟨0⟩) arguments session
    let unified := unify (.var ⟨0⟩) (.function arguments fresh.1) fresh.2
    applied.1 = .ok (.array (.var ⟨1⟩)) ∧ (∃ type, unified.1 = .ok type) ∧
      (Store.resolve fresh.1 unified.2.store).1 = .array .text ∧
      (Store.resolve shared unified.2.store).1 =
        .function [.text, .number .scalar] (.array .text) := by
  intro shared before session arguments
  have scope : before.store.Covers (.var ⟨0⟩) ∧ before.store.Covers shared := by decide +kernel
  have reachable : session.Reachable :=
    ((((reachable_start .empty {}).after (.freshType .none) trivial).after (.freshType
      (.single "Comparable" "<")) trivial).after .freshUnit trivial).after (.unify _ _) scope
  have known : (Store.resolve (.var ⟨0⟩) session.store).1 = shared := by decide +kernel
  have covered : session.store.Covers (.var ⟨0⟩) := by decide +kernel
  have argumentsCovered : ∀ argument ∈ arguments, session.store.Covers argument := by
    decide +kernel
  have shown : session.store.Covers shared := by decide +kernel
  have done : (apply (.var ⟨0⟩) arguments session).1 = .ok (.array (.var ⟨1⟩)) := by
    decide +kernel
  have element : (Store.resolve (.array (.var ⟨1⟩))
      (apply (.var ⟨0⟩) arguments session).2.store).1 = .array .text := by decide +kernel
  have whole : (Store.resolve shared (apply (.var ⟨0⟩) arguments session).2.store).1 =
      .function [.text, .number .scalar] (.array .text) := by decide +kernel
  have agreement := apply_agrees_with_unify reachable covered argumentsCovered known rfl
  generalize apply (.var ⟨0⟩) arguments session = applied at done element whole agreement ⊢
  generalize freshType .none session = fresh at agreement ⊢
  obtain ⟨together, agree⟩ := agreement
  obtain ⟨alike, resolves, _⟩ := agree _ done
  intro _ _ unified
  rw [← alike, ← resolves shared shown]
  exact ⟨done, together.mp ⟨_, done⟩, element, whole⟩

/-- A function whose result is a variable that the session has not made can be applied, but the
result cannot be unified with a new variable. -/
theorem application_outside_store :
    let session := start .empty {}
    let function : InferredType := .function [] (.var ⟨5⟩)
    let fresh := freshType .none session
    session.Reachable ∧ (Store.resolve function session.store).1 = function ∧
      (apply function [] session).1 = .ok (.var ⟨5⟩) ∧
      (unify function (.function [] fresh.1) fresh.2).1.isOk = false := by
  intro session function fresh
  refine ⟨reachable_start .empty {}, ?_⟩
  decide +kernel

end Session

end SheetTypes
