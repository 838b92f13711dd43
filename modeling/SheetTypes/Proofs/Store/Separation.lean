import SheetTypes.Proofs.Unification.Composition

/-!
The two halves of a store. What walks along the links of type variables, links them or requires
something of them neither reads nor writes unit variables, except in the texts of errors. What
solves equations between units neither reads nor writes type variables.
-/

set_option autoImplicit false

namespace SheetTypes.Store

open Unification

variable {α β : Type} {first second : Store}

def withTypes (store : Store) (types : Array TypeCell) : Store :=
  ⟨types, store.units, store.exact⟩

theorem typeLink?_of_types (same : second.types = first.types) (var : TypeVar) :
    second.typeLink? var = first.typeLink? var := by
  unfold typeLink?
  rw [same]

theorem requirements?_of_types (same : second.types = first.types) (var : TypeVar) :
    second.requirements? var = first.requirements? var := by
  unfold requirements?
  rw [same]

def OnTypes (action : StateM Store α) : Prop :=
  ∀ types, ∃ value later, ∀ units exact,
    action ⟨types, units, exact⟩ = (value, ⟨later, units, exact⟩)

/-- Whether type variables alone decide if an action succeeds, and it then reads and writes nothing
else. -/
def DecidedByTypes (action : Infer α) : Prop :=
  ∀ types,
    (∃ value later, ∀ units exact,
      action ⟨types, units, exact⟩ = (.ok value, ⟨later, units, exact⟩)) ∨
    ∀ units exact, ∃ error after, action ⟨types, units, exact⟩ = (.error error, after)

namespace OnTypes

theorem pure (value : α) : OnTypes (Pure.pure value) :=
  fun types => ⟨value, types, fun _ _ => rfl⟩

variable {action : StateM Store α}

theorem bind {next : α → StateM Store β} (first : OnTypes action)
    (rest : ∀ value, OnTypes (next value)) : OnTypes (action >>= next) := by
  intro types
  obtain ⟨value, middle, done⟩ := first types
  obtain ⟨last, later, doneLast⟩ := rest value middle
  refine ⟨last, later, fun units exact => ?_⟩
  change next (action ⟨types, units, exact⟩).1 (action ⟨types, units, exact⟩).2 = _
  rw [done]
  exact doneLast units exact

theorem get {next : Store → StateM Store β}
    (reads : ∀ store, next store = next ⟨store.types, #[], true⟩)
    (rest : ∀ store, OnTypes (next store)) : OnTypes (MonadState.get >>= next) := by
  intro types
  obtain ⟨value, later, done⟩ := rest ⟨types, #[], true⟩ types
  refine ⟨value, later, fun units exact => ?_⟩
  change next ⟨types, units, exact⟩ ⟨types, units, exact⟩ = _
  rw [reads]
  exact done units exact

theorem keeps (onTypes : OnTypes action) (store : Store) :
    (action store).2 = ⟨(action store).2.types, store.units, store.exact⟩ := by
  obtain ⟨value, later, done⟩ := onTypes store.types
  have runs : action store = (value, ⟨later, store.units, store.exact⟩) :=
    done store.units store.exact
  rw [runs]

theorem runs (onTypes : OnTypes action) (types : Array TypeCell) :
    ∃ value later, ∀ store : Store, store.types = types →
      action store = (value, store.withTypes later) := by
  obtain ⟨value, later, done⟩ := onTypes types
  refine ⟨value, later, fun store same => ?_⟩
  rw [← same] at done
  exact done store.units store.exact

theorem anyM {items : List α} {test : α → StateM Store Bool}
    (each : ∀ item ∈ items, OnTypes (test item)) : OnTypes (items.anyM test) := by
  induction items with
  | nil => exact .pure false
  | cons item items ih =>
    refine (each item (List.mem_cons_self ..)).bind fun found => ?_
    cases found with
    | true => exact .pure true
    | false => exact ih fun other member => each other (List.mem_cons_of_mem _ member)

end OnTypes

namespace DecidedByTypes

theorem ok (value : α) : DecidedByTypes (Pure.pure value) :=
  fun types => .inl ⟨value, types, fun _ _ => rfl⟩

theorem lift {action : StateM Store α} (onTypes : OnTypes action) :
    DecidedByTypes (liftM action : Infer α) := by
  intro types
  obtain ⟨value, later, done⟩ := onTypes types
  refine .inl ⟨value, later, fun units exact => ?_⟩
  change (Except.ok (action ⟨types, units, exact⟩).1, (action ⟨types, units, exact⟩).2) = _
  rw [done]

/-- What shows a text in an error fails, whatever the text. -/
theorem fail (action : StateM Store String) (error : String → TypeError) :
    DecidedByTypes (do throw (error (← action)) : Infer α) :=
  fun _ => .inr fun _ _ => ⟨_, _, rfl⟩

variable {action : Infer α}

theorem andThen {next : α → Infer β} (first : DecidedByTypes action)
    (rest : ∀ value, DecidedByTypes (next value)) : DecidedByTypes (action >>= next) := by
  intro types
  rcases first types with ⟨value, middle, done⟩ | failed
  · rcases rest value middle with ⟨last, later, doneLast⟩ | failedLast
    · refine .inl ⟨last, later, fun units exact => ?_⟩
      rw [ok_bind_apply (done units exact)]
      exact doneLast units exact
    · refine .inr fun units exact => ?_
      rw [ok_bind_apply (done units exact)]
      exact failedLast units exact
  · refine .inr fun units exact => ?_
    obtain ⟨error, after, fails⟩ := failed units exact
    exact ⟨error, after, error_bind_apply fails next⟩

theorem get {next : Store → Infer β}
    (reads : ∀ store, next store = next ⟨store.types, #[], true⟩)
    (rest : ∀ store, DecidedByTypes (next store)) : DecidedByTypes (MonadState.get >>= next) := by
  intro types
  have decided := rest ⟨types, #[], true⟩ types
  have same (units : Array UnitCell) (exact : Bool) :
      (MonadState.get >>= next : Infer β) ⟨types, units, exact⟩ =
        next ⟨types, #[], true⟩ ⟨types, units, exact⟩ := by
    rw [get_bind_apply, reads]
  simp only [same]
  exact decided

theorem runs (decided : DecidedByTypes action) (types : Array TypeCell) :
    (∃ value later, ∀ store : Store, store.types = types →
      action store = (.ok value, store.withTypes later)) ∨
    ∀ store : Store, store.types = types → ∃ error, (action store).1 = .error error := by
  rcases decided types with ⟨value, later, done⟩ | failed
  · refine .inl ⟨value, later, fun store same => ?_⟩
    rw [← same] at done
    exact done store.units store.exact
  · refine .inr fun store same => ?_
    rw [← same] at failed
    obtain ⟨error, after, fails⟩ := failed store.units store.exact
    exact ⟨error, congrArg Prod.fst fails⟩

end DecidedByTypes

private theorem follow_onTypes (types : Array TypeCell) (units : Array UnitCell) (exact : Bool)
    (links : Nat) (type : InferredType) :
    follow ⟨types, units, exact⟩ links type = follow ⟨types, #[], true⟩ links type := by
  have same (var : TypeVar) :
      typeLink? ⟨types, units, exact⟩ var = typeLink? ⟨types, #[], true⟩ var := rfl
  induction links generalizing type with
  | zero => rfl
  | succ links ih =>
    cases type with
    | var var =>
      simp only [follow, same]
      cases typeLink? ⟨types, #[], true⟩ var with
      | none => rfl
      | some target => simp only [ih]
    | _ => rfl

private theorem foldl_setType (vars : List TypeVar) (cell : TypeCell) (types : Array TypeCell)
    (units : Array UnitCell) (exact : Bool) :
    vars.foldl (fun (store : Store) var => store.setType var cell) ⟨types, units, exact⟩ =
      ⟨vars.foldl (fun types var => types.setIfInBounds var.index cell) types, units, exact⟩ := by
  induction vars generalizing types with
  | nil => rfl
  | cons var vars ih => exact ih (types.setIfInBounds var.index cell)

theorem prune_onTypes (type : InferredType) : OnTypes (prune type) := by
  intro types
  generalize walked : follow ⟨types, #[], true⟩ types.size type = result
  obtain ⟨last, passed⟩ := result
  refine ⟨last, if 1 < passed.length then
      passed.foldl (fun types var => types.setIfInBounds var.index (.link last)) types
    else types, fun units exact => ?_⟩
  have followed := (follow_onTypes types units exact types.size type).trans walked
  rw [prune_apply followed, foldl_setType]
  split <;> rfl

private theorem anyVarM_onTypes {test : TypeVar → StateM Store Bool}
    (each : ∀ var, OnTypes (test var)) (type : InferredType) : OnTypes (type.anyVarM test) := by
  induction type using TypeTerm.induction_children with
  | step type ih =>
    rcases type.var_or_compound with ⟨var, rfl⟩ | compound
    · exact each var
    · rw [TypeTerm.anyVarM_children test compound]
      exact .anyM ih

private theorem occursInVar_onTypes (var : TypeVar) (links : Nat) (candidate : TypeVar) :
    OnTypes (occursInVar var links candidate) := by
  induction links generalizing candidate with
  | zero => exact .pure false
  | succ links ih =>
    refine (prune_onTypes (.var candidate)).bind fun type => ?_
    cases type with
    | var last => exact .pure _
    | _ => exact anyVarM_onTypes ih _

theorem occurs_onTypes (var : TypeVar) (type : InferredType) : OnTypes (occurs var type) :=
  .get (fun _ => rfl) fun _ => anyVarM_onTypes (occursInVar_onTypes var _) type

private theorem addRequirements_decided (var : TypeVar) (extra : Requirements) :
    DecidedByTypes (addRequirements var extra) := by
  intro types
  unfold addRequirements
  simp only [get_bind_apply]
  cases types[var.index]? with
  | none => exact .inr fun _ _ => ⟨_, _, rfl⟩
  | some cell =>
    cases cell with
    | unbound requirements =>
      exact .inl ⟨(), types.setIfInBounds var.index (.unbound (requirements.union extra)),
        fun _ _ => rfl⟩
    | link target => exact .inr fun _ _ => ⟨_, _, rfl⟩

private theorem linkType_decided (var : TypeVar) (target : InferredType) :
    DecidedByTypes (linkType var target) := by
  intro types
  unfold linkType
  simp only [get_bind_apply]
  cases types[var.index]? with
  | none => exact .inr fun _ _ => ⟨_, _, rfl⟩
  | some cell =>
    cases cell with
    | unbound requirements =>
      exact .inl ⟨(), types.setIfInBounds var.index (.link target), fun _ _ => rfl⟩
    | link target => exact .inr fun _ _ => ⟨_, _, rfl⟩

theorem compositional_decidedByTypes : Compositional @DecidedByTypes where
  ok := .ok
  andThen := .andThen
  get := .get
  pruned type := .lift (prune_onTypes type)
  occurring var type := .lift (occurs_onTypes var type)
  required := addRequirements_decided
  linked := linkType_decided
  offered required type := by
    unfold checkOffered
    split
    · exact .fail _ _
    · exact .ok ()
  cyclic _ _ := .fail _ _

/-- Whether an action does the same in a store that was changed in some way, and the change
stays. -/
def Commutes (change : Store → Store) (action : StateM Store α) : Prop :=
  ∀ store, action (change store) = ((action store).1, change (action store).2)

structure Beside (change : Store → Store) : Prop where
  units : ∀ store, (change store).units = store.units
  updates : ∀ store (edit : Array UnitCell → Array UnitCell) within,
    change ⟨store.types, edit store.units, store.exact && within⟩ =
      ⟨(change store).types, edit (change store).units, (change store).exact && within⟩

theorem beside_withTypes (types : Array TypeCell) : Beside fun store => store.withTypes types :=
  ⟨fun _ => rfl, fun _ _ _ => rfl⟩

variable {change : Store → Store}

namespace Commutes

theorem pure (value : α) : Commutes change (Pure.pure value) := fun _ => rfl

variable {action : StateM Store α} {next : Store → StateM Store β}

theorem bind {next : α → StateM Store β} (first : Commutes change action)
    (rest : ∀ value, Commutes change (next value)) : Commutes change (action >>= next) := by
  intro store
  change next (action (change store)).1 (action (change store)).2 = _
  rw [first]
  exact rest _ _

theorem read (reads : ∀ store, next (change store) = next store)
    (rest : ∀ store, Commutes change (next store)) : Commutes change (MonadState.get >>= next) := by
  intro store
  change next (change store) (change store) = _
  rw [reads]
  exact rest store store

theorem get (beside : Beside change) (reads : ∀ store, next store = next ⟨#[], store.units, true⟩)
    (rest : ∀ store, Commutes change (next store)) : Commutes change (MonadState.get >>= next) := by
  refine .read (fun store => ?_) rest
  rw [reads, beside.units, ← reads]

theorem lift (commutes : Commutes change action) : Commutes change (liftM action : Infer α) := by
  intro store
  change (Except.ok (action (change store)).1, (action (change store)).2) = _
  rw [commutes]
  rfl

theorem andThen {action : Infer α} {next : α → Infer β} (first : Commutes change action)
    (rest : ∀ value, Commutes change (next value)) :
    Commutes change (action >>= next : Infer β) := by
  intro store
  have runs (now : Store) : (action >>= next : Infer β) now =
      ExceptT.bindCont next (action now).1 (action now).2 := rfl
  rw [runs, runs, first]
  cases (action store).1 with
  | error error => rfl
  | ok value => exact rest value (action store).2

theorem readThen {next : Store → Infer β} (reads : ∀ store, next (change store) = next store)
    (rest : ∀ store, Commutes change (next store)) :
    Commutes change (MonadState.get >>= next : Infer β) := by
  intro store
  rw [get_bind_apply, get_bind_apply, reads]
  exact rest store store

theorem throw (error : TypeError) : Commutes change (MonadExcept.throw error : Infer α) :=
  fun _ => rfl

theorem recover {action : Infer α} {handle : TypeError → Infer α} (first : Commutes change action)
    (rest : ∀ error, Commutes change (handle error)) :
    Commutes change (tryCatch action handle : Infer α) := by
  intro store
  have changed := first store
  generalize ran : action store = run at changed
  obtain ⟨found, after⟩ := run
  cases found with
  | error error =>
    rw [error_tryCatch_apply changed, error_tryCatch_apply ran]
    exact rest error after
  | ok value => rw [ok_tryCatch_apply changed, ok_tryCatch_apply ran]

end Commutes

section Units

variable (beside : Beside change)

include beside

private theorem edit_commutes (edit : Array UnitCell → Array UnitCell) (store : Store) :
    change ⟨store.types, edit store.units, store.exact⟩ =
      ⟨(change store).types, edit (change store).units, (change store).exact⟩ := by
  have updates := beside.updates store edit true
  rw [Bool.and_true, Bool.and_true] at updates
  exact updates

private theorem setUnit_commutes (store : Store) (var : UnitVar) (cell : UnitCell) :
    change (store.setUnit var cell) = (change store).setUnit var cell :=
  edit_commutes beside (fun units => units.setIfInBounds var.index cell) store

theorem multiplyPower_commutes (product unit : InferredUnit) (number : Int) :
    Commutes change (multiplyPower product unit number) := by
  intro store
  have updates := beside.updates store id
    ((unit.checkedRaise number).bind product.checkedMultiply).isSome
  exact congrArg (Prod.mk _) updates.symm

private theorem freshUnitVar_commutes : Commutes change freshUnitVar := by
  intro store
  have pushed := edit_commutes beside (fun units => units.push .unbound) store
  have sizes : (change store).units.size = store.units.size := by rw [beside.units]
  exact Prod.ext (congrArg UnitVar.mk sizes) pushed.symm

theorem multiplyPowers_commutes {meaning : UnitVar → StateM Store InferredUnit}
    (each : ∀ var, Commutes change (meaning var)) (product : InferredUnit)
    (powers : List (UnitVar × Int)) : Commutes change (multiplyPowers meaning product powers) := by
  induction powers generalizing product with
  | nil => exact .pure product
  | cons power powers ih =>
    obtain ⟨var, number⟩ := power
    refine (each var).bind fun value => ?_
    exact (multiplyPower_commutes beside product value number).bind fun product => ih product

theorem pruneUnitWithin_commutes (links : Nat) (unit : InferredUnit) :
    Commutes change (pruneUnitWithin links unit) := by
  induction links generalizing unit with
  | zero => exact .pure unit
  | succ links ih =>
    refine .get beside (fun _ => rfl) fun store => ?_
    dsimp only
    split
    · exact .pure unit
    · refine multiplyPowers_commutes beside (fun var => ?_) _ _
      refine .get beside (fun _ => rfl) fun store => ?_
      split
      · exact .pure _
      · refine (ih _).bind fun value => ?_
        have links : Commutes change (modify fun store => store.setUnit var (.link value)) :=
          fun store => congrArg (Prod.mk _) (setUnit_commutes beside store var _).symm
        exact links.bind fun _ => .pure value

theorem pruneUnit_commutes (unit : InferredUnit) : Commutes change (pruneUnit unit) :=
  .get beside (fun _ => rfl) fun _ => pruneUnitWithin_commutes beside _ unit

theorem linkUnit_commutes (var : UnitVar) (target : InferredUnit) :
    Commutes change (linkUnit var target) := by
  intro store
  unfold linkUnit
  rw [get_bind_apply, get_bind_apply, beside.units]
  cases store.units[var.index]? with
  | none => rfl
  | some cell =>
    cases cell with
    | unbound => exact congrArg (Prod.mk _) (setUnit_commutes beside store var _).symm
    | link _ => rfl

theorem bindUnit_commutes (var : UnitVar) (value : InferredUnit) :
    Commutes change (bindUnit var value) := by
  refine (pruneUnit_commutes beside value).lift.andThen fun value => ?_
  dsimp only
  split
  · exact .pure _
  · exact linkUnit_commutes beside var value

theorem solveWithin_commutes (rounds : Nat) (quotient : InferredUnit) :
    Commutes change (solveWithin rounds quotient) := by
  induction rounds generalizing quotient with
  | zero => exact .pure _
  | succ rounds ih =>
    refine (pruneUnit_commutes beside quotient).lift.andThen fun pruned => ?_
    dsimp only
    split
    · exact .pure _
    · split
      · exact (bindUnit_commutes beside _ _).andThen fun _ => .pure _
      · split
        · exact .pure _
        · refine (freshUnitVar_commutes beside).lift.andThen fun var => ?_
          exact (bindUnit_commutes beside _ _).andThen fun _ => ih pruned

theorem unifyUnits_commutes (registry : Option Registry) (left right : InferredUnit) :
    Commutes change (unifyUnits registry left right) := by
  refine (pruneUnit_commutes beside left).lift.andThen fun left => ?_
  refine (pruneUnit_commutes beside right).lift.andThen fun right => ?_
  split
  · exact .pure _
  · refine (multiplyPower_commutes beside left right (-1)).lift.andThen fun quotient => ?_
    refine (solveWithin_commutes beside _ quotient).andThen fun solved => ?_
    cases solved with
    | true => exact .pure _
    | false => exact .pure _

end Units

theorem unifyUnits_withTypes (registry : Option Registry) (left right : InferredUnit)
    (store : Store) (types : Array TypeCell) :
    unifyUnits registry left right (store.withTypes types) =
      ((unifyUnits registry left right store).1,
        (unifyUnits registry left right store).2.withTypes types) :=
  unifyUnits_commutes (beside_withTypes types) registry left right store

theorem unifyUnits_types (registry : Option Registry) (left right : InferredUnit)
    (store : Store) : (unifyUnits registry left right store).2.types = store.types := by
  have runs := unifyUnits_withTypes registry left right store store.types
  change unifyUnits registry left right store = _ at runs
  rw [runs]
  rfl

end SheetTypes.Store
