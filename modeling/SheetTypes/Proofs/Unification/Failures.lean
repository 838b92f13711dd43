import SheetTypes.Proofs.Canonical.Rounds
import SheetTypes.Proofs.Unification.Types

/-!
How unification and requirements fail. Their internal errors blame the store or the registry of
units; with a registry whose definitions are not too deep, only the store is left.
-/

set_option autoImplicit false

namespace SheetTypes

/-- From states with a property that it keeps, an action has results of one kind. -/
def Ensures {σ α : Type} (keep : σ → Prop) (action : StateM σ α) (post : α → Prop) : Prop :=
  ∀ state, keep state → keep (action state).2 ∧ post (action state).1

def Raises {σ ε α : Type} (keep : σ → Prop) (fault : ε → Prop) (action : Attempt ε σ α) : Prop :=
  Ensures keep action (Results fault fun _ => True)

namespace Ensures

variable {σ α β : Type} {keep : σ → Prop} {action : StateM σ α} {post : α → Prop}

theorem pure {value : α} (holds : post value) : Ensures keep (pure value) post :=
  fun _ kept => ⟨kept, holds⟩

theorem bind {next : α → StateM σ β} {last : β → Prop} (first : Ensures keep action post)
    (rest : ∀ value, post value → Ensures keep (next value) last) :
    Ensures keep (action >>= next) last :=
  fun state here => rest _ (first state here).2 _ (first state here).1

end Ensures

namespace Raises

variable {σ ε α β : Type} {keep : σ → Prop} {fault : ε → Prop} {action : Attempt ε σ α}
  {next : α → Attempt ε σ β} {step : StateM σ α}

theorem ok (value : α) : Raises keep fault (pure value : Attempt ε σ α) :=
  fun _ kept => ⟨kept, trivial⟩

theorem throw {error : ε} (holds : fault error) :
    Raises keep fault (throw error : Attempt ε σ α) :=
  fun _ kept => ⟨kept, holds⟩

theorem lift (kept : ∀ state, keep state → keep (step state).2) :
    Raises keep fault (liftM step : Attempt ε σ α) :=
  fun state here => ⟨kept state here, trivial⟩

theorem mono {other : ε → Prop} (raises : Raises keep fault action)
    (weaken : ∀ error, fault error → other error) : Raises keep other action := by
  intro state here
  obtain ⟨kept, fails⟩ := raises state here
  refine ⟨kept, ?_⟩
  generalize (action state).1 = found at fails
  cases found with
  | error error => exact weaken error fails
  | ok value => trivial

theorem andThen (first : Raises keep fault action)
    (rest : ∀ value, Raises keep fault (next value)) :
    Raises keep fault (action >>= next : Attempt ε σ β) := by
  intro state here
  obtain ⟨kept, fails⟩ := first state here
  generalize outcome : action state = result at kept fails
  obtain ⟨found, after⟩ := result
  cases found with
  | error error =>
    rw [error_bind_apply outcome]
    exact ⟨kept, fails⟩
  | ok value =>
    rw [ok_bind_apply outcome]
    exact rest value after kept

theorem lift_andThen {post : α → Prop} (first : Ensures keep step post)
    (rest : ∀ value, post value → Raises keep fault (next value)) :
    Raises keep fault ((liftM step : Attempt ε σ α) >>= next : Attempt ε σ β) :=
  first.bind rest

theorem read {next : σ → Attempt ε σ β}
    (rest : ∀ state, keep state → Raises keep fault (next state)) :
    Raises keep fault (get >>= next : Attempt ε σ β) :=
  fun state here => rest state here state here

theorem recover {handle : ε → Attempt ε σ α} (first : Raises keep fault action)
    (rest : ∀ error, fault error → Raises keep fault (handle error)) :
    Raises keep fault (tryCatch action handle : Attempt ε σ α) := by
  intro state here
  obtain ⟨kept, fails⟩ := first state here
  generalize outcome : action state = result at kept fails
  obtain ⟨found, after⟩ := result
  cases found with
  | error error =>
    rw [error_tryCatch_apply outcome]
    exact rest error fails after kept
  | ok value =>
    rw [ok_tryCatch_apply outcome]
    exact ⟨kept, trivial⟩

end Raises

def TypeError.Explained (error : TypeError) : Prop := error.isInternal = true → error.BlamesStore

variable {error : TypeError} {α : Type}

theorem TypeError.explained_of_external (external : error.isInternal = false) :
    error.Explained := by
  intro internal
  rw [external] at internal
  cases internal

theorem TypeError.explained_of_fault {detail : String} (fault : StoreFault detail) :
    (TypeError.internal detail).Explained :=
  fun _ => ⟨detail, rfl, fault⟩

theorem TypeError.Explained.withContext (explained : error.Explained) (outer other : String) :
    (error.withContext outer other).Explained := by
  unfold TypeError.withContext
  split
  next => exact explained_of_external rfl
  next => exact explained

abbrev Explains {α : Type} (action : Infer α) : Prop :=
  Raises (fun _ => True) TypeError.Explained action

theorem Explains.lift (action : StateM Store α) : Explains (liftM action) :=
  Raises.lift fun _ _ => trivial

/-- The errors of linking variables and requiring something of them: the store is broken, a type
lacks a capability, or a variable would occur in what it is linked to. -/
inductive TypeError.OfLinking : TypeError → Prop where
  | fault {detail : String} (fault : StoreFault detail) : OfLinking (.internal detail)
  | lacking (shortfall : Shortfall) (type : String) : OfLinking (shortfall.toError type)
  | cyclic (var type : String) : OfLinking (.ofCause (.cyclicType var type))

theorem TypeError.OfLinking.explained (linking : error.OfLinking) : error.Explained := by
  cases linking with
  | fault fault => exact explained_of_fault fault
  | lacking shortfall type => exact explained_of_external rfl
  | cyclic var type => exact explained_of_external rfl

def TypeError.NoMismatch (error : TypeError) : Prop :=
  ∀ expected found context, error.cause ≠ .mismatch expected found context

theorem TypeError.OfLinking.noMismatch (linking : error.OfLinking) : error.NoMismatch := by
  intro expected found context same
  cases linking <;> cases same

abbrev Links {α : Type} (action : Infer α) : Prop :=
  Raises (fun _ => True) TypeError.OfLinking action

theorem Links.lift (action : StateM Store α) : Links (liftM action) :=
  Raises.lift fun _ _ => trivial

/-- The steps on type variables raise errors of linking only. -/
theorem compositional_raises {fault : TypeError → Prop}
    (linking : ∀ error : TypeError, error.OfLinking → fault error) :
    Compositional fun action => Raises (fun _ => True) fault action where
  ok := .ok
  andThen := .andThen
  get _ rest := .read fun store _ => rest store
  pruned _ := .lift fun _ _ => trivial
  occurring _ _ := .lift fun _ _ => trivial
  required var _ := by
    refine .read fun store _ => ?_
    split
    next => exact fun _ _ => ⟨trivial, trivial⟩
    next => exact .throw (linking _ (.fault (.requiredOfLinked var)))
    next => exact .throw (linking _ (.fault (.strange var.text)))
  linked var _ := by
    refine .read fun store _ => ?_
    split
    next => exact fun _ _ => ⟨trivial, trivial⟩
    next => exact .throw (linking _ (.fault (.linkedTwice var)))
    next => exact .throw (linking _ (.fault (.strange var.text)))
  offered required type := by
    unfold Store.checkOffered
    split
    next shortfall _ =>
      exact (Raises.lift fun _ _ => trivial).andThen fun _ =>
        .throw (linking _ (.lacking shortfall _))
    next => exact .ok ()
  cyclic var _ := (Raises.lift fun _ _ => trivial).andThen fun text =>
    .throw (linking _ (.cyclic var.text text))

theorem compositional_links : Compositional @Links := compositional_raises fun _ => id

theorem compositional_explains : Compositional @Explains :=
  compositional_raises fun _ => TypeError.OfLinking.explained

namespace Unification

open Store

def ShallowIfAny (registry : Option Registry) : Prop :=
  ∀ own, registry = some own → own.Shallow

/-- Units that differ are reported as such, if the definitions of their names are not too deep. -/
theorem unitMismatch_external {registry : Option Registry} {left right : InferredUnit}
    (shallow : ∀ own, registry = some own → own.ShallowUnit left.names ∧
      own.ShallowUnit right.names) : (unitMismatch registry left right).isInternal = false := by
  unfold unitMismatch
  split
  next own source target sourceGround targetGround =>
    have sourceNames : left.names = source := UnitTerm.names_of_ground? sourceGround
    have targetNames : right.names = target := UnitTerm.names_of_ground? targetGround
    obtain ⟨sourceShallow, targetShallow⟩ := shallow own rfl
    rw [sourceNames] at sourceShallow
    rw [targetNames] at targetShallow
    obtain ⟨factor, found⟩ := sourceShallow.conversionFactor targetShallow
    dsimp only
    rw [found]
    cases factor with
    | none => rfl
    | some factor => rfl
  next => rfl

/-- Units that differ are no types that differ. -/
theorem unitMismatch_noMismatch {registry : Option Registry} (left right : InferredUnit) :
    (unitMismatch registry left right).NoMismatch := by
  intro expected shown context
  unfold unitMismatch
  split
  next own source target _ _ =>
    dsimp only
    split
    next error failed =>
      obtain ⟨unit, _, canonical⟩ := Registry.exists_canonicalize_error failed
      intro same
      have internal := Registry.canonicalize_internal canonical
      rw [TypeError.isInternal, same] at internal
      cases internal
    next =>
      intro same
      cases same
    next =>
      intro same
      cases same
  next =>
    intro same
    cases same

private theorem mismatch_explains (left right : InferredType) :
    Explains (mismatch left right : Infer α) :=
  (Explains.lift (render left)).andThen fun _ => (Explains.lift (render right)).andThen fun _ =>
    .throw (TypeError.explained_of_external rfl)

private theorem linkUnit_links (var : UnitVar) (target : InferredUnit) :
    Links (linkUnit var target) := by
  refine .read fun store _ => ?_
  split
  next => exact fun _ _ => ⟨trivial, trivial⟩
  next => exact .throw (.fault (.unitLinkedTwice var))
  next => exact .throw (.fault (.strange var.text))

private theorem bindUnit_links (var : UnitVar) (value : InferredUnit) :
    Links (bindUnit var value) := by
  refine (Links.lift (pruneUnit value)).andThen fun value => ?_
  split
  · exact (Raises.throw (.cyclic _ _)).andThen fun _ => linkUnit_links var value
  · exact linkUnit_links var value

private theorem solveWithin_links (rounds : Nat) (quotient : InferredUnit) :
    Links (solveWithin rounds quotient) := by
  induction rounds generalizing quotient with
  | zero => exact .ok false
  | succ rounds ih =>
    rw [solveWithin]
    refine (Links.lift (pruneUnit quotient)).andThen fun quotient => ?_
    split
    next => exact .ok _
    next var number _ =>
      dsimp only
      split
      · exact (bindUnit_links var _).andThen fun _ => .ok true
      · split
        · exact .ok false
        · refine (Links.lift freshUnitVar).andThen fun fresh => ?_
          exact (bindUnit_links var _).andThen fun _ => ih quotient

variable {registry : Option Registry}

private theorem unifyUnits_raises {fault : TypeError → Prop}
    (linking : ∀ error : TypeError, error.OfLinking → fault error)
    (differ : ∀ left right, fault (unitMismatch registry left right)) (left right : InferredUnit) :
    Raises (fun _ => True) fault (unifyUnits registry left right) := by
  have reads {α : Type} (action : StateM Store α) :
      Raises (fun _ => True) fault (liftM action : Infer α) := .lift fun _ _ => trivial
  refine (reads (pruneUnit left)).andThen fun left => ?_
  refine (reads (pruneUnit right)).andThen fun right => ?_
  split
  · exact .ok ()
  · refine (reads (multiplyPower left right (-1))).andThen fun quotient => ?_
    refine ((solveWithin_links _ quotient).mono linking).andThen fun solved => ?_
    split
    · exact .ok ()
    · exact .throw (differ left right)

theorem unifyUnits_explains (shallow : ShallowIfAny registry) (left right : InferredUnit) :
    Explains (unifyUnits registry left right) := by
  refine unifyUnits_raises (fun _ => TypeError.OfLinking.explained) ?_ left right
  intro left right
  refine TypeError.explained_of_external (unitMismatch_external fun own same => ?_)
  exact ⟨(shallow own same).unit _, (shallow own same).unit _⟩

theorem unifyUnits_noMismatch (registry : Option Registry) (left right : InferredUnit) :
    Raises (fun _ => True) TypeError.NoMismatch (unifyUnits registry left right) :=
  unifyUnits_raises (fun _ => TypeError.OfLinking.noMismatch) unitMismatch_noMismatch left right

theorem unify_explains (shallow : ShallowIfAny registry) (left right : InferredType) :
    Explains (unify registry left right) := by
  refine .read fun store _ => ?_
  have within := compositional_explains.unifyWithin mismatch_explains (unifyUnits_explains shallow)
  refine (within _ left right).recover fun error explained => ?_
  refine (Explains.lift (render left)).andThen fun outer => ?_
  refine (Explains.lift (render right)).andThen fun other => ?_
  exact .throw (explained.withContext outer other)

end Unification

end SheetTypes
