import SheetTypes.Proofs.Store.Enforcement

/-!
Properties that pass from the parts of an action to the whole. Where such a property holds of the
few steps that requirements and links are made of, it holds of unification.
-/

set_option autoImplicit false

namespace SheetTypes

open Store Unification

namespace Unification

section Pruned

variable (registry : Option Registry) (levels : Nat) {left right : InferredType}

def unifyPruned (left right : InferredType) : Infer InferredType :=
  match left, right with
  | .var leftVar, .var rightVar =>
    if leftVar = rightVar then return left else mergeVars leftVar rightVar
  | .var leftVar, right => bindVar leftVar right
  | left, .var rightVar => bindVar rightVar left
  | left, right =>
    match decompose left right with
    | none => mismatch left right
    | some equations => do
        solveEquations registry (unifyWithin registry levels) left right equations
        return left

theorem unifyWithin_succ (left right : InferredType) :
    unifyWithin registry (levels + 1) left right = (do
      let left ← prune left
      let right ← prune right
      unifyPruned registry levels left right) := rfl

theorem unifyPruned_var_left (var : TypeVar) (compound : right.isVar = false) :
    unifyPruned registry levels (.var var) right = bindVar var right := by
  cases right with
  | var name => cases compound
  | _ => rfl

theorem unifyPruned_var_right (var : TypeVar) (compound : left.isVar = false) :
    unifyPruned registry levels left (.var var) = bindVar var left := by
  cases left with
  | var name => cases compound
  | _ => rfl

theorem unifyPruned_compound (leftCompound : left.isVar = false)
    (rightCompound : right.isVar = false) :
    unifyPruned registry levels left right =
      (decompose left right).elim (mismatch left right) fun equations => do
        solveEquations registry (unifyWithin registry levels) left right equations
        return left := by
  rw [unifyPruned]
  · cases decompose left right <;> rfl
  · exact TypeTerm.ne_var leftCompound
  · exact TypeTerm.ne_var rightCompound
  · intro var _ same
    exact absurd same (TypeTerm.ne_var leftCompound var)

end Pruned

theorem discard_bind {ε σ α β : Type} (action : Attempt ε σ α) (next : Unit → Attempt ε σ β) :
    (discard action >>= next : Attempt ε σ β) = action >>= fun _ => next () := by
  unfold Functor.discard
  rw [map_const]
  exact bind_map_left ..

end Unification

/-- A property that passes from the parts of an action to the whole, and that the steps on type
variables have. -/
structure Compositional (holds : ∀ {α : Type}, Infer α → Prop) : Prop where
  ok {α : Type} (value : α) : holds (pure value : Infer α)
  andThen {α β : Type} {action : Infer α} {next : α → Infer β} (first : holds action)
    (rest : ∀ value, holds (next value)) : holds (action >>= next)
  get {β : Type} {next : Store → Infer β}
    (reads : ∀ store, next store = next ⟨store.types, #[], true⟩)
    (rest : ∀ store, holds (next store)) : holds (MonadState.get >>= next)
  pruned (type : InferredType) : holds (liftM (prune type) : Infer InferredType)
  occurring (var : TypeVar) (type : InferredType) : holds (liftM (occurs var type) : Infer Bool)
  required (var : TypeVar) (extra : Requirements) : holds (addRequirements var extra)
  linked (var : TypeVar) (target : InferredType) : holds (linkType var target)
  offered (required : Requirements) (type : InferredType) : holds (checkOffered required type)
  cyclic {α : Type} (var : TypeVar) (type : InferredType) :
    holds (do throw (.ofCause (.cyclicType var.text (← render type))) : Infer α)

namespace Compositional

variable {holds : ∀ {α : Type}, Infer α → Prop} (steps : Compositional @holds)

include steps

private theorem forM {α : Type} {items : List α} {visit : α → Infer PUnit}
    (each : ∀ item ∈ items, holds (visit item)) : holds (items.forM visit) := by
  induction items with
  | nil => exact steps.ok _
  | cons item items ih =>
    obtain ⟨here, others⟩ := List.forall_mem_cons.mp each
    exact steps.andThen here fun _ => ih others

private theorem enforceTerm {onVar : TypeVar → Infer Unit} (vars : ∀ var, holds (onVar var))
    (required : Requirements) (type : InferredType) :
    holds (Store.enforceTerm onVar required type) := by
  induction type using TypeTerm.induction_children with
  | step type ih =>
    rcases type.var_or_compound with ⟨var, rfl⟩ | compound
    · exact vars var
    · rw [enforceTerm_children onVar compound]
      refine steps.andThen (steps.offered required type) fun _ => ?_
      split
      · exact steps.forM ih
      · exact steps.ok ()

private theorem enforceVar (required : Requirements) (links : Nat) (var : TypeVar) :
    holds (Store.enforceVar required links var) := by
  induction links generalizing var with
  | zero => exact steps.ok ()
  | succ links ih =>
    refine steps.andThen (steps.pruned (.var var)) fun type => ?_
    cases type with
    | var last => exact steps.required last required
    | _ => exact steps.enforceTerm ih required _

theorem enforce (required : Requirements) (type : InferredType) :
    holds (Store.enforce required type) := by
  unfold Store.enforce
  split
  · exact steps.ok ()
  · exact steps.get (fun _ => rfl) fun _ =>
      steps.enforceTerm (steps.enforceVar required _) required type

theorem mergeVars (left right : TypeVar) : holds (Unification.mergeVars left right) := by
  unfold Unification.mergeVars
  split
  next survivor linked _ =>
    refine steps.get (fun _ => rfl) fun store => ?_
    refine steps.andThen (steps.required survivor _) fun _ => ?_
    exact steps.andThen (steps.linked linked (.var survivor)) fun _ => steps.ok _

theorem bindVar (var : TypeVar) (type : InferredType) :
    holds (Unification.bindVar var type) := by
  refine steps.andThen (steps.occurring var type) fun found => ?_
  cases found with
  | true => exact steps.cyclic var type
  | false =>
    refine steps.get (fun _ => rfl) fun store => ?_
    refine steps.andThen (steps.enforce _ type) fun _ => ?_
    exact steps.andThen (steps.linked var type) fun _ => steps.ok type

section Unify

variable {registry : Option Registry}
  (mismatched : ∀ {α : Type} left right, holds (mismatch left right : Infer α))
  (units : ∀ left right, holds (unifyUnits registry left right))

include mismatched units

private theorem solveEquations {unifyTypes : InferredType → InferredType → Infer InferredType}
    (recursion : ∀ left right, holds (unifyTypes left right)) (left right : InferredType)
    (equations : List Equation) :
    holds (Unification.solveEquations registry unifyTypes left right equations) := by
  induction equations with
  | nil => exact steps.ok ()
  | cons equation equations ih =>
    cases equation with
    | types first second =>
      rw [Unification.solveEquations, discard_bind]
      exact steps.andThen (recursion first second) fun _ => ih
    | units first second => exact steps.andThen (units first second) fun _ => ih
    | clash => exact mismatched left right

private theorem unifyPruned {levels : Nat}
    (recursion : ∀ left right, holds (Unification.unifyWithin registry levels left right))
    (left right : InferredType) :
    holds (Unification.unifyPruned registry levels left right) := by
  rcases left.var_or_compound with ⟨leftVar, rfl⟩ | leftCompound
  · rcases right.var_or_compound with ⟨rightVar, rfl⟩ | rightCompound
    · rw [Unification.unifyPruned]
      split
      · exact steps.ok _
      · exact steps.mergeVars leftVar rightVar
    · rw [unifyPruned_var_left registry levels leftVar rightCompound]
      exact steps.bindVar leftVar right
  · rcases right.var_or_compound with ⟨rightVar, rfl⟩ | rightCompound
    · rw [unifyPruned_var_right registry levels rightVar leftCompound]
      exact steps.bindVar rightVar left
    · rw [unifyPruned_compound registry levels leftCompound rightCompound]
      cases decompose left right with
      | none => exact mismatched left right
      | some equations =>
        exact steps.andThen (steps.solveEquations mismatched units recursion left right equations)
          fun _ => steps.ok left

theorem unifyWithin (levels : Nat) (left right : InferredType) :
    holds (Unification.unifyWithin registry levels left right) := by
  induction levels generalizing left right with
  | zero => exact mismatched left right
  | succ levels ih =>
    rw [unifyWithin_succ]
    exact steps.andThen (steps.pruned left) fun left => steps.andThen (steps.pruned right)
      fun right => steps.unifyPruned mismatched units ih left right

end Unify

end Compositional

end SheetTypes
