import SheetTypes.Proofs.Concrete.Form
import SheetTypes.Proofs.Store.Enforcement

/-!
Concrete types of inferred types. In a well formed store, links are never found to run in a circle.
Where a capability is required of all that a type stands for, its concrete type has neither a
function nor `VOID` in it.
-/

set_option autoImplicit false

namespace SheetTypes

namespace TypeTerm

variable {ν υ : Type}

/-- Whether a type has no function in it, and only the given variables. -/
def Plain (vars : ν → Prop) (type : TypeTerm ν υ) : Prop :=
  type.hasFunction = false ∧ ∀ var, type.HasVar var → vars var

variable {vars : ν → Prop}

theorem Plain.substitute {μ ω : Type} {onVar : ν → TypeTerm μ ω} {onUnit : υ → ω}
    {inner : μ → Prop} {type : TypeTerm ν υ} (plain : type.Plain vars)
    (inside : ∀ var, type.HasVar var → vars var → (onVar var).Plain inner) :
    (type.substitute onVar onUnit).Plain inner := by
  refine ⟨?_, fun name has => ?_⟩
  · rw [Bool.eq_false_iff, ne_eq, hasFunction_substitute, plain.1]
    rintro (impossible | ⟨var, has, found⟩)
    · cases impossible
    · rw [(inside var has (plain.2 var has)).1] at found
      cases found
  · obtain ⟨var, own, found⟩ := hasVar_substitute.mp has
    exact (inside var own (plain.2 var own)).2 name found

end TypeTerm

namespace Store

open TypeTerm

variable {registry : Registry} {onVar : TypeVar → Except TypeError ConcreteType}
  {onUnit : InferredUnit → Except TypeError GroundUnit} {determined : TypeVar → Prop}
  {fault : TypeError → Prop} {links : Nat} {type : InferredType} {var : TypeVar}

abbrev Plainly (determined : TypeVar → Prop) (type : InferredType) (result : ConcreteType) : Prop :=
  type.Plain determined → result.Plain fun _ => False

private theorem definitionFor_results
    (external : ∀ error : TypeError, error.isInternal = false → fault error) (name : String)
    (count : Nat) :
    Results fault (fun _ => True) (registry.definitionFor name count) := by
  unfold Registry.definitionFor
  split
  · exact external _ rfl
  · split
    · trivial
    · exact external _ rfl

theorem concreteTerm_results
    (external : ∀ error : TypeError, error.isInternal = false → fault error)
    (units : ∀ unit, Results fault (fun _ => True) (onUnit unit))
    (vars : ∀ var, type.HasVar var →
      Results fault (fun result => determined var → result.Plain fun _ => False) (onVar var)) :
    Results fault (Plainly determined type) (concreteTerm registry onVar onUnit type) := by
  have faults : Results fault (fun _ => True) (concreteTerm registry onVar onUnit type) :=
    concreteTerm_faults (definitionFor_results external) (fun _ _ => external _ rfl)
      (fun var has => (vars var has).mono fun _ _ => trivial) fun unit _ => units unit
  cases done : concreteTerm registry onVar onUnit type with
  | error error =>
    rw [done] at faults
    exact faults
  | ok result =>
    intro plain
    obtain ⟨ready, rfl⟩ := (concreteTerm_eq_ok result).mp done
    refine plain.substitute fun var has known => ?_
    obtain ⟨made, own⟩ := ready.1 var has
    have here := vars var has
    rw [own] at here
    rw [except_getD_of_ok own]
    exact here known

variable {store : Store} {allowDefaults : Bool}

theorem multiplyGround_results {meaning : UnitVar → Except TypeError GroundUnit}
    {powers : List (UnitVar × Int)} (product : GroundUnit)
    (each : ∀ power ∈ powers, Results fault (fun _ => True) (meaning power.1)) :
    Results fault (fun _ => True) (multiplyGround meaning product powers) := by
  induction powers generalizing product with
  | nil => trivial
  | cons power powers ih =>
    obtain ⟨here, others⟩ := List.forall_mem_cons.mp each
    exact here.andThen fun value _ => ih _ others

theorem checkUnit_results
    (external : ∀ error : TypeError, error.isInternal = false → fault error) (unit : GroundUnit) :
    Results fault (fun _ => True) (registry.checkUnit unit) := by
  unfold Registry.checkUnit
  split
  · exact external _ rfl
  · trivial

private theorem unboundUnit_results (var : UnitVar) :
    Results Harmless (fun _ => True)
      (if allowDefaults then .ok (.one : GroundUnit) else .error (ambiguous var.text [])) := by
  split
  · trivial
  · exact TypeError.not_blamesStore rfl

private theorem groundUnitVar_results {rank : UnitVar → Nat} (ranking : store.UnitRanking rank)
    {var : UnitVar} (within : rank var ≤ links) :
    Results Harmless (fun _ => True) (store.groundUnitVar allowDefaults links var) := by
  induction links generalizing var with
  | zero =>
    rw [groundUnitVar]
    cases linked : store.unitLink? var with
    | none => exact unboundUnit_results var
    | some target =>
      have positive := ranking.positive var (isUnitBound_iff.mpr ⟨target, linked⟩)
      omega
  | succ links ih =>
    rw [groundUnitVar]
    cases linked : store.unitLink? var with
    | none => exact unboundUnit_results var
    | some target =>
      refine multiplyGround_results _ fun power member => ih ?_
      have inside := PowerProduct.mem_keys_of_toList member
      have lower := ranking.below var power.1 ⟨target, linked, inside⟩
      omega

private theorem groundUnit_results (wellformed : store.Wellformed) (unit : InferredUnit) :
    Results Harmless (fun _ => True) (store.groundUnit registry allowDefaults unit) := by
  obtain ⟨rank, ranking, small⟩ := wellformed.exists_unitRanking
  refine (multiplyGround_results _ fun power _ =>
    groundUnitVar_results ranking (small power.1)).andThen fun ground _ => ?_
  exact (checkUnit_results (fun _ => TypeError.not_blamesStore) ground).andThen fun _ _ => trivial

theorem Carries.plain {capability origin : String}
    (carried : store.Carries capability origin type) :
    type.Plain fun var => store.Carries capability origin (.var var) := by
  obtain ⟨functions, vars⟩ := carried
  rw [shape_eq_substitute, Bool.eq_false_iff, ne_eq, hasFunction_substitute] at functions
  push Not at functions
  refine ⟨Bool.eq_false_iff.mpr functions.1, fun var has => ⟨?_, fun inner inside => ?_⟩⟩
  · exact Bool.eq_false_iff.mpr (functions.2 var has)
  · exact vars inner (hasVar_shape.mpr ⟨var, has, inside⟩)

private theorem unboundVar_results (capability origin : String)
    (free : store.typeLink? var = none) :
    let required := ((store.requirements? var).getD .none).names
    Results Harmless
      (fun result => store.Carries capability origin (.var var) → result.Plain fun _ => False)
      (if allowDefaults && required.isEmpty then .ok ConcreteType.void
        else .error (ambiguous var.text required)) := by
  intro required
  split
  next defaults =>
    intro carried
    have inside : (store.shape (.var var)).HasVar var := by
      rw [shape_unbound free]
      exact List.mem_singleton_self _
    obtain ⟨requirements, found, member⟩ := carried.2 var inside
    have names := Requirements.mem_names_of_origin member
    have nothing : requirements.names = [] := by
      simpa [required, found] using (Bool.and_eq_true_iff.mp defaults).2
    rw [nothing] at names
    cases names
  next => exact TypeError.not_blamesStore rfl

private theorem concreteVar_results (wellformed : store.Wellformed) {rank : TypeVar → Nat}
    (ranking : store.TypeRanking rank) (capability origin : String) (within : rank var ≤ links) :
    Results Harmless
      (fun result => store.Carries capability origin (.var var) → result.Plain fun _ => False)
      (store.concreteVar registry allowDefaults links var) := by
  induction links generalizing var with
  | zero =>
    rw [concreteVar]
    cases linked : store.typeLink? var with
    | none => exact unboundVar_results capability origin linked
    | some target =>
      have positive := ranking.positive var (isTypeBound_iff.mpr ⟨target, linked⟩)
      omega
  | succ links ih =>
    rw [concreteVar]
    cases linked : store.typeLink? var with
    | none => exact unboundVar_results capability origin linked
    | some target =>
      refine (concreteTerm_results (fun _ => TypeError.not_blamesStore)
        (groundUnit_results wellformed) fun next has => ih ?_).mono
          fun result made carried => made (Carries.plain ?_)
      · have lower := ranking.below var next ⟨target, linked, has⟩
        omega
      · unfold Carries at carried
        rwa [wellformed.shape_link linked] at carried

/-- The concrete type of what a requirement has been passed on to has neither a function nor `VOID`
in it. An error that blames the store is not met. -/
theorem concretize_results (wellformed : store.Wellformed) (registry : Registry)
    (allowDefaults : Bool) (capability origin : String) (type : InferredType) :
    Results Harmless
      (fun result => store.Carries capability origin type → result.Plain fun _ => False)
      (store.concretize registry allowDefaults type) := by
  obtain ⟨rank, ranking, small⟩ := wellformed.exists_typeRanking
  refine (concreteTerm_results (fun _ => TypeError.not_blamesStore) (groundUnit_results wellformed)
    fun var _ => concreteVar_results wellformed ranking capability origin (small var)).mono ?_
  exact fun result made carried => made carried.plain

theorem concretize_harmless (wellformed : store.Wellformed) (registry : Registry)
    (allowDefaults : Bool) (type : InferredType) :
    Results Harmless (fun _ => True) (store.concretize registry allowDefaults type) :=
  (concretize_results wellformed registry allowDefaults "" "" type).mono fun _ _ => trivial

end Store

end SheetTypes
