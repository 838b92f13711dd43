import SheetTypes.Proofs.Session.Reachability
import SheetTypes.Proofs.Unification.Failures

/-!
How operations of a session fail. Wherever an internal error could come from, it blames the store or
the registry of units. The store of a session is never to blame, so that no internal error is ever
met as long as the definitions of the registry are not too deep.
-/

set_option autoImplicit false

namespace SheetTypes

open Store Unification

def FailsExternally {α : Type} (action : Instantiating α) : Prop :=
  ∀ bindings store, Results (fun error => error.isInternal = false) (fun _ => True)
    ((action bindings : StateM Store _) store).1.1

namespace FailsExternally

variable {α β : Type} {action : Instantiating α}

theorem ok (value : α) : FailsExternally (pure value) := fun _ _ => trivial

theorem throw {error : TypeError} (external : error.isInternal = false) :
    FailsExternally (throw error : Instantiating α) :=
  fun _ _ => external

theorem lift (step : StateM Store α) : FailsExternally (liftM step) := fun _ _ => trivial

theorem andThen {next : α → Instantiating β} (first : FailsExternally action)
    (rest : ∀ value, FailsExternally (next value)) : FailsExternally (action >>= next) := by
  intro bindings store
  have begins := first bindings store
  rw [instantiating_bind_apply]
  generalize (action bindings : StateM Store _) store = result at begins
  obtain ⟨⟨found, later⟩, after⟩ := result
  cases found with
  | error error => exact begins
  | ok value => exact rest value later after

end FailsExternally

namespace Template

private theorem instantiateUnitVar_external (name : String) :
    FailsExternally (instantiateUnitVar name) := by
  intro bindings store
  cases found : bindings.units.lookup name with
  | some unit =>
    rw [instantiateUnitVar_of_bound found]
    trivial
  | none =>
    rw [instantiateUnitVar_of_unbound found]
    trivial

private theorem instantiateTypeVar_external (name : String) :
    FailsExternally (instantiateTypeVar name) := by
  intro bindings store
  cases found : bindings.types.lookup name with
  | some type =>
    rw [instantiateTypeVar_of_bound found]
    trivial
  | none =>
    rw [instantiateTypeVar_of_unbound found]
    trivial

private theorem instantiateUnit_external (unit : UnitTemplate) :
    FailsExternally (instantiateUnit unit) := by
  have powers (product : InferredUnit) (list : List (String × Int)) :
      FailsExternally (instantiatePowers product list) := by
    induction list generalizing product with
    | nil => exact .ok product
    | cons power list ih =>
      obtain ⟨name, number⟩ := power
      rw [instantiatePowers]
      refine (instantiateUnitVar_external name).andThen fun unit => ?_
      exact (FailsExternally.lift (multiplyPower product unit number)).andThen fun _ => ih _
  exact powers _ _

variable {label : String}

private theorem instantiateFields_external {fields : List (String × Template)}
    (each : ∀ field ∈ fields, ∀ node, FailsExternally (instantiateNode label node field.2))
    (record node : Nat) (done : List (String × InferredType)) :
    FailsExternally (instantiateFields label record node done fields) := by
  induction fields generalizing node done with
  | nil => exact .ok done
  | cons field fields ih =>
    obtain ⟨name, type⟩ := field
    obtain ⟨here, others⟩ := List.forall_mem_cons.mp each
    rw [instantiateFields]
    refine (here node).andThen fun made => ?_
    split
    · exact (FailsExternally.throw rfl).andThen fun _ => ih others _ _
    · exact ih others _ _

private theorem instantiateOperands_external {operands : List (Operand Template UnitTemplate)}
    (each : ∀ value, .type value ∈ operands →
      ∀ node, FailsExternally (instantiateNode label node value))
    (node : Nat) : FailsExternally (instantiateOperands label node operands) := by
  induction operands generalizing node with
  | nil => exact .ok []
  | cons operand operands ih =>
    have others := ih fun value member => each value (List.mem_cons_of_mem _ member)
    cases operand with
    | type value =>
      rw [instantiateOperands]
      exact (each value (List.mem_cons_self ..) node).andThen fun made =>
        (others _).andThen fun rest => .ok _
    | unit value =>
      rw [instantiateOperands]
      exact (instantiateUnit_external value).andThen fun made =>
        (others _).andThen fun rest => .ok _

private theorem instantiateNode_external (template : Template) (node : Nat) :
    FailsExternally (instantiateNode label node template) := by
  induction template using TypeTerm.induction_plain generalizing node with
  | var name => exact instantiateTypeVar_external name
  | record fields ih =>
    rw [instantiateNode]
    exact (instantiateFields_external ih _ _ _).andThen fun _ => .ok _
  | plain template plain ih =>
    rw [instantiateNode_eq plain]
    exact (instantiateOperands_external (fun value member => ih value
      (TypeTerm.mem_children.mpr member)) _).andThen fun _ => .ok _

theorem instantiate_external (label : String) (template : Template) :
    FailsExternally (template.instantiate label) :=
  instantiateNode_external template 0

end Template

namespace Store

variable {registry : Registry} {store : Store} {allowDefaults : Bool}

private theorem default_explained {α : Type} (allowed : Bool) (value : α) (var : String)
    (requirements : List String) :
    Results TypeError.Explained (fun _ => True)
      (if allowed then .ok value else .error (ambiguous var requirements)) := by
  split
  · trivial
  · exact TypeError.explained_of_external rfl

private theorem groundUnitVar_explained (links : Nat) (var : UnitVar) :
    Results TypeError.Explained (fun _ => True) (store.groundUnitVar allowDefaults links var) := by
  induction links generalizing var with
  | zero =>
    rw [groundUnitVar]
    split
    next => exact default_explained _ _ _ _
    next => exact TypeError.explained_of_fault (.unitCircle var)
  | succ links ih =>
    rw [groundUnitVar]
    split
    next => exact default_explained _ _ _ _
    next => exact multiplyGround_results _ fun power _ => ih power.1

private theorem groundUnit_explained (unit : InferredUnit) :
    Results TypeError.Explained (fun _ => True) (store.groundUnit registry allowDefaults unit) := by
  refine (multiplyGround_results _ fun power _ => groundUnitVar_explained _ power.1).andThen
    fun ground _ => ?_
  exact (checkUnit_results (fun _ => TypeError.explained_of_external) ground).andThen
    fun _ _ => trivial

private theorem concreteTerm_explained {onVar : TypeVar → Except TypeError ConcreteType}
    (vars : ∀ var, Results TypeError.Explained (fun _ => True) (onVar var)) (type : InferredType) :
    Results TypeError.Explained (fun _ => True)
      (concreteTerm registry onVar (store.groundUnit registry allowDefaults) type) := by
  have results : Results TypeError.Explained (Plainly (fun _ => False) type)
      (concreteTerm registry onVar (store.groundUnit registry allowDefaults) type) :=
    concreteTerm_results (fun _ => TypeError.explained_of_external) groundUnit_explained
      fun var _ => (vars var).mono fun _ _ nothing => nothing.elim
  exact results.mono fun _ _ => trivial

private theorem concreteVar_explained (links : Nat) (var : TypeVar) :
    Results TypeError.Explained (fun _ => True)
      (store.concreteVar registry allowDefaults links var) := by
  induction links generalizing var with
  | zero =>
    rw [concreteVar]
    split
    next => exact default_explained _ _ _ _
    next => exact TypeError.explained_of_fault (.typeCircle var)
  | succ links ih =>
    rw [concreteVar]
    split
    next => exact default_explained _ _ _ _
    next target _ => exact concreteTerm_explained ih target

theorem concretize_explained (type : InferredType) :
    Results TypeError.Explained (fun _ => True) (store.concretize registry allowDefaults type) :=
  concreteTerm_explained (concreteVar_explained _) type

end Store

def Failure.isInternal : Failure → Bool
  | .error found => found.isInternal
  | .abort _ => true

/-- A failure that is internal only if the store is broken. -/
def Failure.Explained (failure : Failure) : Prop := failure.isInternal = true → failure.BlamesStore

namespace TypeError.Explained

variable {error : TypeError}

theorem failure (explained : error.Explained) : (Failure.error error).Explained := explained

theorem escalate (explained : error.Explained) (abortOnInternal : Bool) :
    (error.escalate abortOnInternal).Explained := by
  unfold TypeError.escalate
  split
  next internal =>
    intro _
    obtain ⟨detail, cause, fault⟩ := explained (Bool.and_eq_true_iff.mp internal).1
    exact ⟨detail, congrArg Cause.message cause, fault⟩
  next => exact explained

theorem atPlaces (explained : error.Explained) (places : List Place) :
    (error.atPlaces places).Explained := by
  unfold TypeError.Explained isInternal
  rw [cause_atPlaces, blamesStore_atPlaces]
  exact explained

end TypeError.Explained

namespace Session

variable {α : Type} {registry : Registry} {action : Infer α}

abbrev Explains (registry : Registry) (action : Checking α) : Prop :=
  Raises (fun session : Session => session.registry = registry) Failure.Explained action

theorem explains_onStore (action : StateM Store α) :
    Explains registry (onStore action : Checking α) :=
  fun _ same => ⟨same, trivial⟩

theorem explains_escalate {result : Except TypeError α}
    (explained : Results TypeError.Explained (fun _ => True) result) :
    Explains registry (escalate result) := by
  cases result with
  | ok value => exact .ok value
  | error error => exact .read fun session _ => .throw (explained.escalate _)

theorem explains_inferEscalating (explains : SheetTypes.Explains action) :
    Explains registry (inferEscalating action) :=
  Raises.lift_andThen (fun session same => ⟨same, (explains session.store trivial).2⟩)
    fun _ => explains_escalate

theorem explains_infer (explains : SheetTypes.Explains action) :
    Explains registry (infer action) := by
  refine Raises.lift_andThen (fun session same => ⟨same, (explains session.store trivial).2⟩)
    fun result explained => ?_
  cases result with
  | ok value => exact .ok value
  | error error => exact .throw explained

theorem explains_freshType (requirements : Requirements) :
    Explains registry (liftM (freshType requirements)) :=
  Raises.lift fun _ same => same

theorem explains_discard {action : Checking α} (explains : Explains registry action) :
    Explains registry (discard action : Checking PUnit) :=
  explains.andThen fun _ => .ok ()

variable (shallow : registry.Shallow)
include shallow

theorem explains_unify (left right : InferredType) : Explains registry (unify left right) := by
  refine .read fun session same => explains_inferEscalating (unify_explains ?_ left right)
  rintro own found
  cases found
  rw [same]
  exact shallow

theorem explains_unifyAt (places : List Place) (left right : InferredType) :
    Explains registry (unifyAt places left right) := by
  refine (explains_unify shallow left right).recover fun failure explained => ?_
  cases failure with
  | error error => exact .throw (TypeError.Explained.atPlaces explained places).failure
  | abort message => exact .throw explained

theorem explains_unifyUnits (left right : InferredUnit) :
    Explains registry (unifyUnits left right) := by
  refine .read fun session same => explains_inferEscalating (unifyUnits_explains ?_ left right)
  rintro own found
  cases found
  rw [same]
  exact shallow

theorem explains_unifyPairs (params arguments : List InferredType) :
    Explains registry (unifyPairs params arguments) := by
  induction params generalizing arguments with
  | nil => exact .ok ()
  | cons param params ih =>
    cases arguments with
    | nil => exact .ok ()
    | cons argument arguments =>
      exact (explains_discard (explains_unify shallow param argument)).andThen
        fun _ => ih arguments

theorem explains_apply (function : InferredType) (arguments : List InferredType) :
    Explains registry (apply function arguments) := by
  refine (explains_onStore (prune function)).andThen fun pruned => ?_
  cases pruned with
  | var var =>
    refine (explains_freshType .none).andThen fun result => ?_
    refine (explains_discard (explains_unify shallow _ _)).andThen fun _ => ?_
    exact explains_onStore (prune result)
  | function params result =>
    dsimp only
    split
    · refine (explains_onStore (render _)).andThen fun name => ?_
      refine (Raises.throw (TypeError.explained_of_external rfl).failure).andThen fun _ => ?_
      exact (explains_unifyPairs shallow params arguments).andThen fun _ =>
        explains_onStore (prune result)
    · exact (explains_unifyPairs shallow params arguments).andThen fun _ =>
      explains_onStore (prune result)
  | _ =>
    exact (explains_onStore (render _)).andThen fun _ =>
      .throw (TypeError.explained_of_external rfl).failure

omit shallow

abbrev ExplainsWith (registry : Registry) (bindings : Bindings) (action : Annotating α) : Prop :=
  Ensures (fun session : Session => session.registry = registry) (action.run.run bindings)
    fun result => Results Failure.Explained (fun _ => True) result.1

theorem explains_instantiateWith (label : String) (template : Template) (bindings : Bindings) :
    ExplainsWith registry bindings (instantiateWith label template) := by
  intro session same
  have external := template.instantiate_external label bindings session.store
  have explained : Results TypeError.Explained (fun _ => True)
      ((template.instantiate label bindings : StateM Store _) session.store).1.1 := by
    generalize ((template.instantiate label bindings : StateM Store _) session.store).1.1 = result
      at external
    cases result with
    | ok type => trivial
    | error error => exact TypeError.explained_of_external external
  have escalated : Explains registry (escalate
      ((template.instantiate label bindings : StateM Store _) session.store).1.1) :=
    explains_escalate explained
  exact escalated { session with store := _ } same

theorem explains_annotating {bindings : Bindings} {action : Annotating α}
    (explains : ExplainsWith registry bindings action) :
    Explains registry (Operation.annotating bindings action) := by
  refine explains.bind fun result explained => .pure ?_
  obtain ⟨outcome, later⟩ := result
  cases outcome with
  | ok value => trivial
  | error failure => exact explained

theorem freshOperands_registry (params : List Parameter) (bindings : Bindings)
    (session : Session) :
    (freshOperands params bindings session).2.registry = session.registry := by
  induction params generalizing bindings session with
  | nil => rfl
  | cons param params ih =>
    cases param with
    | type name => exact ih _ _
    | unit name => exact ih _ _

theorem explains_tagConstructor (typeName tagName : String) :
    Explains registry (tagConstructor typeName tagName) := by
  refine .read fun session same => ?_
  dsimp only
  split
  next => exact .throw (TypeError.explained_of_external rfl).failure
  next definition _ =>
    split
    next => exact .throw (TypeError.explained_of_external rfl).failure
    next tag _ =>
      refine (Raises.lift fun session same =>
        (freshOperands_registry definition.params .empty session).trans same).andThen fun made => ?_
      split
      next => exact .ok _
      next payload _ =>
        refine Raises.lift_andThen (explains_instantiateWith (definition.payloadLabel tag) payload
          made.2) fun result explained => ?_
        have unpacked : Explains registry (ExceptT.mk (pure result.1)) :=
          Ensures.pure explained
        exact unpacked.andThen fun type => .ok _

theorem explains_field (type : InferredType) (name : String) :
    Explains registry (field type name) := by
  refine (explains_onStore (prune type)).andThen fun pruned => ?_
  cases pruned with
  | record fields =>
    dsimp only
    split
    next => exact .ok _
    next =>
      exact (explains_onStore (render type)).andThen fun _ =>
        .throw (TypeError.explained_of_external rfl).failure
  | var var => exact .throw (TypeError.explained_of_external rfl).failure
  | _ =>
    exact (explains_onStore (render _)).andThen fun _ =>
      .throw (TypeError.explained_of_external rfl).failure

theorem explains_concretize (type : InferredType) : Explains registry (concretize type) :=
  .read fun _ _ => explains_escalate (concretize_explained type)

theorem explains_concretizeTemplate (label : String) (template : Template) (bindings : Bindings) :
    ExplainsWith registry bindings (concretizeTemplate label template) := by
  refine (explains_instantiateWith label template bindings).bind fun instantiated explained => ?_
  obtain ⟨outcome, later⟩ := instantiated
  cases outcome with
  | error failure => exact .pure explained
  | ok type =>
    refine Ensures.bind (explains_concretize type) fun outcome explained => ?_
    cases outcome with
    | ok result => exact .pure trivial
    | error failure =>
      cases failure with
      | error error =>
        exact .pure (TypeError.Explained.atPlaces explained [.node label 0]).failure
      | abort message => exact .pure explained

theorem explains_construct (shallow : registry.Shallow) (typeName tagName : String)
    (payload : Option InferredType) :
    Explains registry (construct typeName tagName payload) := by
  refine (explains_tagConstructor typeName tagName).andThen fun made => ?_
  obtain ⟨constructed, expected⟩ := made
  have resolves : Explains registry (liftM (resolve constructed)) := Raises.lift fun _ same => same
  have refused (expected found : Nat) : Explains registry (do
      throw (.error (.ofCause (.arityMismatch (typeName ++ "." ++ tagName) expected found)))
      liftM (resolve constructed)) :=
    (Raises.throw (TypeError.explained_of_external rfl).failure).andThen fun _ => resolves
  cases expected with
  | none =>
    cases payload with
    | none => exact resolves
    | some type => exact refused _ _
  | some expected =>
    cases payload with
    | none => exact refused _ _
    | some type =>
      exact (explains_discard (explains_unify shallow expected type)).andThen fun _ => resolves

def Operation.UsesShallow : Operation → Prop
  | unifyUsing registry _ _ | unifyUnitsUsing registry _ _ => ShallowIfAny registry
  | _ => True

theorem explains_perform (shallow : registry.Shallow) (operation : Operation)
    (own : operation.UsesShallow) : Explains registry operation.perform := by
  cases operation with
  | freshType requirements => exact explains_discard (explains_freshType requirements)
  | freshUnit => exact explains_discard (Raises.lift fun _ same => same)
  | instantiate label template =>
    have made : Explains registry (Session.instantiate label template) :=
      (explains_instantiateWith label template .empty).bind fun _ explained => .pure explained
    exact explains_discard made
  | instantiateWith label template bindings =>
    exact explains_annotating (explains_instantiateWith label template bindings)
  | unify left right => exact explains_discard (explains_unify shallow left right)
  | unifyAt places left right => exact explains_discard (explains_unifyAt shallow places left right)
  | unifyUsing registry left right =>
    exact explains_discard (explains_infer (unify_explains own left right))
  | unifyUnits left right => exact explains_unifyUnits shallow left right
  | unifyUnitsUsing registry left right => exact explains_infer (unifyUnits_explains own left right)
  | require type capability origin =>
    exact explains_inferEscalating (compositional_explains.enforce (.single capability origin) type)
  | enforce required type => exact explains_infer (compositional_explains.enforce required type)
  | offers type capability =>
    exact explains_discard (explains_onStore (Store.offers type capability))
  | apply function arguments => exact explains_discard (explains_apply shallow function arguments)
  | tagConstructor typeName tagName => exact explains_discard (explains_tagConstructor _ _)
  | construct typeName tagName payload =>
    exact explains_discard (explains_construct shallow typeName tagName payload)
  | field type name => exact explains_discard (explains_field type name)
  | resolve type => exact explains_discard (Raises.lift fun _ same => same)
  | render type => exact explains_discard (explains_onStore (Store.render type))
  | prune type => exact explains_discard (explains_onStore (Store.prune type))
  | pruneUnit unit => exact explains_discard (explains_onStore (Store.pruneUnit unit))
  | renderUnit unit => exact explains_discard (explains_onStore (Store.renderUnit unit))
  | concretize type => exact explains_discard (explains_concretize type)
  | concretizeUsing registry allowDefaults type =>
    refine .read fun session _ => explains_discard (explains_infer ?_)
    exact Ensures.pure (concretize_explained type)
  | concretizeTemplate label template bindings =>
    exact explains_annotating (explains_concretizeTemplate label template bindings)
  | report error => exact Raises.lift fun _ same => same

end Session

namespace Registry

open Session

/-- Expansion ends exactly if all rounds but the last leave no derived unit, and it does wherever
definitions lead at most 63 steps down. Then units can be converted or told apart, and no operation
of a session meets an internal error. -/
theorem canonicalize_within_depth (registry : Registry) :
    (∀ unit, (∃ form, registry.canonicalize unit = .ok form) ↔
      ∀ name ∈ (registry.expandOnce^[63] ⟨1, unit⟩).unit.keys, registry.isDerived name = false) ∧
    (∀ unit, registry.ShallowUnit unit → ∃ form, registry.canonicalize unit = .ok form) ∧
    (∀ source target, registry.ShallowUnit source → registry.ShallowUnit target →
      ∃ factor, registry.conversionFactor source target = .ok factor) ∧
    (∀ left right : InferredUnit, registry.ShallowUnit left.names →
      registry.ShallowUnit right.names →
      (unitMismatch (some registry) left right).isInternal = false) ∧
    ∀ session : Session, session.Reachable → session.registry = registry → registry.Shallow →
      ∀ operation : Operation, operation.InScope session.store → operation.UsesShallow →
      ∀ failure, (operation.perform session).1 = .error failure → failure.isInternal = false := by
  refine ⟨registry.canonicalize_succeeds, fun unit => Registry.ShallowUnit.canonicalize,
    fun source target => Registry.ShallowUnit.conversionFactor, ?_, ?_⟩
  · intro left right leftShallow rightShallow
    refine unitMismatch_external fun own same => ?_
    cases same
    exact ⟨leftShallow, rightShallow⟩
  · intro session reachable same shallow operation scope own failure failed
    have calm := (operation.perform_yields reachable.wellformed scope).ends
    have explained := (explains_perform shallow operation own session same).2
    rw [failed] at calm explained
    exact Bool.eq_false_iff.mpr fun internal => calm (explained internal)

def chainName (number : Nat) : String := "u" ++ toString number

/-- A base unit and so many others, each declared to be the one before. -/
def unitChain : Nat → Registry
  | 0 => Registry.empty.after (.baseUnit (chainName 0))
  | length + 1 =>
    (unitChain length).after (.unit (chainName (length + 1)) 1 (.ofKey (chainName length)))

theorem reachable_unitChain (length : Nat) : (unitChain length).Reachable := by
  induction length with
  | zero => exact .after .empty _
  | succ length ih => exact .after ih _

/-- Definitions that lead 64 steps down are too deep. -/
theorem canonicalize_beyond_depth :
    (unitChain 64).Reachable ∧
      (unitChain 64).canonicalize (.ofKey "u64") = .error (.internal
        "unit u64 does not reach a canonical form; the unit registry is inconsistent") :=
  ⟨reachable_unitChain 64, by decide +kernel⟩

/-- Metres are no kilometres. -/
theorem canonicalize_within_depth_builtin :
    let session := start .builtin {}
    let operation := Operation.unify (.number (.named "m")) (.number (.named "km"))
    session.Reachable ∧ session.registry.Shallow ∧ operation.InScope session.store ∧
      ∃ failure, (operation.perform session).1 = .error failure ∧ failure.isInternal = false := by
  intro session operation
  have reachable : session.Reachable := reachable_start .builtin {}
  have shallow : session.registry.Shallow := .of_declared (by decide +kernel)
  have scope : operation.InScope session.store := ⟨by decide +kernel, by decide +kernel⟩
  have fails : (operation.perform session).1.isOk = false := by decide +kernel
  refine ⟨reachable, shallow, scope, ?_⟩
  generalize outcome : (operation.perform session).1 = result at fails
  cases result with
  | ok value => cases fails
  | error failure =>
    exact ⟨failure, rfl, (canonicalize_within_depth .builtin).2.2.2.2 session reachable rfl
      shallow operation scope trivial failure outcome⟩

end Registry

end SheetTypes
