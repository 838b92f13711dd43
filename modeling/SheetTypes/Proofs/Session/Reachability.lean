import SheetTypes.Proofs.Session.Operations

/-!
Sessions that can be reached. Operations are performed one after the other, each on types over the
variables that the session has by then, and whether they succeed or fail.
-/

set_option autoImplicit false

namespace SheetTypes.Session

open Store

/-- What can be asked of a session, or of its store directly. -/
inductive Operation where
  | freshType (requirements : Requirements)
  | freshUnit
  | instantiate (label : String) (template : Template)
  | instantiateWith (label : String) (template : Template) (bindings : Bindings)
  | unify (left right : InferredType)
  | unifyAt (places : List Place) (left right : InferredType)
  | unifyUsing (registry : Option Registry) (left right : InferredType)
  | unifyUnits (left right : InferredUnit)
  | unifyUnitsUsing (registry : Option Registry) (left right : InferredUnit)
  | require (type : InferredType) (capability origin : String)
  | enforce (required : Requirements) (type : InferredType)
  | offers (type : InferredType) (capability : String)
  | apply (function : InferredType) (arguments : List InferredType)
  | tagConstructor (typeName tagName : String)
  | construct (typeName tagName : String) (payload : Option InferredType)
  | field (type : InferredType) (name : String)
  | resolve (type : InferredType)
  | render (type : InferredType)
  | prune (type : InferredType)
  | pruneUnit (unit : InferredUnit)
  | renderUnit (unit : InferredUnit)
  | concretize (type : InferredType)
  | concretizeUsing (registry : Registry) (allowDefaults : Bool) (type : InferredType)
  | concretizeTemplate (label : String) (template : Template) (bindings : Bindings)
  | report (error : TypeError)

namespace Operation

def annotating {α : Type} (bindings : Bindings) (action : Annotating α) : Checking PUnit :=
  ExceptT.mk do
    let (result, _) ← action.run.run bindings
    return result.map fun _ => ()

def perform : Operation → Checking PUnit
  | freshType requirements => discard (liftM (Session.freshType requirements))
  | freshUnit => discard (liftM Session.freshUnit)
  | instantiate label template => discard (Session.instantiate label template)
  | instantiateWith label template bindings =>
    annotating bindings (Session.instantiateWith label template)
  | unify left right => discard (Session.unify left right)
  | unifyAt places left right => discard (Session.unifyAt places left right)
  | unifyUsing registry left right => discard (infer (Unification.unify registry left right))
  | unifyUnits left right => Session.unifyUnits left right
  | unifyUnitsUsing registry left right => infer (Unification.unifyUnits registry left right)
  | require type capability origin => Session.require type capability origin
  | enforce required type => infer (Store.enforce required type)
  | offers type capability => discard (onStore (Store.offers type capability))
  | apply function arguments => discard (Session.apply function arguments)
  | tagConstructor typeName tagName => discard (Session.tagConstructor typeName tagName)
  | construct typeName tagName payload => discard (Session.construct typeName tagName payload)
  | field type name => discard (Session.field type name)
  | resolve type => discard (liftM (Session.resolve type))
  | render type => discard (onStore (Store.render type))
  | prune type => discard (onStore (Store.prune type))
  | pruneUnit unit => discard (onStore (Store.pruneUnit unit))
  | renderUnit unit => discard (onStore (Store.renderUnit unit))
  | concretize type => discard (Session.concretize type)
  | concretizeUsing registry allowDefaults type => do
      let session ← get
      discard (infer (ExceptT.mk (pure (session.store.concretize registry allowDefaults type))))
  | concretizeTemplate label template bindings =>
    annotating bindings (Session.concretizeTemplate label template)
  | report error => liftM (Session.report error)

def InScope (store : Store) : Operation → Prop
  | unify left right | unifyAt _ left right | unifyUsing _ left right =>
    store.Covers left ∧ store.Covers right
  | unifyUnits left right | unifyUnitsUsing _ left right =>
    store.CoversUnit left ∧ store.CoversUnit right
  | require type _ _ | enforce _ type | offers type _ | field type _ => store.Covers type
  | resolve type | render type | prune type => store.Covers type
  | concretize type | concretizeUsing _ _ type => store.Covers type
  | apply function arguments =>
    store.Covers function ∧ ∀ argument ∈ arguments, store.Covers argument
  | construct _ _ payload => ∀ type, payload = some type → store.Covers type
  | pruneUnit unit | renderUnit unit => store.CoversUnit unit
  | instantiateWith _ _ bindings | concretizeTemplate _ _ bindings => bindings.Covered store
  | freshType _ | freshUnit | instantiate _ _ | tagConstructor _ _ | report _ => True

variable {session : Session}

theorem annotating_yields {α : Type} {bindings : Bindings} {action : Annotating α}
    (yields : Yields Evolving session (action.run.run bindings)
      fun result after => Outcome Calm (fun _ _ => True) result.1 after) :
    Yields Evolving session (annotating bindings action) (Outcome Calm fun _ _ => True) := by
  refine yields.bind fun result after _ calm => .pure ?_
  obtain ⟨outcome, later⟩ := result
  cases outcome with
  | ok value => exact trivial
  | error failure => exact calm

/-- An operation changes the store as described, and its failures do not blame it. -/
theorem perform_yields (operation : Operation) (wellformed : session.store.Wellformed)
    (scope : operation.InScope session.store) :
    Yields Evolving session operation.perform (Outcome Calm fun _ _ => True) := by
  have instantiates {bindings : Bindings} (covered : bindings.Covered session.store)
      (label : String) (template : Template) := (instantiateWith_yields label template covered).mono
    fun result after _ ends => ends.2.mono fun _ _ => trivial
  cases operation with
  | freshType requirements => exact discard_yields (freshType_yields requirements).lift
  | freshUnit => exact discard_yields freshUnit_yields.lift
  | instantiate label template =>
    have yields := instantiates (Bindings.covered_empty _) label template
    have made : Yields Evolving session (Session.instantiate label template)
        (Outcome Calm fun _ _ => True) := yields.bind fun _ _ _ calm => .pure calm
    exact discard_yields made
  | instantiateWith label template bindings =>
    exact annotating_yields (instantiates scope label template)
  | unify left right => exact discard_yields (unify_yields wellformed scope.1 scope.2)
  | unifyAt places left right =>
    exact discard_yields (unifyAt_yields places wellformed scope.1 scope.2)
  | unifyUsing registry left right =>
    exact discard_yields (infer_yields (unifyUsing_yields registry wellformed scope.1 scope.2))
  | unifyUnits left right => exact unifyUnits_yields wellformed scope.1 scope.2
  | unifyUnitsUsing registry left right =>
    exact infer_yields (unifyUnitsUsing_yields registry wellformed scope.1 scope.2)
  | require type capability origin =>
    have yields := inferEscalating_yields
      (enforce_yields wellformed scope (.single capability origin))
    exact yields.infer_mono (fun _ _ _ _ => trivial) fun _ calm => calm
  | enforce required type =>
    have yields := infer_yields (enforce_yields wellformed scope required)
    exact yields.infer_mono (fun _ _ _ _ => trivial) fun _ calm => calm
  | offers type capability =>
    have agree := offers_agree wellformed scope capability (fun _ => return true)
      (Nat.lt_succ_self _)
    exact discard_yields (shortens_yields agree.left).lift
  | apply function arguments => exact discard_yields (apply_yields wellformed scope.1 scope.2)
  | tagConstructor typeName tagName => exact discard_yields (tagConstructor_yields typeName tagName)
  | construct typeName tagName payload =>
    exact discard_yields (construct_yields wellformed typeName tagName scope)
  | field type name => exact discard_yields (field_yields wellformed scope name)
  | resolve type => exact discard_yields (resolve_yields wellformed scope).lift
  | render type => exact discard_yields (render_onStore wellformed type).lift
  | prune type => exact discard_yields (prune_covers wellformed scope).lift
  | pruneUnit unit =>
    have agree := pruneUnit_agree wellformed scope pure (Nat.lt_succ_self _)
    exact discard_yields (shortens_yields agree.left).lift
  | renderUnit unit =>
    have agree := pruneUnit_agree wellformed scope pure (Nat.lt_succ_self _)
    have rendered : Yields Shortening session.store (Store.renderUnit unit) fun _ _ => True :=
      agree.left.bind fun _ _ _ _ => .pure trivial
    exact discard_yields (shortens_yields rendered).lift
  | concretize type => exact discard_yields (concretize_yields wellformed type)
  | concretizeUsing registry allowDefaults type =>
    have made : Yields Step session.store
        (ExceptT.mk (pure (session.store.concretize registry allowDefaults type)) :
          Infer ConcreteType)
        (Outcome Harmless fun _ _ => True) :=
      .pure (concretize_harmless wellformed registry allowDefaults type)
    exact .read (discard_yields (infer_yields made))
  | concretizeTemplate label template bindings =>
    exact annotating_yields (concretizeTemplate_yields wellformed label template scope)
  | report error => exact .of_apply rfl (.single .refl) trivial

end Operation

def after (session : Session) (operation : Operation) : Session := (operation.perform session).2

def Next (before later : Session) : Prop :=
  ∃ operation : Operation, operation.InScope before.store ∧ later = before.after operation

abbrev Later : Session → Session → Prop := Relation.ReflTransGen Next

/-- Sessions that operations lead to from a start. -/
def Reachable (session : Session) : Prop :=
  ∃ registry options, Later (start registry options) session

variable {before later session : Session}

theorem Next.evolves (next : Next before later) (wellformed : before.store.Wellformed) :
    before.store.Evolves later.store := by
  obtain ⟨operation, scope, rfl⟩ := next
  exact evolves_of_run (operation.perform_yields wellformed scope).steps

theorem Later.evolves (reached : Later before later) (wellformed : before.store.Wellformed) :
    before.store.Evolves later.store := by
  induction reached with
  | refl => exact .refl
  | tail _ next ih => exact ih.trans (next.evolves ((Evolves.extends ih).wellformed wellformed))

theorem Reachable.wellformed (reachable : session.Reachable) : session.store.Wellformed := by
  obtain ⟨registry, options, reached⟩ := reachable
  exact (Evolves.extends (Later.evolves reached empty_wellformed)).wellformed empty_wellformed

theorem reachable_start (registry : Registry) (options : CheckOptions) :
    (start registry options).Reachable :=
  ⟨registry, options, .refl⟩

theorem Reachable.after (reachable : session.Reachable) (operation : Operation)
    (scope : operation.InScope session.store) : (session.after operation).Reachable := by
  obtain ⟨registry, options, reached⟩ := reachable
  exact ⟨registry, options, reached.tail ⟨operation, scope, rfl⟩⟩

end SheetTypes.Session
