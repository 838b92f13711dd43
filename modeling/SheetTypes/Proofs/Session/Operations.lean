import SheetTypes.Proofs.Session.Concretization
import SheetTypes.Proofs.Session.Instantiation
import SheetTypes.Proofs.Unification.Types
import SheetTypes.Session

/-!
Operations of a session. Whatever an operation does on types over the variables of the session, and
whether it succeeds or fails, the store only evolves and is never blamed for a failure. So it is for
all sessions that can be reached.
-/

set_option autoImplicit false

namespace SheetTypes.Session

open Store Unification

abbrev Evolving (before after : Session) : Prop := before.store.Evolves after.store

abbrev Calm (failure : Failure) : Prop := ¬failure.BlamesStore

variable {α β : Type} {session : Session} {post : α → Session → Prop} {action : StateM Store α}
  {after before : Session}

theorem evolves_of_run (run : Relation.ReflTransGen Evolving before after) :
    before.store.Evolves after.store := by
  induction run with
  | refl => exact .refl
  | tail _ step ih => exact ih.trans step

theorem onStore_yields {post : α → Store → Prop} (yields : Yields Step session.store action post) :
    Yields Evolving session (onStore action : StateM Session α)
      fun value after => post value after.store :=
  ⟨rfl, .single yields.steps, yields.ends⟩

theorem escalate_yields {result : Except TypeError α}
    (holds : Results Harmless (post · session) result) :
    Yields Evolving session (escalate result) (Outcome Calm post) := by
  cases result with
  | ok value => exact ⟨rfl, .refl, holds⟩
  | error error => exact ⟨rfl, .refl, fun blames => holds (TypeError.blamesStore_escalate blames)⟩

theorem inferEscalating_yields {action : Infer α} {post : α → Store → Prop}
    (yields : Yields Step session.store action (Outcome Harmless post)) :
    Yields Evolving session (inferEscalating action)
      (Outcome Calm fun value after => post value after.store) :=
  (onStore_yields yields).lift.andThen fun _ _ _ ends => escalate_yields ends

theorem infer_yields {action : Infer α} {post : α → Store → Prop}
    (yields : Yields Step session.store action (Outcome Harmless post)) :
    Yields Evolving session (infer action)
      (Outcome Calm fun value after => post value after.store) := by
  refine (onStore_yields yields).lift.andThen fun result after _ ends => ?_
  cases result with
  | ok value => exact .ok ends
  | error error => exact .throw ends

theorem shortens_yields {post : α → Store → Prop}
    (yields : Yields Shortening session.store action post) :
    Yields Evolving session (onStore action : StateM Session α)
      fun value after => post value after.store :=
  onStore_yields <| yields.mono_step fun _ _ step =>
    .solve (Solving.adjust (.shorten step) : Solving 0 _ _)

theorem extends_of_run (run : Relation.ReflTransGen Evolving before after) :
    before.store.Extends after.store :=
  Evolves.extends (evolves_of_run run)

theorem discard_yields {action : Checking α}
    (yields : Yields Evolving session action (Outcome Calm post)) :
    Yields Evolving session (discard action : Checking PUnit) (Outcome Calm fun _ _ => True) :=
  yields.andThen fun _ _ _ _ => .ok trivial

section Types

variable {type left right : InferredType} {arguments : List InferredType}

theorem freshType_yields (requirements : Requirements) :
    Yields Evolving session (freshType requirements) fun type after => after.store.Covers type := by
  have created : Yields Step session.store (freshTypeVar requirements)
      fun var after => var.index < after.types.size := by
    have whole : freshTypeVar requirements session.store =
        (⟨session.store.types.size⟩, session.store.withType requirements) := rfl
    refine .of_apply whole (.single (.freshType _ requirements)) ?_
    rw [types_size_withType]
    exact Nat.lt_succ_self _
  exact (onStore_yields created).bind fun var _ _ within => .pure (covers_var.mpr within)

theorem freshUnit_yields :
    Yields Evolving session freshUnit fun unit after => after.store.CoversUnit unit := by
  have created : Yields Step session.store freshUnitVar
      fun var after => var.index < after.units.size := by
    have whole : freshUnitVar session.store =
        (⟨session.store.units.size⟩, session.store.withUnit) := rfl
    refine .of_apply whole (.single (.solve (Solving.freshUnit _ : Solving 0 _ _))) ?_
    rw [units_size_withUnit]
    exact Nat.lt_succ_self _
  exact (onStore_yields created).bind fun _ _ _ within => .pure (Template.coversUnit_ofVar within)

theorem unifyUsing_yields (registry : Option Registry) (wellformed : session.store.Wellformed)
    (leftCovered : session.store.Covers left) (rightCovered : session.store.Covers right) :
    Yields Step session.store (Unification.unify registry left right)
      (Outcome Harmless fun _ _ => True) :=
  ((unify_solves registry wellformed leftCovered rightCovered).yields.mono_step
    fun _ _ => .solve).infer_mono (fun _ _ _ _ => trivial) fun _ harmless => harmless

theorem unifyUnitsUsing_yields (registry : Option Registry) (wellformed : session.store.Wellformed)
    {left right : InferredUnit} (leftCovered : session.store.CoversUnit left)
    (rightCovered : session.store.CoversUnit right) :
    Yields Step session.store (Unification.unifyUnits registry left right)
      (Outcome Harmless fun _ _ => True) :=
  ((unifyUnits_solves 0 registry wellformed leftCovered rightCovered).yields.mono_step
    fun _ _ => .solve).infer_mono (fun _ _ _ _ => trivial) fun _ harmless => harmless

theorem unify_yields (wellformed : session.store.Wellformed)
    (leftCovered : session.store.Covers left) (rightCovered : session.store.Covers right) :
    Yields Evolving session (unify left right) (Outcome Calm fun _ _ => True) := by
  unfold unify
  exact .read (inferEscalating_yields
    (unifyUsing_yields (some session.registry) wellformed leftCovered rightCovered))

theorem unifyAt_yields (places : List Place) (wellformed : session.store.Wellformed)
    (leftCovered : session.store.Covers left) (rightCovered : session.store.Covers right) :
    Yields Evolving session (unifyAt places left right) (Outcome Calm fun _ _ => True) := by
  refine (unify_yields wellformed leftCovered rightCovered).recover fun failure after _ calm => ?_
  cases failure with
  | error error =>
    exact .throw fun blames => calm ((TypeError.blamesStore_atPlaces error places).mp blames)
  | abort message => exact .throw calm

theorem unifyUnits_yields (wellformed : session.store.Wellformed) {left right : InferredUnit}
    (leftCovered : session.store.CoversUnit left) (rightCovered : session.store.CoversUnit right) :
    Yields Evolving session (unifyUnits left right) (Outcome Calm fun _ _ => True) := by
  unfold unifyUnits
  exact .read (inferEscalating_yields
    (unifyUnitsUsing_yields (some session.registry) wellformed leftCovered rightCovered))

theorem enforce_yields (wellformed : session.store.Wellformed)
    (covered : session.store.Covers type) (required : Requirements) :
    Yields Step session.store (enforce required type)
      (Outcome Harmless fun _ after => after.Meets required type) :=
  ((enforce_solves 0 wellformed covered required).yields.mono_step
    fun _ _ => .solve).infer_mono (fun _ _ _ ends => ends.1) fun _ harmless => harmless

theorem resolve_yields (wellformed : session.store.Wellformed)
    (covered : session.store.Covers type) :
    Yields Evolving session (resolve type) fun result after => after.store.Resolved type result :=
  shortens_yields (resolve_resolved wellformed covered)

theorem prune_covers (wellformed : session.store.Wellformed)
    (covered : session.store.Covers type) :
    Yields Evolving session (onStore (prune type) : StateM Session InferredType)
      fun result after => after.store.Covers result := by
  refine (shortens_yields (prune_yields wellformed type)).mono fun result after run ends => ?_
  have extended := extends_of_run run
  exact ends.1.covers (extended.wellformed wellformed) (extended.covers covered)

theorem render_onStore (wellformed : session.store.Wellformed) (type : InferredType) :
    Yields Evolving session (onStore (render type) : StateM Session String) fun _ _ => True :=
  shortens_yields (render_yields wellformed type)

theorem unifyPairs_yields (wellformed : session.store.Wellformed) {params : List InferredType}
    (paramsCovered : ∀ type ∈ params, session.store.Covers type)
    (argumentsCovered : ∀ type ∈ arguments, session.store.Covers type) :
    Yields Evolving session (unifyPairs params arguments) (Outcome Calm fun _ _ => True) := by
  induction params generalizing session arguments with
  | nil => exact .ok trivial
  | cons param params ih =>
    cases arguments with
    | nil => exact .ok trivial
    | cons argument arguments =>
      obtain ⟨paramCovered, restParams⟩ := List.forall_mem_cons.mp paramsCovered
      obtain ⟨argumentCovered, restArguments⟩ := List.forall_mem_cons.mp argumentsCovered
      refine (discard_yields (unify_yields wellformed paramCovered argumentCovered)).andThen
        fun _ after run _ => ?_
      have extended := extends_of_run run
      exact ih (extended.wellformed wellformed)
        (fun type member => extended.covers (restParams type member))
        fun type member => extended.covers (restArguments type member)

theorem apply_yields (wellformed : session.store.Wellformed) {function : InferredType}
    (covered : session.store.Covers function)
    (argumentsCovered : ∀ type ∈ arguments, session.store.Covers type) :
    Yields Evolving session (apply function arguments) (Outcome Calm fun _ _ => True) := by
  unfold apply
  refine (prune_covers wellformed covered).lift.andThen fun pruned first run prunedCovered => ?_
  have extended := extends_of_run run
  have firstWellformed := extended.wellformed wellformed
  have firstArguments (type : InferredType) (member : type ∈ arguments) :=
    extended.covers (argumentsCovered type member)
  have rendered := render_onStore firstWellformed pruned
  cases pruned with
  | var var =>
    refine (freshType_yields .none).lift.andThen fun result second further resultCovered => ?_
    have extendedSecond := extends_of_run further
    have expected : second.store.Covers (.function arguments result) :=
      covers_function.mpr
        ⟨fun type member => extendedSecond.covers (firstArguments type member), resultCovered⟩
    refine (discard_yields (unify_yields (extendedSecond.wellformed firstWellformed)
      (extendedSecond.covers prunedCovered) expected)).andThen fun _ third last _ => ?_
    have extendedThird := extends_of_run last
    exact ((prune_covers (extendedThird.wellformed (extendedSecond.wellformed firstWellformed))
      (extendedThird.covers resultCovered)).mono fun _ _ _ _ => trivial).lift
  | function params result =>
    obtain ⟨paramsCovered, resultCovered⟩ := covers_function.mp prunedCovered
    dsimp only
    split
    · refine rendered.lift.andThen fun _ _ _ _ => ?_
      exact .of_apply (error_bind_apply rfl _) .refl (TypeError.not_blamesStore rfl)
    · refine (unifyPairs_yields firstWellformed paramsCovered firstArguments).andThen
        fun _ second further _ => ?_
      have extendedSecond := extends_of_run further
      exact ((prune_covers (extendedSecond.wellformed firstWellformed)
        (extendedSecond.covers resultCovered)).mono fun _ _ _ _ => trivial).lift
  | _ =>
    refine rendered.lift.andThen fun _ _ _ _ => ?_
    exact .throw (TypeError.not_blamesStore rfl)

end Types

variable {bindings : Bindings}

theorem instantiateWith_yields (label : String) (template : Template)
    (covered : bindings.Covered session.store) :
    Yields Evolving session ((instantiateWith label template).run.run bindings)
      fun result after => result.2.Covered after.store ∧
        Outcome Calm (fun type last => last.store.Covers type) result.1 after := by
  have made := onStore_yields (Template.instantiate_covers label template covered)
  refine made.bind fun result after _ ends => ?_
  have escalated : Yields Evolving after (escalate result.1)
      (Outcome Calm fun type last => last.store.Covers type) := escalate_yields ends.2
  exact escalated.bind fun _ _ further holds =>
    .pure ⟨ends.1.later (extends_of_run further), holds⟩

theorem freshOperands_yields (params : List Parameter) (covered : bindings.Covered session.store) :
    Yields Evolving session (freshOperands params bindings) fun result after =>
      (∀ operand ∈ result.1, after.store.CoversOperand operand) ∧
        result.2.Covered after.store := by
  induction params generalizing session bindings with
  | nil => exact .pure ⟨by simp, covered⟩
  | cons param params ih =>
    cases param with
    | type name =>
      refine (freshType_yields .none).bind fun var after run varCovered => ?_
      have later := covered.later (extends_of_run run)
      refine (ih (later.putType varCovered)).bind
        fun result last further ends => .pure ⟨?_, ends.2⟩
      exact List.forall_mem_cons.mpr ⟨(extends_of_run further).covers varCovered, ends.1⟩
    | unit name =>
      refine freshUnit_yields.bind fun var after run varCovered => ?_
      have later := covered.later (extends_of_run run)
      refine (ih (later.putUnit varCovered)).bind
        fun result last further ends => .pure ⟨?_, ends.2⟩
      exact List.forall_mem_cons.mpr ⟨(extends_of_run further).coversUnit varCovered, ends.1⟩

theorem tagConstructor_yields (typeName tagName : String) :
    Yields Evolving session (tagConstructor typeName tagName)
      (Outcome Calm fun made after => after.store.Covers made.1 ∧
        ∀ payload, made.2 = some payload → after.store.Covers payload) := by
  unfold tagConstructor
  refine .read ?_
  dsimp only
  split
  next => exact .throw (TypeError.not_blamesStore rfl)
  next definition _ =>
    split
    next => exact .throw (TypeError.not_blamesStore rfl)
    next tag _ =>
      refine (freshOperands_yields definition.params (Bindings.covered_empty _)).lift.andThen
        fun made first run ends => ?_
      split
      next => exact .ok ⟨covers_tagged.mpr ends.1, fun _ nothing => by cases nothing⟩
      next payload _ =>
        refine (instantiateWith_yields (definition.payloadLabel tag) payload
          ends.2).lift.andThen fun instantiated second further holds => ?_
        obtain ⟨outcome, later⟩ := instantiated
        cases outcome with
        | error failure => exact .of_apply (error_bind_apply rfl _) .refl holds.2
        | ok type =>
          refine .of_apply (ok_bind_apply rfl _) .refl ⟨covers_tagged.mpr ?_, ?_⟩
          · exact fun operand member =>
            (extends_of_run further).coversOperand (ends.1 operand member)
          · intro expected same
            cases same
            exact holds.2

theorem construct_yields (wellformed : session.store.Wellformed) (typeName tagName : String)
    {payload : Option InferredType}
    (covered : ∀ type, payload = some type → session.store.Covers type) :
    Yields Evolving session (construct typeName tagName payload)
      (Outcome Calm fun _ _ => True) := by
  unfold construct
  refine (tagConstructor_yields typeName tagName).andThen fun made first run ends => ?_
  obtain ⟨constructed, expected⟩ := made
  have extended := extends_of_run run
  have firstWellformed := extended.wellformed wellformed
  have last {after : Session} (further : Relation.ReflTransGen Evolving first after) :
      Yields Evolving after (liftM (resolve constructed) : Checking InferredType)
        (Outcome Calm fun _ _ => True) := by
    have later := extends_of_run further
    exact ((resolve_yields (later.wellformed firstWellformed) (later.covers ends.1)).mono
      fun _ _ _ _ => trivial).lift
  cases expected with
  | none =>
    cases payload with
    | none => exact last .refl
    | some type => exact .of_apply (error_bind_apply rfl _) .refl (TypeError.not_blamesStore rfl)
  | some expected =>
    cases payload with
    | none => exact .of_apply (error_bind_apply rfl _) .refl (TypeError.not_blamesStore rfl)
    | some type =>
      exact (discard_yields (unify_yields firstWellformed (ends.2 expected rfl)
        (extended.covers (covered type rfl)))).andThen fun _ _ further _ => last further

theorem field_yields (wellformed : session.store.Wellformed) {type : InferredType}
    (covered : session.store.Covers type) (name : String) :
    Yields Evolving session (field type name) (Outcome Calm fun _ _ => True) := by
  unfold field
  refine (prune_covers wellformed covered).lift.andThen fun pruned first run _ => ?_
  have firstWellformed := (extends_of_run run).wellformed wellformed
  have rendered := render_onStore firstWellformed pruned
  cases pruned with
  | record fields =>
    dsimp only
    split
    next => exact .ok trivial
    next =>
      refine (render_onStore firstWellformed type).lift.andThen fun _ _ _ _ => ?_
      exact .throw (TypeError.not_blamesStore rfl)
  | var var => exact .throw (TypeError.not_blamesStore rfl)
  | _ =>
    refine rendered.lift.andThen fun _ _ _ _ => ?_
    exact .throw (TypeError.not_blamesStore rfl)

theorem concretize_yields (wellformed : session.store.Wellformed) (type : InferredType) :
    Yields Evolving session (concretize type) (Outcome Calm fun _ _ => True) := by
  unfold concretize
  exact .read (escalate_yields (concretize_harmless wellformed _ _ type))

theorem concretizeTemplate_yields (wellformed : session.store.Wellformed) (label : String)
    (template : Template) (covered : bindings.Covered session.store) :
    Yields Evolving session ((concretizeTemplate label template).run.run bindings)
      fun result after => Outcome Calm (fun _ _ => True) result.1 after := by
  refine (instantiateWith_yields label template covered).bind fun instantiated first run ends => ?_
  obtain ⟨outcome, later⟩ := instantiated
  cases outcome with
  | error failure => exact .pure ends.2
  | ok type =>
    have made := concretize_yields ((extends_of_run run).wellformed wellformed) type
    refine made.bind fun outcome last further calm => ?_
    cases outcome with
    | ok result => exact .pure trivial
    | error failure =>
      cases failure with
      | error error =>
        exact .pure fun blames =>
          calm ((TypeError.blamesStore_atPlaces error [.node label 0]).mp blames)
      | abort message => exact .pure calm

end SheetTypes.Session
