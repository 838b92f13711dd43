import SheetTypes.Proofs.Concrete.Instances
import SheetTypes.Proofs.Concrete.Leaves
import SheetTypes.Proofs.Concrete.Unfolding
import SheetTypes.Proofs.Session.Unification

/-!
Tags of constructed types. The payload of a tagged value is typed twice. When the value is
constructed, its type is unified with an instance of the tag's template; when the constructed type
is made concrete and opened, the template is made concrete with the operands. As long as no exponent
passes the limit, both give the same type.
-/

set_option autoImplicit false

namespace SheetTypes

open Store

open Classical in
noncomputable def readBack {α β : Type} (value : α → β) (sought : β) : Except TypeError α :=
  if found : ∃ made, value made = sought then .ok found.choose else .error (.internal "")

variable {α β : Type} {value : α → β}

theorem readBack_value (injective : Function.Injective value) (made : α) :
    readBack value (value made) = .ok made := by
  have found : ∃ other, value other = value made := ⟨made, rfl⟩
  rw [readBack, dif_pos found, injective found.choose_spec]

theorem value_of_readBack {sought : β} {made : α} (done : readBack value sought = .ok made) :
    value made = sought := by
  rw [readBack] at done
  split at done
  next found =>
    cases done
    exact found.choose_spec
  next => cases done

/-- Whether names that are bound to concrete types and units are bound to variables and units that
stand for these. -/
structure BoundAlike (store : Store) (bindings : Bindings) (gamma : ConcreteBindings) : Prop where
  types : ∀ name made, gamma.types.lookup name = some made → ∃ var,
    bindings.types.lookup name = some (.var var) ∧ made.value = store.defaulted (.var var)
  units : ∀ name ground, gamma.units.lookup name = some ground → ∃ unit,
    UnitAlike store bindings gamma name unit ground

section Templates

variable {store : Store} {registry : Registry} {bindings : Bindings} {gamma : ConcreteBindings}
  {label other : String} {complaint : TypeError}

noncomputable def Comparison.byValue (store : Store) (registry : Registry) (bindings : Bindings)
    (gamma : ConcreteBindings) (label other : String) (complaint : TypeError) : Comparison where
  registry := registry
  bindings := bindings
  gamma := gamma
  label := label
  other := other
  complaint := complaint
  assumed := True
  onVar var := readBack ConcreteType.value (store.defaulted (.var var))
  onUnit unit := readBack PowerProduct.powers (store.unitDefaulted unit)

private theorem var_agrees (alike : BoundAlike store bindings gamma) {name : String}
    (bound : (gamma.types.lookup name).isSome = true) :
    (Comparison.byValue store registry bindings gamma label other complaint).LeafAgrees
      (.inl name) := by
  intro node
  obtain ⟨made, known⟩ := Option.isSome_iff_exists.mp bound
  obtain ⟨var, found, same⟩ := alike.types name made known
  refine (instantiateTypeVar_evaluates found).mono ?_
  rintro _ rfl
  have direct : Template.concreteNode registry gamma other node (.var name) = .ok made := by
    simp only [Template.concreteNode, known]
  change Mirrors complaint _ (readBack ConcreteType.value (store.defaulted (.var var)))
    (Template.concreteNode registry gamma other node (.var name))
  rw [direct, ← same, readBack_value ConcreteType.value_injective]
  exact .ok fun _ => rfl

private theorem unit_agrees (alike : BoundAlike store bindings gamma) {unit : UnitTemplate}
    (names : ∀ name ∈ unit.names.keys, registry.hasUnit name = true)
    (bound : ∀ name ∈ unit.vars.keys, (gamma.units.lookup name).isSome = true)
    (exact : gamma.GroundsExactly unit) :
    (Comparison.byValue store registry bindings gamma label other complaint).LeafAgrees
      (.inr unit) := by
  have known (power : String × Int) (member : power ∈ unit.vars.toList) :
      ∃ ground, gamma.units.lookup power.1 = some ground := by
    exact Option.isSome_iff_exists.mp (bound power.1 (PowerProduct.mem_keys_of_toList member))
  have each (power : String × Int) (member : power ∈ unit.vars.toList) :
      ∃ inferred ground, UnitAlike store bindings gamma power.1 inferred ground := by
    obtain ⟨ground, found⟩ := known power member
    obtain ⟨inferred, here⟩ := alike.units power.1 ground found
    exact ⟨inferred, ground, here⟩
  refine (instantiateUnit_evaluates each).mono ?_
  rintro _ ⟨inferred, rfl, value, _⟩
  obtain ⟨product, made, _⟩ := concretePowers_eq_ok complaint unit.names known
  have direct : Template.concreteUnit registry gamma unit = .ok product := by
    rw [Template.concreteUnit, Registry.checkUnit_eq_ok.mpr names, except_ok_bind]
    exact made
  have same : store.unitDefaulted inferred = product.powers :=
    value.trans (powers_of_groundsExactly known exact made).symm
  change Mirrors complaint _ (readBack PowerProduct.powers (store.unitDefaulted inferred))
    (Template.concreteUnit registry gamma unit)
  rw [direct, same, readBack_value fun _ _ => PowerProduct.powers_injective]
  exact .ok fun _ => rfl

/-- A payload is made concrete into what its instance stands for. -/
theorem value_of_instance {params : List Parameter} {template : Template}
    (distinct : registry.TagsDistinct) (admits : registry.Admits params template)
    (alike : BoundAlike store bindings gamma)
    (typeVars : ∀ name, .type name ∈ params → (gamma.types.lookup name).isSome = true)
    (unitVars : ∀ name, .unit name ∈ params → (gamma.units.lookup name).isSome = true)
    (exactly : ∀ unit, template.HasUnit unit → gamma.GroundsExactly unit)
    {before after : Store} {later : Bindings} {expected : InferredType} {made : ConcreteType}
    (instantiated : (template.instantiate label bindings : StateM Store _) before =
      ((.ok expected, later), after))
    (exact : after.exact = true) (direct : template.concretize registry gamma other = .ok made) :
    made.value = store.defaulted expected := by
  have mirrors (complaint : TypeError) :
      Mirrors complaint (fun found made => True → found = made)
        (concreteTerm registry (fun var => readBack ConcreteType.value (store.defaulted (.var var)))
          (fun unit => readBack PowerProduct.powers (store.unitDefaulted unit)) expected)
        (.ok made) := by
    have agrees : (Comparison.byValue store registry bindings gamma label other
        complaint).TemplateAgrees template := by
      refine Comparison.template_agrees distinct fun leaf inside => ?_
      cases leaf with
      | inl name => exact var_agrees alike (typeVars name (admits.typeVars name inside))
      | inr unit =>
        exact unit_agrees alike (admits.units unit inside)
          (fun name key => unitVars name (admits.unitVars unit inside name key))
          (exactly unit inside)
    obtain ⟨result, within, runs, holds⟩ := agrees 0
    cases instantiated.symm.trans (runs before)
    have agree := holds (Bool.and_eq_true_iff.mp exact).2
    rw [← direct]
    exact agree
  obtain ⟨_, walked, same⟩ :=
    Mirrors.exists_ok (by decide : TypeError.internal "" ≠ .internal "other") mirrors
  cases same trivial
  rw [defaulted_eq_substitute]
  exact substitute_of_concreteTerm walked (fun _ _ _ own => value_of_readBack own)
    fun _ _ _ own => value_of_readBack own

end Templates

def Bindings.putOperands : List Parameter → List (Operand InferredType InferredUnit) → Bindings →
    Bindings
  | .type name :: params, .type value :: operands, bindings =>
    putOperands params operands (bindings.putType name value)
  | .unit name :: params, .unit value :: operands, bindings =>
    putOperands params operands (bindings.putUnit name value)
  | _, _, bindings => bindings

namespace BoundAlike

variable {store : Store} {bindings : Bindings} {gamma after : ConcreteBindings}

theorem empty (store : Store) : BoundAlike store .empty .empty where
  types name made found := by cases found
  units name ground found := by cases found

theorem putType {var : TypeVar} {made : ConcreteType} (alike : BoundAlike store bindings gamma)
    (name : String) (same : made.value = store.defaulted (.var var)) :
    BoundAlike store (bindings.putType name (.var var)) (gamma.putType name made) where
  types query other found := by
    rw [ConcreteBindings.putType, lookup_cons_ite] at found
    rw [Bindings.putType, lookup_put]
    by_cases equal : query = name
    · rw [if_pos equal] at found ⊢
      cases found
      exact ⟨var, rfl, same⟩
    · rw [if_neg equal] at found ⊢
      exact alike.types query other found
  units query ground found := by
    obtain ⟨unit, own⟩ := alike.units query ground found
    exact ⟨unit, own.inferred, own.concrete, own.powers⟩

theorem putUnit {unit : InferredUnit} {ground : GroundUnit}
    (alike : BoundAlike store bindings gamma) (name : String)
    (same : ground.powers = store.unitDefaulted unit) :
    BoundAlike store (bindings.putUnit name unit) (gamma.putUnit name ground) where
  types query made found := alike.types query made found
  units query other found := by
    have stands : ∃ inferred, (bindings.putUnit name unit).units.lookup query = some inferred ∧
        (store.meaning.unit inferred).1 = other.powers := by
      rw [ConcreteBindings.putUnit, lookup_cons_ite] at found
      rw [Bindings.putUnit, lookup_put]
      by_cases equal : query = name
      · rw [if_pos equal] at found ⊢
        cases found
        exact ⟨unit, rfl, same.symm⟩
      · rw [if_neg equal] at found ⊢
        obtain ⟨inferred, own⟩ := alike.units query other found
        exact ⟨inferred, own.inferred, own.powers⟩
    obtain ⟨inferred, bound, powers⟩ := stands
    exact ⟨inferred, bound, found, powers⟩

/-- Names are bound alike to operands and to what these stand for. -/
theorem putOperands {params : List Parameter} {operands : List (Operand InferredType InferredUnit)}
    {results : List ConcreteOperand} (alike : BoundAlike store bindings gamma)
    (vars : ∀ value, .type value ∈ operands → ∃ var, value = .var var)
    (same : results.map (Operand.map ConcreteType.value PowerProduct.powers) =
      operands.map (Operand.map store.defaulted store.unitDefaulted))
    (bound : ConcreteType.bindOperands params results gamma = .ok after) :
    BoundAlike store (bindings.putOperands params operands) after := by
  induction params generalizing results operands bindings gamma with
  | nil =>
    have unchanged : gamma = after := by
      cases results with
      | nil => exact Except.ok.inj bound
      | cons result results => exact Except.ok.inj bound
    exact unchanged ▸ alike
  | cons param params ih =>
    cases results with
    | nil =>
      cases List.map_eq_nil_iff.mp same.symm
      cases param with
      | type name => exact Except.ok.inj bound ▸ alike
      | unit name => exact Except.ok.inj bound ▸ alike
    | cons result results =>
      cases operands with
      | nil => cases same
      | cons operand operands =>
        obtain ⟨here, others⟩ := List.cons.inj same
        have fewer (value : InferredType) (member : .type value ∈ operands) :=
          vars value (List.mem_cons_of_mem _ member)
        cases result with
        | type made =>
          cases operand with
          | unit unit => cases here
          | type value =>
            cases param with
            | unit name => cases bound
            | type name =>
              obtain ⟨var, rfl⟩ := vars value List.mem_cons_self
              exact ih (alike.putType name (Operand.type.inj here)) fewer others bound
        | unit ground =>
          cases operand with
          | type value => cases here
          | unit unit =>
            cases param with
            | type name => cases bound
            | unit name =>
              exact ih (alike.putUnit name (Operand.unit.inj here)) fewer others bound

end BoundAlike

/-- Whether no exponent stops at the limit in making the payloads of a tagged type. -/
def ConcreteType.OpensExactly (registry : Registry) (name : String)
    (operands : List ConcreteOperand) : Prop :=
  ∀ definition bindings, registry.type? name = some definition →
    bindOperands definition.params operands .empty = .ok bindings →
    ∀ tag ∈ definition.tags, ∀ payload, tag.payload = some payload →
      ∀ unit, payload.HasUnit unit → bindings.GroundsExactly unit

theorem TaggedType.filter_of_tag? {definition : TaggedType} {name : String} {tag : Tag}
    (distinct : definition.tagNames.Nodup) (found : definition.tag? name = some tag) :
    definition.tags.filter (fun tag => tag.name == name) = [tag] := by
  unfold tag? at found
  unfold tagNames at distinct
  generalize definition.tags = tags at distinct found
  induction tags with
  | nil => cases found
  | cons first tags ih =>
    obtain ⟨fresh, rest⟩ := List.nodup_cons.mp distinct
    by_cases same : first.name = name
    · have others : tags.filter (fun tag => tag.name == name) = [] := by
        refine List.filter_eq_nil_iff.mpr fun other member equal => fresh ?_
        rw [same, ← beq_iff_eq.mp equal]
        exact List.mem_map_of_mem member
      rw [List.find?_cons, beq_iff_eq.mpr same] at found
      rw [List.filter_cons, if_pos (beq_iff_eq.mpr same), others, Option.some.inj found]
    · rw [List.find?_cons, beq_eq_false_iff_ne.mpr same] at found
      rw [List.filter_cons, if_neg (mt beq_iff_eq.mp same), ih rest found]

/-! ### Constructing -/

namespace Session

open Unification

variable {session after : Session} {constructed type : InferredType} {made : ConcreteType}
  {tagName typeName : String}

/-- The operands of a tagged type are new variables, to which its parameters are bound. -/
theorem freshOperands_apply (params : List Parameter) (bindings : Bindings) (session : Session) :
    ∃ operands store,
      freshOperands params bindings session =
          ((operands, bindings.putOperands params operands), { session with store }) ∧
        ∀ value, .type value ∈ operands → ∃ var, value = .var var := by
  induction params generalizing bindings session with
  | nil => exact ⟨[], session.store, rfl, fun _ member => absurd member List.not_mem_nil⟩
  | cons param params ih =>
    cases param with
    | type name =>
      obtain ⟨operands, store, rest, vars⟩ := ih
        (bindings.putType name (freshType .none session).1) (freshType .none session).2
      refine ⟨.type (freshType .none session).1 :: operands, store, ?_, fun value member => ?_⟩
      · exact congrArg
          (fun made => ((.type (freshType .none session).1 :: made.1.1, made.1.2), made.2)) rest
      · rcases List.mem_cons.mp member with own | later
        · exact ⟨_, Operand.type.inj own⟩
        · exact vars value later
    | unit name =>
      obtain ⟨operands, store, rest, vars⟩ := ih
        (bindings.putUnit name (freshUnit session).1) (freshUnit session).2
      refine ⟨.unit (freshUnit session).1 :: operands, store, ?_, fun value member => ?_⟩
      · exact congrArg
          (fun made => ((.unit (freshUnit session).1 :: made.1.1, made.1.2), made.2)) rest
      · exact vars value ((List.mem_cons.mp member).resolve_left (by simp))

theorem escalate_snd (result : Except TypeError α) (session : Session) :
    (escalate result session).2 = session := by
  cases result with
  | ok value => rfl
  | error error => rfl

theorem eq_ok_of_escalate {result : Except TypeError α} {value : α}
    (done : (escalate result session).1 = .ok value) : result = .ok value := by
  cases result with
  | error error => cases done
  | ok found =>
    cases done
    rfl

theorem inferEscalating_eq_ok {action : Infer α} {value : α}
    (done : inferEscalating action session = (.ok value, after)) :
    action session.store = (.ok value, after.store) := by
  change escalate (action session.store).1 { session with store := (action session.store).2 } = _
    at done
  refine Prod.ext (eq_ok_of_escalate (congrArg Prod.fst done)) ?_
  exact congrArg Session.store ((escalate_snd ..).symm.trans (congrArg Prod.snd done))

theorem instantiateWith_eq_ok {label : String} {template : Template} {bindings later : Bindings}
    (done : (instantiateWith label template).run.run bindings session =
      ((.ok type, later), after)) :
    (template.instantiate label bindings : StateM Store _) session.store =
      ((.ok type, later), after.store) := by
  generalize outcome : (template.instantiate label bindings : StateM Store _) session.store = run
  have whole : (instantiateWith label template).run.run bindings session =
      (((escalate run.1.1 { session with store := run.2 }).1, run.1.2),
        (escalate run.1.1 { session with store := run.2 }).2) := by
    rw [← outcome]
    rfl
  rw [whole] at done
  obtain ⟨results, states⟩ := Prod.mk.inj done
  obtain ⟨made, same⟩ := Prod.mk.inj results
  refine Prod.ext (Prod.ext (eq_ok_of_escalate made) same) ?_
  exact congrArg Session.store ((escalate_snd ..).symm.trans states)

def PayloadAgrees (label : String) (bindings : Bindings) (after : Store) (template : Template)
    (content : InferredType) : Prop :=
  ∃ expected before middle later,
    (template.instantiate label bindings : StateM Store _) before =
        ((.ok expected, later), middle) ∧
      (after.exact = true → middle.exact = true) ∧ after.TypesAgree expected content

/-- What has been constructed: the type of a tag, applied to variables, of which so much is known
that the payload agrees with the template of the tag. -/
structure Constructed (session : Session) (typeName tagName : String)
    (payload : Option InferredType) (type : InferredType) (after : Session)
    (definition : TaggedType) (tag : Tag) (operands : List (Operand InferredType InferredUnit)) :
    Prop where
  known : session.registry.type? typeName = some definition
  tagged : definition.tag? tagName = some tag
  wellformed : after.store.Wellformed
  vars : ∀ value, .type value ∈ operands → ∃ var, value = .var var
  agree : after.store.TypesAgree type (.tagged typeName operands)
  bare : payload = none → tag.payload = none
  carrying : ∀ content, payload = some content → ∃ template, tag.payload = some template ∧
    PayloadAgrees (definition.payloadLabel tag)
      (Bindings.empty.putOperands definition.params operands) after.store template content

/-- What a constructor is made of: new variables, and an instance of the template if there is
one. -/
theorem tagConstructor_eq_ok {expected : Option InferredType}
    (done : tagConstructor typeName tagName session = (.ok (constructed, expected), after)) :
    ∃ definition tag operands,
      session.registry.type? typeName = some definition ∧ definition.tag? tagName = some tag ∧
      (∀ value, .type value ∈ operands → ∃ var, value = .var var) ∧
      constructed = .tagged typeName operands ∧
      (tag.payload = none ∧ expected = none ∨
        ∃ template made before later, tag.payload = some template ∧ expected = some made ∧
          (template.instantiate (definition.payloadLabel tag)
              (Bindings.empty.putOperands definition.params operands) : StateM Store _) before =
            ((.ok made, later), after.store)) := by
  rw [tagConstructor, get_bind_apply] at done
  dsimp only at done
  cases known : session.registry.type? typeName with
  | none =>
    rw [known] at done
    cases done
  | some definition =>
    rw [known] at done
    dsimp only at done
    cases tagged : definition.tag? tagName with
    | none =>
      rw [tagged] at done
      cases done
    | some tag =>
      rw [tagged] at done
      obtain ⟨operands, store, fresh, vars⟩ :=
        freshOperands_apply definition.params .empty session
      dsimp only at done
      rw [lift_bind_apply, fresh] at done
      refine ⟨definition, tag, operands, rfl, tagged, vars, ?_⟩
      cases carries : tag.payload with
      | none =>
        rw [carries] at done
        cases done
        exact ⟨rfl, .inl ⟨rfl, rfl⟩⟩
      | some template =>
        rw [carries] at done
        dsimp only at done
        rcases run : (instantiateWith (definition.payloadLabel tag) template).run.run
          (Bindings.empty.putOperands definition.params operands) { session with store } with
          ⟨⟨outcome, later⟩, last⟩
        rw [lift_bind_apply, run] at done
        obtain ⟨made, rfl, rest⟩ := result_bind_eq_ok.mp done
        cases rest
        exact ⟨rfl, .inr ⟨template, made, store, later, rfl, rfl,
          instantiateWith_eq_ok run⟩⟩

private theorem agree_of_resolve (wellformed : session.store.Wellformed)
    (covered : session.store.Covers constructed)
    (done : (liftM (resolve constructed) : Checking InferredType) session = (.ok type, after)) :
    session.store.Extends after.store ∧ after.store.TypesAgree type constructed := by
  have resolved := resolve_yields wellformed covered
  cases done
  exact ⟨extends_of_run resolved.steps, fun _ _ _ => resolved.ends.value⟩

theorem construct_eq_ok {payload : Option InferredType} (wellformed : session.store.Wellformed)
    (covered : ∀ content, payload = some content → session.store.Covers content)
    (done : construct typeName tagName payload session = (.ok type, after)) :
    ∃ definition tag operands,
      Constructed session typeName tagName payload type after definition tag operands := by
  obtain ⟨⟨constructed, expected⟩, ready, prepared, rest⟩ := bind_eq_ok.mp done
  obtain ⟨steps, ends⟩ : Relation.ReflTransGen Evolving session ready ∧
      ready.store.Covers constructed ∧
        ∀ content, expected = some content → ready.store.Covers content := by
    have prepares : Yields Evolving session (tagConstructor typeName tagName) _ :=
      tagConstructor_yields typeName tagName
    have steps := prepares.steps
    have ends := prepares.ends
    rw [prepared] at steps ends
    exact ⟨steps, ends⟩
  have extended := extends_of_run steps
  have readyWellformed := extended.wellformed wellformed
  obtain ⟨definition, tag, operands, known, tagged, vars, rfl, carried⟩ :=
    tagConstructor_eq_ok prepared
  refine ⟨definition, tag, operands, ?_⟩
  cases expected with
  | none =>
    cases payload with
    | some content => cases rest
    | none =>
      obtain ⟨further, agree⟩ := agree_of_resolve readyWellformed ends.1 rest
      refine ⟨known, tagged, further.wellformed readyWellformed, vars, agree, fun _ => ?_,
        by simp⟩
      rcases carried with ⟨bare, _⟩ | ⟨_, _, _, _, _, impossible, _⟩
      · exact bare
      · cases impossible
  | some expected =>
    cases payload with
    | none => cases rest
    | some content =>
      obtain ⟨_, middle, unified, last⟩ := bind_eq_ok.mp rest
      obtain ⟨whole, _, unified, same⟩ := bind_eq_ok.mp unified
      cases same
      rw [unify, get_bind_apply] at unified
      have unified := inferEscalating_eq_ok unified
      have solves := (unify_solves (some ready.registry) readyWellformed (ends.2 expected rfl)
        (extended.covers (covered content rfl))).yields
      have solving := solves.steps
      have solved := solves.ends
      rw [unified] at solving solved
      have solution := Solving.run_extends solving
      have middleWellformed := solution.wellformed readyWellformed
      obtain ⟨further, agree⟩ :=
        agree_of_resolve middleWellformed (solution.covers ends.1) last
      refine ⟨known, tagged, further.wellformed middleWellformed, vars, agree, by simp,
        fun other same => ?_⟩
      cases same
      rcases carried with ⟨_, impossible⟩ | ⟨template, _, _, _, carries, same, instantiated⟩
      · cases impossible
      · cases same
        exact ⟨template, carries, expected, _, _, _, instantiated,
          fun exact => solution.exact (further.exact exact),
          solved.sides.later middleWellformed further⟩

/-- Whether no exponent has stopped at the limit so far, nor does in making a type concrete. -/
def ConcretizesExactly (session : Session) (type : InferredType) : Prop :=
  session.store.exact = true ∧
    session.store.ConcretizesExactly session.registry session.options.allowDefaults type

theorem concretize_eq_ok (done : (concretize type session).1 = .ok made) :
    session.store.concretize session.registry session.options.allowDefaults type = .ok made :=
  eq_ok_of_escalate done

theorem value_of_concretize (wellformed : session.store.Wellformed)
    (exact : session.ConcretizesExactly type) (done : (concretize type session).1 = .ok made) :
    made.value = session.store.defaulted type :=
  Store.value_of_concretize wellformed exact.2 (concretize_eq_ok done)

/-- When the type of a tagged value is made concrete and opened, there is one tag of the name that
it was constructed with, and that carries the concrete type of the payload, or none if there is no
payload. -/
theorem construct_opens {typeName tagName name : String} {payload : Option InferredType}
    {type : InferredType} {operands : List ConcreteOperand} {tags : List ConcreteTag}
    (declared : session.registry.Reachable) (reachable : session.Reachable)
    (covered : ∀ content, payload = some content → session.store.Covers content)
    (constructed : construct typeName tagName payload session = (.ok type, after))
    (made : (concretize type after).1 = .ok (.tagged name operands))
    (opened : ConcreteType.tags session.registry name operands = .ok tags)
    (exact : after.ConcretizesExactly type)
    (opens : ConcreteType.OpensExactly session.registry name operands) :
    ∃ entry, tags.filter (fun tag => tag.name == tagName) = [entry] ∧
      (∀ content result, payload = some content → (concretize content after).1 = .ok result →
        after.ConcretizesExactly content → entry.payload = some result) ∧
      (payload = none → entry.payload = none) := by
  obtain ⟨definition, tag, vars, built⟩ :=
    construct_eq_ok reachable.wellformed covered constructed
  have whole := (value_of_concretize built.wellformed exact made).trans
    (built.agree.defaulted built.wellformed exact.1)
  rw [ConcreteType.value_tagged, defaulted_tagged] at whole
  obtain ⟨rfl, same⟩ := TypeTerm.tagged.inj whole
  obtain ⟨_, bindings, found, enough, bound, _, each⟩ := ConcreteType.tags_eq_ok opened
  cases built.known.symm.trans found
  have member : tag ∈ definition.tags := List.mem_of_find?_eq_some built.tagged
  have paired : List.Forall₂ (ConcreteType.TagMade session.registry definition bindings)
      (definition.tags.filter fun tag => tag.name == tagName)
      (tags.filter fun tag => tag.name == tagName) := by
    refine List.rel_filter (fun origin made own => ?_) each
    change (origin.name == tagName) = true ↔ (made.name == tagName) = true
    rw [own.name]
  rw [TaggedType.filter_of_tag? (declared.consistent.tagsDistinct name definition found)
    built.tagged] at paired
  obtain ⟨entry, _, own, rest, only⟩ := List.forall₂_cons_left_iff.mp paired
  cases List.forall₂_nil_left_iff.mp rest
  obtain ⟨carries, origin⟩ := ConcreteType.mapM_eq_ok own.payload
  refine ⟨entry, only, fun content result given done contentExact => ?_, fun absent => ?_⟩
  · obtain ⟨template, carried, expected, _, _, _, instantiated, middle, agree⟩ :=
      built.carrying content given
    rw [carried, Option.isSome_some] at carries
    obtain ⟨payload, there⟩ := Option.isSome_iff_exists.mp carries
    obtain ⟨_, known, direct⟩ := origin payload there
    cases carried.symm.trans known
    have binds := ConcreteType.binds_of_bindOperands enough bound
    have payloadValue : payload.value = after.store.defaulted expected :=
      value_of_instance declared.tagsDistinct
        (declared.consistent.payloads name definition found tag member template carried)
        ((BoundAlike.empty after.store).putOperands built.vars same bound)
        (fun var param => binds.typeVars var (.inl param))
        (fun var param => binds.unitVars var (.inl param))
        (opens definition bindings found bound tag member template carried) instantiated
        (middle exact.1) direct
    have contentValue : result.value = after.store.defaulted content :=
      value_of_concretize built.wellformed contentExact done
    rw [there, ConcreteType.value_injective (contentValue.trans
      ((agree.defaulted built.wellformed exact.1).symm.trans payloadValue.symm))]
  · rw [built.bare absent] at carries
    exact Option.not_isSome_iff_eq_none.mp (Bool.eq_false_iff.mp carries)

/-- A parameter in two powers, one for a type that is left open, and one that is not used. -/
theorem construct_opens_motion :
    let definition : TaggedType := ⟨"Motion", [.unit "u", .type "t", .type "unused"],
      [⟨"Rest", none⟩, ⟨"Moving", some (.record
        [("speed", .number ((UnitTerm.ofVar "u").divide (.named "s"))),
          ("area", .number ((UnitTerm.ofVar "u").raise 2)), ("load", .array (.var "t"))])⟩]⟩
    let session := (start (Registry.builtin.after (.type definition)) {}).after (.freshType .none)
    let content : InferredType := .record [("area", .number ((UnitTerm.named "m").raise 2)),
      ("load", .array (.var ⟨0⟩)), ("speed", .number ((UnitTerm.named "m").divide (.named "s")))]
    let result : ConcreteType := .record [("area", .number ((PowerProduct.ofKey "m").raise 2)),
      ("load", .array ConcreteType.void),
      ("speed", .number ((PowerProduct.ofKey "m").divide (.ofKey "s")))]
    let operands : List ConcreteOperand :=
      [.unit (.ofKey "m"), .type ConcreteType.void, .type ConcreteType.void]
    ∃ type after tags entry,
      construct "Motion" "Moving" (some content) session = (.ok type, after) ∧
        (concretize type after).1 = .ok (.tagged "Motion" operands) ∧
        (concretize content after).1 = .ok result ∧
        ConcreteType.tags session.registry "Motion" operands = .ok tags ∧
        tags.filter (fun tag => tag.name == "Moving") = [entry] ∧ entry.payload = some result := by
  intro definition session content result operands
  let type : InferredType :=
    .tagged "Motion" [.unit (.named "m"), .type (.var ⟨0⟩), .type (.var ⟨2⟩)]
  have declared : session.registry.Reachable := .after .builtin _
  have reachable : session.Reachable :=
    (reachable_start _ {}).after (.freshType .none) trivial
  have covered : session.store.Covers content := by decide +kernel
  have done : (construct "Motion" "Moving" (some content) session).1 = .ok type := by
    decide +kernel
  have made : (concretize type (construct "Motion" "Moving" (some content) session).2).1 =
      .ok (.tagged "Motion" operands) := by decide +kernel
  have contentMade : (concretize content
      (construct "Motion" "Moving" (some content) session).2).1 = .ok result := by decide +kernel
  have opened : ConcreteType.tags session.registry "Motion" operands =
      .ok [⟨"Rest", 0, none⟩, ⟨"Moving", 1, some result⟩] := by decide +kernel
  have exact : (construct "Motion" "Moving" (some content) session).2.ConcretizesExactly type :=
    ⟨by decide +kernel, .internal "", by decide +kernel⟩
  have contentExact :
      (construct "Motion" "Moving" (some content) session).2.ConcretizesExactly content :=
    ⟨by decide +kernel, .internal "", by decide +kernel⟩
  have opens : ConcreteType.OpensExactly session.registry "Motion" operands := by
    have known : session.registry.type? "Motion" = some definition := by decide +kernel
    intro other bindings found bound tag member payload carries unit has
    cases known.symm.trans found
    cases bound
    rcases List.mem_cons.mp member with rfl | last
    · cases carries
    · obtain rfl := List.mem_singleton.mp last
      cases carries
      have either : unit = (UnitTerm.ofVar "u").divide (.named "s") ∨
          unit = (UnitTerm.ofVar "u").raise 2 := by
        simpa [TypeTerm.HasUnit, TypeTerm.leaves, TypeTerm.fieldsLeaves] using has
      rcases either with rfl | rfl
      · exact ⟨.internal "", by decide +kernel⟩
      · exact ⟨.internal "", by decide +kernel⟩
  generalize run : construct "Motion" "Moving" (some content) session = outcome at *
  obtain ⟨_, after⟩ := outcome
  cases done
  obtain ⟨entry, only, carries, _⟩ := construct_opens declared reachable
    (fun other same => Option.some.inj same ▸ covered) run made opened exact opens
  exact ⟨type, after, _, entry, rfl, made, contentMade, opened, only,
    carries content result rfl contentMade contentExact⟩

end Session

end SheetTypes
