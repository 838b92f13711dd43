import SheetTypes.Proofs.Concrete.Comparison
import SheetTypes.Proofs.Session.Reachability

/-!
Concrete types of templates. A template whose variables are all bound can be made concrete in two
ways: it is instantiated and the instance is made concrete, or it is made concrete at once, from
what its variables stand for. As long as no exponent passes the limit, both ways succeed for the
same templates and give the same type.
-/

set_option autoImplicit false

namespace SheetTypes

open Store

def ConcreteBindings.unitFor (bindings : ConcreteBindings) (name : String) :
    Except TypeError GroundUnit :=
  match bindings.units.lookup name with
  | none => .error (.ofCause (.unresolvedVariable (unitVariableText name)))
  | some unit => .ok unit

def ConcreteBindings.GroundsExactly (bindings : ConcreteBindings) (unit : UnitTemplate) : Prop :=
  ∃ complaint, multiplyGroundChecked complaint bindings.unitFor unit.names unit.vars.toList ≠
    .error complaint

section Instances

variable {store : Store} {registry : Registry} {allowDefaults : Bool} {complaint : TypeError}
  {assumed : Prop} {bindings : Bindings} {gamma : ConcreteBindings} {ground : GroundUnit}
  {unit : UnitTemplate}

/-- Whether a unit variable is bound to a unit, and for concrete types to the exponents of what that
stands for. -/
structure UnitAlike (store : Store) (bindings : Bindings) (gamma : ConcreteBindings)
    (name : String) (unit : InferredUnit) (ground : GroundUnit) : Prop where
  inferred : bindings.units.lookup name = some unit
  concrete : gamma.units.lookup name = some ground
  powers : (store.meaning.unit unit).1 = ground.powers

structure UnitBound (store : Store) (registry : Registry) (allowDefaults : Bool)
    (bindings : Bindings) (gamma : ConcreteBindings) (name : String) (unit : InferredUnit)
    (ground : GroundUnit) : Prop extends UnitAlike store bindings gamma name unit ground where
  decided : allowDefaults = true ∨ store.UnitDetermined unit
  declared : registry.checkUnit ground = .ok ()

noncomputable def ConcreteBindings.powers (gamma : ConcreteBindings)
    (powers : List (String × Int)) : String →₀ ℤ :=
  (powers.map fun power => power.2 • ((gamma.units.lookup power.1).getD .one).powers).sum

private theorem powers_cons {power : String × Int}
    (found : gamma.units.lookup power.1 = some ground) (powers : List (String × Int)) :
    gamma.powers (power :: powers) = power.2 • ground.powers + gamma.powers powers := by
  unfold ConcreteBindings.powers
  rw [List.map_cons, List.sum_cons, found]
  rfl

private theorem instantiateUnitVar_evaluates {name : String} {unit : InferredUnit}
    (found : bindings.units.lookup name = some unit) :
    Evaluates bindings (Template.instantiateUnitVar name) fun result => result = .ok unit :=
  .of_result (Template.instantiateUnitVar_of_bound found) rfl

private theorem multiplyPower_evaluates (product unit : InferredUnit) (number : Int) :
    Evaluates bindings (liftM (multiplyPower product unit number)) fun result =>
      result = .ok (product.multiply (unit.raise number)) ∧
        ((unit.checkedRaise number).bind product.checkedMultiply).isSome = true :=
  ⟨.ok (product.multiply (unit.raise number)), _, fun _ => rfl, fun within => ⟨rfl, within⟩⟩

private theorem instantiatePowers_evaluates {powers : List (String × Int)} (product : InferredUnit)
    (alike : ∀ power ∈ powers, ∃ unit ground,
      UnitAlike store bindings gamma power.1 unit ground) :
    Evaluates bindings (Template.instantiatePowers product powers) fun result =>
      ∃ unit, result = .ok unit ∧
        (store.meaning.unit unit).1 = (store.meaning.unit product).1 + gamma.powers powers ∧
        ∀ var ∈ unit.vars.keys, var ∈ product.vars.keys ∨ ∃ power ∈ powers, ∃ bound,
          bindings.units.lookup power.1 = some bound ∧ var ∈ bound.vars.keys := by
  induction powers generalizing product with
  | nil => exact .ok ⟨product, rfl, (add_zero _).symm, fun _ inside => .inl inside⟩
  | cons power powers ih =>
    obtain ⟨⟨unit, ground, here⟩, others⟩ := List.forall_mem_cons.mp alike
    rw [Template.instantiatePowers]
    refine (instantiateUnitVar_evaluates here.inferred).andThen
      (fun _ same => absurd same except_error_ne_ok) fun value => ?_
    refine (multiplyPower_evaluates product value power.2).andThen
      (fun _ same => absurd same.1 except_error_ne_ok) fun grown => ?_
    refine (ih grown others).mono fun result rest made first => ?_
    cases first
    cases made.1
    obtain ⟨last, rfl, value, vars⟩ := rest
    refine ⟨last, rfl, ?_, fun var inside => ?_⟩
    · have step : (store.meaning.unit (product.multiply (unit.raise power.2))).1 =
          (store.meaning.unit product).1 + power.2 • (store.meaning.unit unit).1 :=
        congrArg Prod.fst (UnitTerm.value_multiply_raise store.meaning.units made.2)
      rw [value, step, here.powers, add_assoc, powers_cons here.concrete]
    · rcases vars var inside with before | ⟨other, member, later⟩
      · refine (UnitTerm.mem_keys_multiply_raise before).imp_right fun own => ?_
        exact ⟨power, List.mem_cons_self, unit, here.inferred, own⟩
      · exact .inr ⟨other, List.mem_cons_of_mem _ member, later⟩

/-- The instance of a unit whose variables are bound has the exponents of its own names and of what
its variables stand for. -/
theorem instantiateUnit_evaluates
    (alike : ∀ power ∈ unit.vars.toList, ∃ inferred ground,
      UnitAlike store bindings gamma power.1 inferred ground) :
    Evaluates bindings (Template.instantiateUnit unit) fun result =>
      ∃ inferred, result = .ok inferred ∧
        (store.meaning.unit inferred).1 = unit.names.powers + gamma.powers unit.vars.toList ∧
        ∀ var ∈ inferred.vars.keys, ∃ power ∈ unit.vars.toList, ∃ bound,
          bindings.units.lookup power.1 = some bound ∧ var ∈ bound.vars.keys := by
  refine (instantiatePowers_evaluates (.ofGround unit.names) alike).mono ?_
  rintro _ ⟨inferred, rfl, value, vars⟩
  have closed (var : UnitVar) : var ∉ (UnitTerm.ofGround unit.names).vars.keys :=
    List.not_mem_nil
  have own : (store.meaning.unit (.ofGround unit.names)).1 = unit.names.powers := by
    rw [meaning_unit fun var inside => absurd inside (closed var), InferredUnit.free_eq]
    rfl
  rw [own] at value
  exact ⟨inferred, rfl, value, fun var inside => (vars var inside).resolve_left (closed var)⟩

theorem concretePowers_eq_ok (complaint : TypeError) {powers : List (String × Int)}
    (product : GroundUnit)
    (bound : ∀ power ∈ powers, ∃ ground, gamma.units.lookup power.1 = some ground) :
    ∃ result, Template.concretePowers gamma product powers = .ok result ∧
      Mirrors complaint Eq (multiplyGroundChecked complaint gamma.unitFor product powers)
        (.ok result) := by
  induction powers generalizing product with
  | nil => exact ⟨product, rfl, .ok rfl⟩
  | cons power powers ih =>
    obtain ⟨⟨ground, here⟩, others⟩ := List.forall_mem_cons.mp bound
    obtain ⟨result, made, mirrors⟩ := ih (product.multiply (ground.raise power.2)) others
    refine ⟨result, ?_, ?_⟩
    · simp only [Template.concretePowers, here]
      exact made
    · have own : gamma.unitFor power.1 = .ok ground := by
        simp only [ConcreteBindings.unitFor, here]
      rw [multiplyGroundChecked, own, except_ok_bind]
      cases outcome : multiplyChecked complaint product ground power.2 with
      | error error => exact .inl (congrArg Except.error (multiplyChecked_eq_error outcome))
      | ok next =>
        rw [(multiplyChecked_eq_ok outcome).1]
        exact mirrors

/-- A unit of a template that is made concrete exactly has the exponents of its own names and of
what its variables stand for. -/
theorem powers_of_groundsExactly
    (bound : ∀ power ∈ unit.vars.toList, ∃ ground, gamma.units.lookup power.1 = some ground)
    (exact : gamma.GroundsExactly unit) {result : GroundUnit}
    (made : Template.concretePowers gamma unit.names unit.vars.toList = .ok result) :
    result.powers = unit.names.powers + gamma.powers unit.vars.toList := by
  obtain ⟨complaint, calm⟩ := exact
  have grounds : Grounds complaint (unit.names.powers + gamma.powers unit.vars.toList)
      (multiplyGroundChecked complaint gamma.unitFor unit.names unit.vars.toList) := by
    refine @multiplyGroundChecked_grounds _ _ gamma.unitFor
      (fun name => ((gamma.units.lookup name).getD .one).powers) _ (fun power member => ?_) _
    obtain ⟨ground, here⟩ := bound power member
    refine .inr ⟨ground, ?_, ?_⟩
    · simp only [ConcreteBindings.unitFor, here]
    · rw [here, Option.getD_some]
  obtain ⟨found, same, mirrors⟩ := concretePowers_eq_ok complaint unit.names bound
  cases made.symm.trans same
  rcases grounds with complains | ⟨ground, done, powers⟩
  · exact absurd complains calm
  · cases (mirrors.eq_ok_iff calm ground).mp done
    exact powers

private theorem checkUnit_iff_of_powers {powers : List (String × Int)} {names : GroundUnit}
    (bound : ∀ power ∈ powers, ∃ unit ground,
      UnitBound store registry allowDefaults bindings gamma power.1 unit ground)
    (same : ground.powers = names.powers + gamma.powers powers) :
    registry.checkUnit ground = .ok () ↔ registry.checkUnit names = .ok () := by
  have unaffected (name : String) (undeclared : registry.hasUnit name = false) :
      ground.exponent name = names.exponent name := by
    have others : gamma.powers powers name = 0 := by
      clear same
      induction powers with
      | nil => rfl
      | cons power powers ih =>
        obtain ⟨⟨unit, value, here⟩, rest⟩ := List.forall_mem_cons.mp bound
        have zero : value.exponent name = 0 := by
          refine Decidable.not_not.mp fun nonzero => ?_
          have declared := Registry.checkUnit_eq_ok.mp here.declared name
            (PowerProduct.mem_keys.mpr nonzero)
          rw [undeclared] at declared
          cases declared
        rw [powers_cons here.concrete, Finsupp.add_apply, Finsupp.smul_apply,
          PowerProduct.powers_apply, zero, smul_zero, ih rest, add_zero]
    have sum := DFunLike.congr_fun same name
    rw [Finsupp.add_apply, others, add_zero] at sum
    exact sum
  have alike (name : String) (undeclared : registry.hasUnit name = false) :
      name ∈ ground.keys ↔ name ∈ names.keys := by
    rw [PowerProduct.mem_keys, PowerProduct.mem_keys, unaffected name undeclared]
  rw [Registry.checkUnit_eq_ok, Registry.checkUnit_eq_ok]
  constructor
  · intro declared name inside
    cases known : registry.hasUnit name with
    | true => rfl
    | false => exact known ▸ declared name ((alike name known).mpr inside)
  · intro declared name inside
    cases known : registry.hasUnit name with
    | true => rfl
    | false => exact known ▸ declared name ((alike name known).mp inside)

private theorem instantiateUnit_agrees (wellformed : store.Wellformed)
    (bound : ∀ power ∈ unit.vars.toList, ∃ inferred ground,
      UnitBound store registry allowDefaults bindings gamma power.1 inferred ground)
    (exact : assumed → gamma.GroundsExactly unit) :
    Evaluates bindings (Template.instantiateUnit unit)
      (Agrees complaint assumed (store.groundUnitChecked registry allowDefaults complaint)
        (Template.concreteUnit registry gamma unit)) := by
  have alike (power : String × Int) (member : power ∈ unit.vars.toList) :
      ∃ inferred ground, UnitAlike store bindings gamma power.1 inferred ground := by
    obtain ⟨inferred, ground, here⟩ := bound power member
    exact ⟨inferred, ground, here.toUnitAlike⟩
  have found (power : String × Int) (member : power ∈ unit.vars.toList) :
      ∃ ground, gamma.units.lookup power.1 = some ground := by
    obtain ⟨_, ground, here⟩ := bound power member
    exact ⟨ground, here.concrete⟩
  refine (instantiateUnit_evaluates alike).mono ?_
  rintro _ ⟨inferred, rfl, value, vars⟩
  have determined : allowDefaults = true ∨ store.UnitDetermined inferred := by
    refine Decidable.or_iff_not_imp_left.mpr fun strict var inside => ?_
    obtain ⟨power, member, other, known, own⟩ := vars var inside
    obtain ⟨_, _, here⟩ := bound power member
    cases known.symm.trans here.inferred
    exact here.decided.resolve_left strict var own
  obtain ⟨product, made, _⟩ := concretePowers_eq_ok complaint unit.names found
  change Mirrors complaint _ (store.groundUnitChecked registry allowDefaults complaint inferred) _
  rw [groundUnitChecked]
  rcases multiplyGroundChecked_meaning wellformed determined with complains | ⟨ground, done, powers⟩
  · exact .inl (by rw [complains]; rfl)
  rw [done, except_ok_bind, Template.concreteUnit, made]
  have declared := checkUnit_iff_of_powers bound (powers.trans value)
  cases known : registry.checkUnit unit.names with
  | ok _ =>
    rw [declared.mpr known]
    refine .ok fun holds => PowerProduct.powers_injective ?_
    rw [powers, value, powers_of_groundsExactly found (exact holds) made]
  | error error =>
    refine .fails (fun _ done => ?_) fun _ => except_error_ne_ok
    obtain ⟨_, checked, _⟩ := except_bind_eq_ok.mp done
    cases known.symm.trans (declared.mp checked)

def LeafBound (store : Store) (registry : Registry) (allowDefaults : Bool) (assumed : Prop)
    (bindings : Bindings) (gamma : ConcreteBindings) : String ⊕ UnitTemplate → Prop
  | .inl name => ∃ type made, bindings.types.lookup name = some type ∧
      gamma.types.lookup name = some made ∧
      store.concretize registry allowDefaults type = .ok made
  | .inr unit =>
    (∀ power ∈ unit.vars.toList, ∃ inferred ground,
      UnitBound store registry allowDefaults bindings gamma power.1 inferred ground) ∧
    (assumed → gamma.GroundsExactly unit)

variable {name label other : String}

theorem instantiateTypeVar_evaluates {type : InferredType}
    (found : bindings.types.lookup name = some type) :
    Evaluates bindings (Template.instantiateTypeVar name) fun result => result = .ok type :=
  .of_result (Template.instantiateTypeVar_of_bound found) rfl

private theorem leaf_agrees (wellformed : store.Wellformed) {leaf : String ⊕ UnitTemplate}
    (bound : LeafBound store registry allowDefaults assumed bindings gamma leaf) :
    Comparison.LeafAgrees
      ⟨registry, bindings, gamma, label, other, complaint, assumed,
        store.concreteVarChecked registry allowDefaults complaint store.types.size,
        store.groundUnitChecked registry allowDefaults complaint⟩ leaf := by
  cases leaf with
  | inl name =>
    intro node
    obtain ⟨type, made, found, foundMade, done⟩ := bound
    refine (instantiateTypeVar_evaluates found).mono ?_
    rintro _ rfl
    have direct : Template.concreteNode registry gamma other node (.var name) = .ok made := by
      simp only [Template.concreteNode, foundMade]
    dsimp only
    rw [direct, ← done]
    exact (concretizeChecked_mirrors type).mono fun _ _ same _ => same
  | inr unit => exact instantiateUnit_agrees wellformed bound.1 bound.2

def Template.instantiated (label : String) (template : Template) (bindings : Bindings)
    (store : Store) : Except TypeError InferredType × Store :=
  let run := (template.instantiate label bindings : StateM Store _) store
  (run.1.1, run.2)

private theorem instantiated_agrees (wellformed : store.Wellformed)
    (distinct : registry.TagsDistinct) {template : Template}
    (bound : ∀ leaf ∈ template.leaves,
      LeafBound store registry allowDefaults assumed bindings gamma leaf)
    (exact : (template.instantiated label bindings store).2.exact = true)
    (complaint : TypeError) (other : String) :
    (template.instantiated label bindings store).2 = store ∧
      Agrees complaint assumed (store.concretizeChecked registry allowDefaults complaint)
        (template.concretize registry gamma other)
        (template.instantiated label bindings store).1 := by
  have evaluates : Evaluates bindings (template.instantiate label)
      (Agrees complaint assumed (store.concretizeChecked registry allowDefaults complaint)
        (template.concretize registry gamma other)) :=
    Comparison.template_agrees distinct
      (fun leaf inside => leaf_agrees wellformed (bound leaf inside)) 0
  obtain ⟨outcome, within, runs, holds⟩ := evaluates
  unfold Template.instantiated at exact ⊢
  rw [runs] at exact ⊢
  obtain ⟨_, noted⟩ := Bool.and_eq_true_iff.mp exact
  refine ⟨?_, holds noted⟩
  rw [noted, Bool.and_true]

private theorem unitBound_of_groundUnit (wellformed : store.Wellformed) {unit : InferredUnit}
    (inferred : bindings.units.lookup name = some unit)
    (concrete : gamma.units.lookup name = some ground)
    (done : store.groundUnit registry allowDefaults unit = .ok ground)
    (exact : store.GroundsExactly registry allowDefaults unit) :
    UnitBound store registry allowDefaults bindings gamma name unit ground := by
  obtain ⟨complaint, calm⟩ := exact
  have checked := ((groundUnitChecked_mirrors unit).eq_ok_iff calm ground).mpr done
  obtain ⟨decided, powers, declared⟩ := powers_of_groundUnitChecked wellformed checked
  exact ⟨⟨inferred, concrete, powers.symm⟩, decided, declared⟩

end Instances

/-- Whether the variables of a template are all bound to types and units that can be made concrete,
units exactly, and the concrete bindings say what these are. -/
structure MadeConcrete (store : Store) (registry : Registry) (allowDefaults : Bool)
    (bindings : Bindings) (gamma : ConcreteBindings) (template : Template) : Prop where
  types : ∀ name, template.HasVar name → ∃ type made,
    bindings.types.lookup name = some type ∧ gamma.types.lookup name = some made ∧
      store.concretize registry allowDefaults type = .ok made
  units : ∀ unit, template.HasUnit unit → ∀ name ∈ unit.vars.keys, ∃ bound ground,
    bindings.units.lookup name = some bound ∧ gamma.units.lookup name = some ground ∧
      store.groundUnit registry allowDefaults bound = .ok ground ∧
      store.GroundsExactly registry allowDefaults bound

/-- Whether no exponent stops at the limit: not in instantiating a template, nor in making the
instance concrete, nor in making the template concrete at once. -/
structure StaysExact (store : Store) (registry : Registry) (allowDefaults : Bool)
    (bindings : Bindings) (gamma : ConcreteBindings) (label other : String)
    (template : Template) : Prop where
  instantiating : (template.instantiated label bindings store).2.exact = true
  concretizing : ∀ type, (template.instantiated label bindings store).1 = .ok type →
    (template.instantiated label bindings store).2.ConcretizesExactly registry allowDefaults type
  direct : ∀ made, template.concretize registry gamma other = .ok made →
    ∀ unit, template.HasUnit unit → gamma.GroundsExactly unit

/-- A template whose variables are bound is made concrete through its instance exactly if it is
made concrete at once, and both give the same type. -/
theorem Template.concretize_instance_iff {session : Session} {registry : Registry}
    {bindings : Bindings} {gamma : ConcreteBindings} {template : Template}
    (declared : registry.Reachable) (reachable : session.Reachable) (allowDefaults : Bool)
    (bound : MadeConcrete session.store registry allowDefaults bindings gamma template)
    (label other : String)
    (exact : StaysExact session.store registry allowDefaults bindings gamma label other template)
    (result : ConcreteType) :
    (∃ type, (template.instantiated label bindings session.store).1 = .ok type ∧
      (template.instantiated label bindings session.store).2.concretize registry allowDefaults
        type = .ok result) ↔
      template.concretize registry gamma other = .ok result := by
  have wellformed := reachable.wellformed
  have leaves : ∀ leaf ∈ template.leaves, LeafBound session.store registry allowDefaults
      (∀ unit, template.HasUnit unit → gamma.GroundsExactly unit) bindings gamma leaf := by
    intro leaf inside
    cases leaf with
    | inl name => exact bound.types name inside
    | inr unit =>
      refine ⟨fun power member => ?_, fun all => all unit inside⟩
      have key : power.1 ∈ unit.vars.keys :=
        PowerProduct.toList_keys unit.vars ▸ List.mem_map_of_mem member
      obtain ⟨inferred, ground, found, foundGround, done, exactly⟩ :=
        bound.units unit inside power.1 key
      exact ⟨inferred, ground, unitBound_of_groundUnit wellformed found foundGround done exactly⟩
  have agrees := instantiated_agrees wellformed declared.tagsDistinct leaves exact.instantiating
  constructor
  · rintro ⟨type, made, done⟩
    obtain ⟨complaint, calm⟩ := exact.concretizing type made
    obtain ⟨same, agree⟩ := agrees complaint other
    rw [same] at calm done
    rw [made] at agree
    have checked := ((concretizeChecked_mirrors type).eq_ok_iff calm result).mpr done
    rcases agree with complains | ⟨forward, _⟩
    · exact absurd complains calm
    · obtain ⟨found, direct, equal⟩ := forward result checked
      rw [equal (exact.direct found direct)]
      exact direct
  · intro direct
    cases made : (template.instantiated label bindings session.store).1 with
    | error error =>
      obtain ⟨_, agree⟩ := agrees error other
      rw [made] at agree
      exact absurd direct (agree result)
    | ok type =>
      obtain ⟨complaint, calm⟩ := exact.concretizing type made
      obtain ⟨same, agree⟩ := agrees complaint other
      rw [same] at calm ⊢
      rw [made] at agree
      rcases agree with complains | ⟨_, backward⟩
      · exact absurd complains calm
      · obtain ⟨value, checked, equal⟩ := backward result direct
        rw [← equal (exact.direct result direct)]
        exact ⟨type, rfl, ((concretizeChecked_mirrors type).eq_ok_iff calm value).mp checked⟩

theorem Template.concretize_instance_speed :
    let session := (((Session.start .builtin {}).after (.freshType .none)).after .freshUnit).after
      (.unifyUnits (.ofVar ⟨0⟩) (.named "m"))
    let speed : UnitTemplate := (UnitTerm.ofVar "u").divide (.named "s")
    let template : Template :=
      .record [("speed", .number speed), ("at", .tagged "Optional" [.type (.var "t")])]
    let bindings : Bindings := ⟨[("t", .array (.var ⟨0⟩))], [("u", .ofVar ⟨0⟩)]⟩
    let gamma : ConcreteBindings := ⟨[("t", .array ConcreteType.void)], [("u", .ofKey "m")]⟩
    let result : ConcreteType :=
      .record [("at", .tagged "Optional" [.type (.array ConcreteType.void)]),
        ("speed", .number ((PowerProduct.ofKey "m").divide (.ofKey "s")))]
    template.concretize .builtin gamma "log" = .ok result ∧
      ∃ type, (template.instantiated "log" bindings session.store).1 = .ok type ∧
        (template.instantiated "log" bindings session.store).2.concretize .builtin true type =
          .ok result := by
  intro session speed template bindings gamma result
  have reachable : session.Reachable :=
    (((Session.reachable_start .builtin {}).after (.freshType .none) trivial).after .freshUnit
      trivial).after (.unifyUnits (.ofVar ⟨0⟩) (.named "m")) (by constructor <;> decide +kernel)
  have units (unit : UnitTemplate) (has : template.HasUnit unit) : unit = speed := by
    simpa [template, TypeTerm.HasUnit, TypeTerm.leaves, TypeTerm.fieldsLeaves,
      TypeTerm.operandsLeaves] using has
  have bound : MadeConcrete session.store .builtin true bindings gamma template := by
    constructor
    · intro name has
      have only : name = "t" := by
        simpa [template, TypeTerm.HasVar, TypeTerm.leaves, TypeTerm.fieldsLeaves,
          TypeTerm.operandsLeaves] using has
      rw [only]
      exact ⟨.array (.var ⟨0⟩), .array ConcreteType.void, rfl, rfl, by decide +kernel⟩
    · intro unit has name inside
      rw [units unit has] at inside
      have keys : speed.vars.keys = ["u"] := by decide +kernel
      rw [keys] at inside
      rw [List.mem_singleton.mp inside]
      exact ⟨.ofVar ⟨0⟩, .ofKey "m", rfl, rfl, by decide +kernel, .internal "", by decide +kernel⟩
  have instantiates : (template.instantiated "log" bindings session.store).1 =
      .ok (.record [("at", .tagged "Optional" [.type (.array (.var ⟨0⟩))]),
        ("speed", .number ((UnitTerm.ofVar ⟨0⟩).divide (.named "s")))]) := by
    decide +kernel
  have exact : StaysExact session.store .builtin true bindings gamma "log" "log" template := by
    refine ⟨by decide +kernel, fun type made => ?_, fun _ _ unit has => ?_⟩
    · cases made.symm.trans instantiates
      exact ⟨.internal "", by decide +kernel⟩
    · rw [units unit has]
      exact ⟨.internal "", by decide +kernel⟩
  have direct : template.concretize .builtin gamma "log" = .ok result := by decide +kernel
  exact ⟨direct, (concretize_instance_iff .builtin reachable true bound "log" "log" exact
    result).mpr direct⟩

end SheetTypes
