import SheetTypes.Proofs.Concrete.Leaves
import SheetTypes.Proofs.Concrete.Parts
import SheetTypes.Proofs.Concrete.Retention
import SheetTypes.Proofs.Registry.Growth

/-!
Making types concrete without defaults is resolving them. Both walk along the same links, and
whatever resolving shortens on its way, a type that is made concrete resolves to what it is made
into. A type that has no variables to begin with is made into itself if its units and its tagged
types are declared.
-/

set_option autoImplicit false

namespace SheetTypes

open TypeTerm

def ConcreteType.lift (type : ConcreteType) : InferredType :=
  type.substitute (fun _ => .text) .ofGround

theorem ConcreteType.lift?_of_closed {type : ConcreteType} (closed : ¬type.HasVar .void) :
    type.lift? = some type.lift :=
  substituteM_of_pure (fun _ has => absurd has closed) fun _ _ => rfl

namespace Store

variable {store : Store} {registry : Registry} {bound links : Nat} {ground : GroundUnit}
  {made result : ConcreteType} {type : InferredType} {unit : InferredUnit} {var : TypeVar}

section Walks

variable {onVar : TypeVar → Except TypeError ConcreteType}
  {onUnit : InferredUnit → Except TypeError GroundUnit}

/-- `VOID` comes from variables only. -/
theorem closed_of_concreteTerm (done : concreteTerm registry onVar onUnit type = .ok result)
    (vars : ∀ var, type.HasVar var → ∀ made, onVar var = .ok made → ¬made.HasVar .void) :
    ¬result.HasVar .void := by
  have whole : result.substitute .var id =
      type.substitute (fun var => (onVar var).toOption.getD .text)
        fun unit => (onUnit unit).toOption.getD .one := by
    apply substitute_of_concreteTerm done
    · exact fun var _ made found => (substitute_self made).trans (except_getD_of_ok found).symm
    · exact fun unit _ ground found => (except_getD_of_ok found).symm
  rw [substitute_self] at whole
  intro has
  rw [whole] at has
  obtain ⟨var, inside, own⟩ := hasVar_substitute.mp has
  obtain ⟨made, found⟩ := ((concreteTerm_eq_ok _).mp done).1.vars var inside
  rw [found] at own
  exact vars var inside made found own

end Walks

theorem closed_of_concreteVar (done : store.concreteVar registry false links var = .ok made) :
    ¬made.HasVar .void := by
  induction links generalizing var made with
  | zero => exact absurd done concreteVar_zero_ne_ok
  | succ links ih =>
    obtain ⟨target, _, rest⟩ := concreteVar_succ_eq_ok.mp done
    exact closed_of_concreteTerm rest fun _ _ _ => ih

theorem multiplyValues_ofGround {meaning : UnitVar → Except TypeError GroundUnit}
    {value : UnitVar → InferredUnit} {powers : List (UnitVar × Int)} {product : GroundUnit}
    (values : ∀ var known, meaning var = .ok known → value var = .ofGround known)
    (done : multiplyGround meaning product powers = .ok ground) :
    multiplyValues value (.ofGround product) powers = .ofGround ground := by
  induction powers generalizing product with
  | nil =>
    cases done
    rfl
  | cons power powers ih =>
    rw [multiplyGround] at done
    obtain ⟨known, found, rest⟩ := except_bind_eq_ok.mp done
    have step : (UnitTerm.ofGround product).multiply ((value power.1).raise power.2) =
        .ofGround (product.multiply (known.raise power.2)) := by
      rw [values power.1 known found]
      exact congrArg (UnitTerm.mk _) (PowerProduct.multiply_raise_one _ _)
    rw [multiplyValues, List.foldl_cons, step]
    exact ih rest

private theorem linked_of_multiplyGround
    (done : multiplyGround (store.groundUnitVar false links) unit.names unit.vars.toList =
      .ok ground) {var : UnitVar} (member : var ∈ unit.vars.keys) :
    store.isUnitBound var = true := by
  rw [← PowerProduct.toList_keys] at member
  obtain ⟨power, inside, rfl⟩ := List.mem_map.mp member
  obtain ⟨known, found⟩ := multiplyGround_eq_ok done power inside
  cases links with
  | zero => exact absurd found groundUnitVar_zero_ne_ok
  | succ links =>
    obtain ⟨target, linked, _⟩ := groundUnitVar_succ_eq_ok.mp found
    exact isUnitBound_iff.mpr ⟨target, linked⟩

private theorem reduceUnit_step
    (vars : ∀ later var known, Retains registry store later →
      later.groundUnitVar false links var = .ok known →
      ∃ after, reduceVar (reduceUnit pure links) var later = (.ofGround known, after) ∧
        Retains registry later after)
    (done : multiplyGround (store.groundUnitVar false links) unit.names unit.vars.toList =
      .ok ground) :
    ∃ after, reduceUnit pure (links + 1) unit store = (.ofGround ground, after) ∧
      Retains registry store after := by
  rw [reduceUnit, state_get_bind_apply]
  split
  next unbound =>
    have absent (var : UnitVar) : var ∉ unit.vars.keys := by
      intro member
      have free := List.all_eq_true.mp unbound var member
      rw [linked_of_multiplyGround done member] at free
      cases free
    obtain ⟨names, powers⟩ := unit
    cases PowerProduct.eq_one_of_keys absent
    cases done
    exact ⟨store, rfl, .refl registry store⟩
  next =>
    let value (var : UnitVar) : InferredUnit :=
      .ofGround ((store.groundUnitVar false links var).toOption.getD .one)
    have values (var : UnitVar) (known : GroundUnit)
        (found : store.groundUnitVar false links var = .ok known) :
        value var = .ofGround known :=
      congrArg UnitTerm.ofGround (except_getD_of_ok found)
    have notes (later : Store) (within : Bool) (retains : Retains registry store later) :
        Retains registry store ⟨later.types, later.units, later.exact && within⟩ :=
      retains.trans (.note later within)
    have each : ∀ power ∈ unit.vars.toList, ∀ later, Retains registry store later →
        ∃ after, reduceVar (reduceUnit pure links) power.1 later = (value power.1, after) ∧
          Retains registry store after := by
      intro power member later retains
      obtain ⟨known, found⟩ := multiplyGround_eq_ok done power member
      obtain ⟨after, reduced, further⟩ :=
        vars later power.1 known retains (retains.units links power.1 known found)
      rw [values power.1 known found]
      exact ⟨after, reduced, retains.trans further⟩
    obtain ⟨after, made, retains⟩ :=
      multiplyPowers_values notes each (.ofGround unit.names) (.refl registry store)
    rw [multiplyValues_ofGround values done] at made
    exact ⟨after, made, retains⟩

/-- A unit that is made ground is reduced to that ground unit, whatever is shortened on the way. -/
theorem reduceUnit_of_ground
    (done : multiplyGround (store.groundUnitVar false links) unit.names unit.vars.toList =
      .ok ground) :
    ∃ after, reduceUnit pure (links + 1) unit store = (.ofGround ground, after) ∧
      Retains registry store after := by
  induction links generalizing store unit ground with
  | zero => exact reduceUnit_step (fun _ _ _ _ found => absurd found groundUnitVar_zero_ne_ok) done
  | succ links ih =>
    apply reduceUnit_step _ done
    intro later var known _ found
    obtain ⟨target, linked, rest⟩ := groundUnitVar_succ_eq_ok.mp found
    obtain ⟨after, reduced, retains⟩ := ih rest
    rw [reduceVar_linked _ linked, reduced]
    have known := retains.units _ var _ found
    exact ⟨_, rfl, retains.trans (.setUnit known)⟩

theorem pruneUnit_of_groundUnit (done : store.groundUnit registry false unit = .ok ground) :
    ∃ after, pruneUnit unit store = (.ofGround ground, after) ∧ Retains registry store after := by
  obtain ⟨found, made, rest⟩ := except_bind_eq_ok.mp done
  obtain ⟨_, _, same⟩ := except_bind_eq_ok.mp rest
  cases same
  obtain ⟨after, reduced, retains⟩ := reduceUnit_of_ground made
  rw [← pruneUnitWithin_eq] at reduced
  exact ⟨after, reduced, retains⟩

/-- The links from a variable that is made concrete end at a type that is no variable. -/
theorem followed_of_concreteVar (enough : links ≤ bound)
    (done : store.concreteVar registry false links var = .ok made) :
    (store.follow bound (.var var)).1.isVar = false ∧
      store.Leads var (store.follow bound (.var var)).1 ∧
      ∀ other ∈ (store.follow bound (.var var)).2,
        store.Leads other (store.follow bound (.var var)).1 := by
  induction links generalizing bound var with
  | zero => exact absurd done concreteVar_zero_ne_ok
  | succ links ih =>
    obtain ⟨target, linked, rest⟩ := concreteVar_succ_eq_ok.mp done
    cases bound with
    | zero => cases enough
    | succ bound =>
      rw [follow_link linked]
      rcases target.var_or_compound with ⟨next, rfl⟩ | compound
      · obtain ⟨compound, leads, chain⟩ := ih (Nat.le_of_succ_le_succ enough) rest
        have first := Leads.next linked leads
        exact ⟨compound, first, List.forall_mem_cons.mpr ⟨first, chain⟩⟩
      · rw [follow_of_not_var compound]
        have first := Leads.last linked
        exact ⟨compound, first, List.forall_mem_cons.mpr ⟨first, List.forall_mem_nil _⟩⟩

theorem prune_of_concreteVar (few : links ≤ store.types.size)
    (done : store.concreteVar registry false links var = .ok made) :
    ∃ last after, prune (.var var) store = (last, after) ∧ last.isVar = false ∧
      store.Leads var last ∧ Retains registry store after := by
  obtain ⟨compound, leads, chain⟩ := followed_of_concreteVar few done
  refine ⟨_, _, prune_apply (Prod.eta _).symm, compound, leads, ?_⟩
  split
  · apply Retains.of_steps
    exact (skip_chain (fun _ _ skips => Retains.setType skips) _ store chain).1
  · exact .refl registry store

/-- Substituting in a type that is made concrete gives what it is made into, if that is so of its
variables. -/
theorem substituteM_of_concreteTerm {resolve : TypeVar → StateM Store InferredType}
    (vars : ∀ later var made, Retains registry store later →
      later.concreteVar registry false links var = .ok made →
      ∃ after, resolve var later = (made.lift, after) ∧ Retains registry later after)
    (done : concreteTerm registry (store.concreteVar registry false links)
      (store.groundUnit registry false) type = .ok result) :
    ∃ after, type.substituteM resolve pruneUnit store = (result.lift, after) ∧
      Retains registry store after := by
  let types (var : TypeVar) : InferredType :=
    ((store.concreteVar registry false links var).toOption.getD .text).lift
  let units (unit : InferredUnit) : InferredUnit :=
    .ofGround ((store.groundUnit registry false unit).toOption.getD .one)
  obtain ⟨⟨madeVars, madeUnits, _⟩, _⟩ := (concreteTerm_eq_ok _).mp done
  have agree : Yields (Retains registry) store (type.substituteM resolve pruneUnit)
      fun image _ => Paired (Sum.elim (fun pair => pair.2 = types pair.1)
        fun pair => pair.2 = units pair.1) type image := by
    apply substituteM_agree
    · exact fun _ _ _ _ _ same => same
    · intro var has later steps
      have retains := Retains.of_steps steps
      obtain ⟨made, found⟩ := madeVars var has
      obtain ⟨after, resolved, further⟩ :=
        vars later var made retains (retains.types links var made found)
      apply Agree.of_apply resolved (.single further)
      exact (congrArg ConcreteType.lift (except_getD_of_ok found)).symm
    · intro unit has later steps
      have retains := Retains.of_steps steps
      obtain ⟨ground, found⟩ := madeUnits unit has
      obtain ⟨after, pruned, further⟩ := pruneUnit_of_groundUnit (retains.groundUnit found)
      apply Agree.of_apply pruned (.single further)
      exact (congrArg UnitTerm.ofGround (except_getD_of_ok found)).symm
  have whole : result.lift = type.substitute types units := by
    apply substitute_of_concreteTerm done
    · intro var _ made found
      exact (congrArg ConcreteType.lift (except_getD_of_ok found)).symm
    · intro unit _ ground found
      exact (congrArg UnitTerm.ofGround (except_getD_of_ok found)).symm
  have image := eq_substitute_of_paired agree.ends
  exact ⟨_, Prod.ext (image.trans whole.symm) rfl, .of_steps agree.steps⟩

private theorem resolveVar_of_prune {last : InferredType} {after : Store}
    (pruned : prune (.var var) store = (last, after)) (compound : last.isVar = false) :
    resolveVar (links + 1) var store = last.substituteM (resolveVar links) pruneUnit after := by
  rw [resolveVar, state_bind_apply, pruned]
  cases last with
  | var name => cases compound
  | _ => rfl

theorem resolveVar_of_concreteVar (enough : links < bound) (few : links ≤ store.types.size)
    (done : store.concreteVar registry false links var = .ok made) :
    ∃ after, resolveVar bound var store = (made.lift, after) ∧ Retains registry store after := by
  induction links generalizing bound store var made with
  | zero => exact absurd done concreteVar_zero_ne_ok
  | succ links ih =>
    cases bound with
    | zero => cases enough
    | succ bound =>
      obtain ⟨last, middle, pruned, compound, leads, retains⟩ :=
        prune_of_concreteVar few done
      rw [resolveVar_of_prune pruned compound]
      have inside := retains.concreteTerm (leads.concreteTerm_eq_ok done)
      obtain ⟨after, resolved, further⟩ := substituteM_of_concreteTerm
        (fun later next value keeps found => ih (Nat.lt_of_succ_lt_succ enough) (by
          rw [keeps.typeCount, retains.typeCount]
          omega) found) inside
      exact ⟨after, resolved, retains.trans further⟩

/-- A type that is made concrete without defaults resolves to what it is made into. -/
theorem resolve_of_concretize (done : store.concretize registry false type = .ok result) :
    (resolve type store).1 = result.lift := by
  obtain ⟨after, resolved, _⟩ := substituteM_of_concreteTerm
    (fun later var made keeps found =>
      resolveVar_of_concreteVar (Nat.lt_succ_self store.types.size)
        (Nat.le_of_eq keeps.typeCount.symm) found) done
  exact congrArg Prod.fst resolved

end Store

/-- Whether a type has no variables, names declared units only and applies tagged types as they are
declared. -/
structure Registry.Settles (registry : Registry) (type : InferredType) : Prop where
  closed : ∀ var, ¬type.HasVar var
  units : ∀ unit, type.HasUnit unit → unit.isGround = true ∧ registry.Declares unit.names
  tags : type.Everywhere fun part => ∀ name operands, part = .tagged name operands →
    registry.Takes name operands

namespace Store

variable {store : Store} {registry : Registry} {allowDefaults : Bool}

/-- A declared unit without variables is the ground unit that it is made into. -/
theorem groundUnit_of_isGround {unit : InferredUnit} (isGround : unit.isGround = true)
    (declared : registry.Declares unit.names) :
    store.groundUnit registry allowDefaults unit = .ok unit.names ∧
      .ofGround unit.names = unit := by
  obtain ⟨names, vars⟩ := unit
  cases PowerProduct.isOne_iff.mp isGround
  refine ⟨?_, rfl⟩
  apply except_bind_eq_ok.mpr
  refine ⟨names, rfl, ?_⟩
  rw [Registry.checkUnit_eq_ok.mpr declared]
  rfl

theorem concretize_of_settles {type : InferredType} (settles : registry.Settles type) :
    ∃ result, store.concretize registry allowDefaults type = .ok result ∧
      ¬result.HasVar .void ∧ result.lift = type := by
  have ground (unit : InferredUnit) (has : type.HasUnit unit) :
      store.groundUnit registry allowDefaults unit = .ok unit.names ∧
        .ofGround unit.names = unit :=
    groundUnit_of_isGround (settles.units unit has).1 (settles.units unit has).2
  obtain ⟨result, done⟩ : ∃ result, store.concretize registry allowDefaults type = .ok result :=
    ⟨_, (concreteTerm_eq_ok _).mpr ⟨⟨fun var has => absurd has (settles.closed var),
      fun unit has => ⟨unit.names, (ground unit has).1⟩, settles.tags⟩, rfl⟩⟩
  refine ⟨result, done, ?_, ?_⟩
  · exact closed_of_concreteTerm done fun var has => absurd has (settles.closed var)
  · have whole : result.lift = type.substitute .var id := by
      apply substitute_of_concreteTerm done
      · exact fun var has => absurd has (settles.closed var)
      · intro unit has made found
        cases found.symm.trans (ground unit has).1
        exact (ground unit has).2
    rw [whole, substitute_self]

/-- Without defaults, a type is made concrete into what it resolves to, and nothing in it is `VOID`.
A type without variables whose units and tagged types are declared is always made concrete, and
into itself. -/
theorem strict_concretize_resolves (store : Store) (registry : Registry) (type : InferredType) :
    (∀ result, store.concretize registry false type = .ok result →
      ¬result.HasVar .void ∧ result.lift? = some (resolve type store).1) ∧
    (registry.Settles type → ∀ allowDefaults, ∃ result,
      store.concretize registry allowDefaults type = .ok result ∧
        result.lift? = some type) := by
  constructor
  · intro result done
    have closed := closed_of_concreteTerm done fun _ _ _ => closed_of_concreteVar
    refine ⟨closed, ?_⟩
    rw [ConcreteType.lift?_of_closed closed, resolve_of_concretize done]
  · intro settles allowDefaults
    obtain ⟨result, done, closed, same⟩ := concretize_of_settles settles
    refine ⟨result, done, ?_⟩
    rw [ConcreteType.lift?_of_closed closed, same]

theorem strict_concretize_resolves_measured :
    let definition : TaggedType := ⟨"MEASURED", [.type "T", .unit "U"], []⟩
    let registry := (Registry.empty.putUnit "m" .base).putType definition
    let measured : InferredType := .tagged "MEASURED"
      [.type (.array (.number ((UnitTerm.ofVar ⟨0⟩).raise 2))), .unit (.ofVar ⟨0⟩)]
    let store : Store := ⟨#[.link (.var ⟨1⟩), .link measured],
      #[.link ((UnitTerm.named "m").multiply (.ofVar ⟨1⟩)), .link (.named "m")], true⟩
    let result : ConcreteType := .tagged "MEASURED"
      [.type (.array (.number ((PowerProduct.ofKey "m").raise 4))),
        .unit ((PowerProduct.ofKey "m").raise 2)]
    let closed : InferredType := .tagged "MEASURED" [.type .text, .unit (.named "m")]
    store.concretize registry false (.var ⟨0⟩) = .ok result ∧
      result.lift? = some (resolve (.var ⟨0⟩) store).1 ∧
      registry.Settles closed ∧
      ∃ made, store.concretize registry true closed = .ok made ∧ made.lift? = some closed := by
  intro definition registry measured store result closed
  have done : store.concretize registry false (.var ⟨0⟩) = .ok result := by decide +kernel
  have settles : registry.Settles closed := by
    refine ⟨?_, ?_, ?_⟩
    · intro var has
      simp [closed, HasVar, leaves, operandsLeaves] at has
    · intro unit has
      simp only [closed, HasUnit, leaves, operandsLeaves, List.nil_append, List.mem_singleton,
        Sum.inr.injEq] at has
      rw [has]
      constructor
      · decide +kernel
      · unfold Registry.Declares
        decide +kernel
    · have inside : ∀ child ∈ closed.children, child = .text := by decide +kernel
      refine everywhere_iff.mpr ⟨?_, ?_⟩
      · intro name operands same
        obtain ⟨sameName, sameOperands⟩ := TypeTerm.tagged.inj same
        rw [← sameName, ← sameOperands]
        exact ⟨definition, by decide +kernel, .cons trivial (.cons trivial .nil)⟩
      · intro child member
        rw [inside child member]
        refine everywhere_iff.mpr ⟨?_, List.forall_mem_nil _⟩
        intro name operands same
        cases same
  have first := strict_concretize_resolves store registry (.var ⟨0⟩)
  have second := strict_concretize_resolves store registry closed
  exact ⟨done, (first.1 result done).2, settles, second.2 settles true⟩

end Store

end SheetTypes
