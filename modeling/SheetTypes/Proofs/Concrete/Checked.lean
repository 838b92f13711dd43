import SheetTypes.Concrete.OfInferred
import SheetTypes.Proofs.Concrete.Form
import SheetTypes.Proofs.Store.Resolution

/-!
Concretizing with checked arithmetic. A run complains where an exponent would stop at the limit; as
long as it does not, it is the plain run, and the units that it makes are exact. Runs are compared
by what they return: apart from complaints, one returns something if and only if the other does.
-/

set_option autoImplicit false

namespace SheetTypes

section Comparing

variable {ε α β γ δ : Type}

/-- Unless the first run complains, either both return something, and then related values, or
neither does. -/
def Mirrors (complaint : ε) (related : α → β → Prop) (run : Except ε α) (other : Except ε β) :
    Prop :=
  run = .error complaint ∨
    (∀ value, run = .ok value → ∃ found, other = .ok found ∧ related value found) ∧
      ∀ found, other = .ok found → ∃ value, run = .ok value ∧ related value found

namespace Mirrors

variable {complaint : ε} {related related' : α → β → Prop} {run : Except ε α} {other : Except ε β}
  {found : β} {last : γ → δ → Prop} {next : α → Except ε γ}

theorem ok {value : α} (holds : related value found) :
    Mirrors complaint related (.ok value) (.ok found) := by
  refine .inr ⟨fun _ same => ?_, fun _ same => ?_⟩
  · cases same
    exact ⟨found, rfl, holds⟩
  · cases same
    exact ⟨value, rfl, holds⟩

theorem fails (fails : ∀ value, run ≠ .ok value) (otherFails : ∀ found, other ≠ .ok found) :
    Mirrors complaint related run other :=
  .inr ⟨fun value done => absurd done (fails value),
    fun found done => absurd done (otherFails found)⟩

theorem mono (mirrors : Mirrors complaint related run other)
    (weaker : ∀ value found, related value found → related' value found) :
    Mirrors complaint related' run other := by
  rcases mirrors with complains | ⟨forward, backward⟩
  · exact .inl complains
  · refine .inr ⟨fun value done => ?_, fun found done => ?_⟩
    · obtain ⟨found, otherDone, holds⟩ := forward value done
      exact ⟨found, otherDone, weaker value found holds⟩
    · obtain ⟨value, runDone, holds⟩ := backward found done
      exact ⟨value, runDone, weaker value found holds⟩

theorem bind {otherNext : β → Except ε δ} (first : Mirrors complaint related run other)
    (rest : ∀ value found, related value found → Mirrors complaint last (next value)
      (otherNext found)) : Mirrors complaint last (run >>= next) (other >>= otherNext) := by
  rcases first with rfl | ⟨forward, backward⟩
  · exact .inl rfl
  · cases run with
    | ok value =>
      obtain ⟨found, rfl, holds⟩ := forward value rfl
      exact rest value found holds
    | error error =>
      refine .fails (by simp [Bind.bind, Except.bind]) fun last done => ?_
      obtain ⟨found, otherDone, _⟩ := except_bind_eq_ok.mp done
      obtain ⟨value, impossible, _⟩ := backward found otherDone
      cases impossible

theorem refl (run : Except ε α) : Mirrors complaint Eq run run :=
  .inr ⟨fun value done => ⟨value, done, rfl⟩, fun value done => ⟨value, done, rfl⟩⟩

theorem andThen {other : Except ε α} {otherNext : α → Except ε δ}
    (first : Mirrors complaint Eq run other)
    (rest : ∀ value, Mirrors complaint last (next value) (otherNext value)) :
    Mirrors complaint last (run >>= next) (other >>= otherNext) :=
  first.bind fun value _ same => same ▸ rest value

theorem eq_ok_iff {other : Except ε α} (mirrors : Mirrors complaint Eq run other)
    (calm : run ≠ .error complaint) (value : α) : run = .ok value ↔ other = .ok value := by
  rcases mirrors with complains | ⟨forward, backward⟩
  · exact absurd complains calm
  · constructor
    · intro done
      obtain ⟨_, otherDone, rfl⟩ := forward value done
      exact otherDone
    · intro done
      obtain ⟨_, runDone, rfl⟩ := backward value done
      exact runDone

/-- What mirrors a success, whichever error is the complaint, cannot be a complaint. -/
theorem exists_ok {first second : ε} (differ : first ≠ second)
    (mirrors : ∀ complaint, Mirrors complaint related run (.ok found)) :
    ∃ value, run = .ok value ∧ related value found := by
  rcases mirrors first with complains | ⟨_, backward⟩
  · rcases mirrors second with again | ⟨_, backward⟩
    · exact absurd (Except.error.inj (complains.symm.trans again)) differ
    · exact backward found rfl
  · exact backward found rfl

end Mirrors

end Comparing

namespace Store

variable {store : Store} {registry : Registry} {allowDefaults : Bool} {complaint : TypeError}
  {ground product result value : GroundUnit} {links : Nat}
  {meaning : UnitVar → Except TypeError GroundUnit} {number : Int} {powers : List (UnitVar × Int)}
  {unit : InferredUnit} {var : UnitVar}

def multiplyChecked (complaint : TypeError) (product value : GroundUnit) (number : Int) :
    Except TypeError GroundUnit :=
  match (value.checkedRaise number).bind product.checkedMultiply with
  | some result => .ok result
  | none => .error complaint

def multiplyGroundChecked {κ : Type} (complaint : TypeError)
    (meaning : κ → Except TypeError GroundUnit) :
    GroundUnit → List (κ × Int) → Except TypeError GroundUnit
  | product, [] => .ok product
  | product, (var, number) :: powers => do
      let value ← meaning var
      let product ← multiplyChecked complaint product value number
      multiplyGroundChecked complaint meaning product powers

def groundUnitVarChecked (store : Store) (allowDefaults : Bool) (complaint : TypeError) :
    Nat → UnitVar → Except TypeError GroundUnit
  | links, var =>
    match store.unitLink? var with
    | none => if allowDefaults then .ok .one else .error (ambiguous var.text [])
    | some target =>
      match links with
      | 0 =>
        .error (.internal ("unit variable " ++ var.text ++ " is part of a link cycle"))
      | links + 1 =>
        multiplyGroundChecked complaint
          (store.groundUnitVarChecked allowDefaults complaint links) target.names
          target.vars.toList

def groundUnitChecked (store : Store) (registry : Registry) (allowDefaults : Bool)
    (complaint : TypeError) (unit : InferredUnit) : Except TypeError GroundUnit := do
  let ground ← multiplyGroundChecked complaint
    (store.groundUnitVarChecked allowDefaults complaint store.units.size) unit.names
    unit.vars.toList
  registry.checkUnit ground
  return ground

def concreteVarChecked (store : Store) (registry : Registry) (allowDefaults : Bool)
    (complaint : TypeError) : Nat → TypeVar → Except TypeError ConcreteType
  | links, var =>
    match store.typeLink? var with
    | none =>
      let required := ((store.requirements? var).getD .none).names
      if allowDefaults && required.isEmpty then .ok ConcreteType.void
      else .error (ambiguous var.text required)
    | some target =>
      match links with
      | 0 =>
        .error (.internal ("type variable " ++ var.text ++ " is part of a link cycle"))
      | links + 1 =>
        concreteTerm registry
          (store.concreteVarChecked registry allowDefaults complaint links)
          (store.groundUnitChecked registry allowDefaults complaint) target

def concretizeChecked (store : Store) (registry : Registry) (allowDefaults : Bool)
    (complaint : TypeError) (type : InferredType) : Except TypeError ConcreteType :=
  concreteTerm registry
    (store.concreteVarChecked registry allowDefaults complaint store.types.size)
    (store.groundUnitChecked registry allowDefaults complaint) type

/-- Whether no exponent stops at the limit in making a unit ground, as far as that goes. -/
def GroundsExactly (store : Store) (registry : Registry) (allowDefaults : Bool)
    (unit : InferredUnit) : Prop :=
  ∃ complaint, store.groundUnitChecked registry allowDefaults complaint unit ≠ .error complaint

/-- Whether no exponent stops at the limit in making a type concrete, as far as that goes. -/
def ConcretizesExactly (store : Store) (registry : Registry) (allowDefaults : Bool)
    (type : InferredType) : Prop :=
  ∃ complaint, store.concretizeChecked registry allowDefaults complaint type ≠ .error complaint

open TypeTerm

section Walks

variable {onVar otherOnVar : TypeVar → Except TypeError ConcreteType}
  {onUnit otherOnUnit : InferredUnit → Except TypeError GroundUnit} {type : InferredType}

private theorem concreteOperands_mirrors {params : List Parameter}
    {pairings : List (Operand (Pairing TypeVar InferredUnit TypeVar InferredUnit)
      (InferredUnit × InferredUnit))}
    (types : ∀ pairing, .type pairing ∈ pairings →
      Mirrors complaint Eq (concreteTerm registry onVar onUnit pairing.source)
        (concreteTerm registry otherOnVar otherOnUnit pairing.image))
    (units : ∀ pair, .unit pair ∈ pairings →
      Mirrors complaint Eq (onUnit pair.1) (otherOnUnit pair.2)) :
    Mirrors complaint Eq
      (concreteOperands registry onVar onUnit params
        (pairings.map (Operand.map Pairing.source Prod.fst)))
      (concreteOperands registry otherOnVar otherOnUnit params
        (pairings.map (Operand.map Pairing.image Prod.snd))) := by
  induction pairings generalizing params with
  | nil =>
    rw [List.map_nil, List.map_nil, concreteOperands, concreteOperands]
    exact .ok rfl
  | cons operand pairings ih =>
    have rest (params : List Parameter) := @ih params
      (fun pairing member => types pairing (List.mem_cons_of_mem _ member))
      fun pair member => units pair (List.mem_cons_of_mem _ member)
    cases params with
    | nil => exact .ok rfl
    | cons param params =>
      cases operand with
      | type pairing =>
        cases param with
        | type name =>
          simp only [List.map_cons, Operand.map, concreteOperands]
          exact (types pairing (List.mem_cons_self ..)).andThen fun made =>
            (rest params).andThen fun others => .ok rfl
        | unit name => exact .fails (fun _ => except_error_ne_ok) fun _ => except_error_ne_ok
      | unit pair =>
        cases param with
        | type name => exact .fails (fun _ => except_error_ne_ok) fun _ => except_error_ne_ok
        | unit name =>
          simp only [List.map_cons, Operand.map, concreteOperands]
          exact (units pair (List.mem_cons_self ..)).andThen fun made =>
            (rest params).andThen fun others => .ok rfl

def LeafMirrors (registry : Registry) (complaint : TypeError)
    (onVar otherOnVar : TypeVar → Except TypeError ConcreteType)
    (onUnit otherOnUnit : InferredUnit → Except TypeError GroundUnit) :
    (TypeVar × InferredType) ⊕ (InferredUnit × InferredUnit) → Prop
  | .inl pair => Mirrors complaint Eq (onVar pair.1)
      (concreteTerm registry otherOnVar otherOnUnit pair.2)
  | .inr pair => Mirrors complaint Eq (onUnit pair.1) (otherOnUnit pair.2)

/-- A type is made concrete like its image if its leaves are. -/
theorem concreteTerm_mirrors {image : InferredType}
    (paired : Paired (LeafMirrors registry complaint onVar otherOnVar onUnit otherOnUnit)
      type image) :
    Mirrors complaint Eq (concreteTerm registry onVar onUnit type)
      (concreteTerm registry otherOnVar otherOnUnit image) := by
  obtain ⟨pairing, rfl, rfl, leaves⟩ := paired
  unfold Pairing.source Pairing.image
  induction pairing using induction_children with
  | step pairing ih =>
    rcases pairing.var_or_compound with ⟨pair, rfl⟩ | compound
    · exact leaves (.inl pair) (List.mem_singleton_self _)
    · rw [concreteTerm_eq (isVar_substitute compound), concreteTerm_eq (isVar_substitute compound),
        registry.parametersOf_substitute compound, registry.parametersOf_substitute compound,
        parts_substitute _ _ compound, parts_substitute _ _ compound]
      simp only [rebuild_substitute compound]
      refine (Mirrors.refl _).andThen fun params => (concreteOperands_mirrors
        (fun value member => ?_) fun pair member => ?_).andThen fun made => .ok rfl
      · have child := mem_children.mpr member
        exact ih value child fun leaf inside => leaves leaf (mem_leaves_of_child child inside)
      · exact leaves (.inr pair) ((hasUnit_iff compound).mpr (.inr member))

theorem paired_self {good : (TypeVar × InferredType) ⊕ (InferredUnit × InferredUnit) → Prop}
    (vars : ∀ var, type.HasVar var → good (.inl (var, .var var)))
    (units : ∀ unit, type.HasUnit unit → good (.inr (unit, unit))) : Paired good type type := by
  refine ⟨type.substitute (fun var => .var (var, .var var)) fun unit => (unit, unit), ?_, ?_, ?_⟩
  · exact (substitute_substitute ..).trans type.substitute_self
  · exact (substitute_substitute ..).trans type.substitute_self
  · intro leaf inside
    rcases (mem_leaves_substitute ..).mp inside with ⟨var, has, own⟩ | ⟨unit, has, rfl⟩
    · rw [List.mem_singleton.mp own]
      exact vars var has
    · exact units unit has

end Walks

theorem multiplyChecked_eq_ok (done : multiplyChecked complaint product value number = .ok result) :
    result = product.multiply (value.raise number) ∧
      result.powers = product.powers + number • value.powers := by
  unfold multiplyChecked at done
  split at done
  next found checked =>
    cases done
    obtain ⟨raised, powers, whole⟩ := Option.bind_eq_some_iff.mp checked
    have sameRaised := PowerProduct.eq_of_checkedRaise powers
    subst sameRaised
    refine ⟨PowerProduct.eq_of_checkedMultiply whole, ?_⟩
    ext key
    rw [PowerProduct.powers_apply, PowerProduct.checkedMultiply_eq_some.mp whole key,
      PowerProduct.checkedRaise_eq_some.mp powers key, Int.mul_comm]
    rfl
  next => cases done

theorem multiplyChecked_eq_error {error : TypeError}
    (failed : multiplyChecked complaint product value number = .error error) :
    error = complaint := by
  unfold multiplyChecked at failed
  split at failed
  · cases failed
  · exact (Except.error.inj failed).symm

private theorem multiplyGroundChecked_mirrors
    {otherMeaning : UnitVar → Except TypeError GroundUnit}
    (each : ∀ power ∈ powers, Mirrors complaint Eq (meaning power.1) (otherMeaning power.1))
    (product : GroundUnit) :
    Mirrors complaint Eq (multiplyGroundChecked complaint meaning product powers)
      (multiplyGround otherMeaning product powers) := by
  induction powers generalizing product with
  | nil => exact .ok rfl
  | cons power powers ih =>
    obtain ⟨here, others⟩ := List.forall_mem_cons.mp each
    rw [multiplyGroundChecked, multiplyGround]
    refine here.andThen fun value => ?_
    cases outcome : multiplyChecked complaint product value power.2 with
    | error error => exact .inl (congrArg Except.error (multiplyChecked_eq_error outcome))
    | ok next =>
      rw [(multiplyChecked_eq_ok outcome).1]
      exact ih others _

private theorem groundUnitVarChecked_mirrors (links : Nat) (var : UnitVar) :
    Mirrors complaint Eq (store.groundUnitVarChecked allowDefaults complaint links var)
      (store.groundUnitVar allowDefaults links var) := by
  induction links generalizing var with
  | zero =>
    rw [groundUnitVarChecked, groundUnitVar]
    exact .refl _
  | succ links ih =>
    rw [groundUnitVarChecked, groundUnitVar]
    cases store.unitLink? var with
    | none => exact .refl _
    | some target => exact multiplyGroundChecked_mirrors (fun power _ => ih power.1) _

theorem groundUnitChecked_mirrors (unit : InferredUnit) :
    Mirrors complaint Eq (store.groundUnitChecked registry allowDefaults complaint unit)
      (store.groundUnit registry allowDefaults unit) := by
  refine (multiplyGroundChecked_mirrors
    (fun power _ => groundUnitVarChecked_mirrors _ power.1) _).andThen fun ground => ?_
  exact .refl _

private theorem concreteVarChecked_mirrors (links : Nat) (var : TypeVar) :
    Mirrors complaint Eq (store.concreteVarChecked registry allowDefaults complaint links var)
      (store.concreteVar registry allowDefaults links var) := by
  induction links generalizing var with
  | zero =>
    rw [concreteVarChecked, concreteVar]
    exact .refl _
  | succ links ih =>
    rw [concreteVarChecked, concreteVar]
    cases store.typeLink? var with
    | none => exact .refl _
    | some target =>
      exact concreteTerm_mirrors
        (paired_self (fun var _ => ih var) fun unit _ => groundUnitChecked_mirrors unit)

theorem concretizeChecked_mirrors (type : InferredType) :
    Mirrors complaint Eq (store.concretizeChecked registry allowDefaults complaint type)
      (store.concretize registry allowDefaults type) :=
  concreteTerm_mirrors (paired_self (fun var _ => concreteVarChecked_mirrors _ var)
    fun unit _ => groundUnitChecked_mirrors unit)

/-- Whether a run complains, or gives the unit with the given exponents. -/
def Grounds (complaint : TypeError) (powers : String →₀ ℤ) (run : Except TypeError GroundUnit) :
    Prop :=
  run = .error complaint ∨ ∃ ground, run = .ok ground ∧ ground.powers = powers

theorem multiplyGroundChecked_grounds {κ : Type}
    {meaning : κ → Except TypeError GroundUnit} {values : κ → String →₀ ℤ}
    {powers : List (κ × Int)}
    (each : ∀ power ∈ powers, Grounds complaint (values power.1) (meaning power.1))
    (product : GroundUnit) :
    Grounds complaint (product.powers + (powers.map fun power => power.2 • values power.1).sum)
      (multiplyGroundChecked complaint meaning product powers) := by
  induction powers generalizing product with
  | nil => exact .inr ⟨product, rfl, by simp⟩
  | cons power powers ih =>
    obtain ⟨here, others⟩ := List.forall_mem_cons.mp each
    rw [multiplyGroundChecked]
    rcases here with complains | ⟨value, made, same⟩
    · exact .inl (by rw [complains]; rfl)
    rw [made, except_ok_bind]
    cases outcome : multiplyChecked complaint product value power.2 with
    | error error => exact .inl (congrArg Except.error (multiplyChecked_eq_error outcome))
    | ok next =>
      have rest := ih others next
      rw [(multiplyChecked_eq_ok outcome).2, same, add_assoc] at rest
      rw [List.map_cons, List.sum_cons]
      exact rest

private theorem map_value {M : Type} [AddCommGroup M] (project : FreeUnit →+ M)
    (values : UnitVar → FreeUnit) (unit : InferredUnit) :
    project (unit.value values) = project (unit.names.powers, 0) +
      (unit.vars.toList.map fun power => power.2 • project (values power.1)).sum := by
  have names : unit.names.value (UnitGroup.named : String → FreeUnit) = (unit.names.powers, 0) := by
    have ground := InferredUnit.free_eq (.ofGround unit.names)
    rw [InferredUnit.free, UnitTerm.value_ofGround] at ground
    rw [ground, UnitTerm.ofGround, PowerProduct.powers_one]
  rw [UnitTerm.value, map_add, names, PowerProduct.value_eq_sum, map_list_sum, List.map_map]
  congr 2
  refine List.map_congr_left fun power _ => ?_
  exact map_zsmul project power.2 _

private theorem multiplyGroundChecked_value {values : UnitVar → FreeUnit}
    (each : ∀ var ∈ unit.vars.keys, Grounds complaint (values var).1 (meaning var)) :
    Grounds complaint (unit.value values).1
      (multiplyGroundChecked complaint meaning unit.names unit.vars.toList) := by
  have sum : (unit.value values).1 = unit.names.powers +
      (unit.vars.toList.map fun power => power.2 • (values power.1).1).sum :=
    map_value (AddMonoidHom.fst ..) values unit
  rw [sum]
  exact @multiplyGroundChecked_grounds _ _ meaning (fun var => (values var).1) _
    (fun power member => each power.1 (PowerProduct.mem_keys_of_toList member)) unit.names

/-- Whether all unit variables that links lead to from a variable are linked. -/
def VarDetermined (store : Store) (var : UnitVar) : Prop :=
  ∀ last, Relation.ReflTransGen store.UnitEdge var last → store.isUnitBound last = true

def UnitDetermined (store : Store) (unit : InferredUnit) : Prop :=
  ∀ var ∈ unit.vars.keys, store.VarDetermined var

theorem VarDetermined.bound (determined : store.VarDetermined var) :
    ∃ target, store.unitLink? var = some target :=
  isUnitBound_iff.mp (determined var .refl)

theorem VarDetermined.target {target : InferredUnit} (determined : store.VarDetermined var)
    (linked : store.unitLink? var = some target) : store.UnitDetermined target :=
  fun _ inside last path => determined last (.head ⟨target, linked, inside⟩ path)

theorem VarDetermined.of_target {target : InferredUnit}
    (linked : store.unitLink? var = some target) (determined : store.UnitDetermined target) :
    store.VarDetermined var := by
  intro last path
  rcases Relation.ReflTransGen.cases_head path with rfl | ⟨next, ⟨other, same, inside⟩, rest⟩
  · exact isUnitBound_iff.mpr ⟨target, linked⟩
  · cases linked.symm.trans same
    exact determined next inside last rest

private theorem unboundUnit_grounds (free : store.unitLink? var = none)
    (decided : allowDefaults = true ∨ store.VarDetermined var) :
    Grounds complaint (store.meaning.units var).1
      (if allowDefaults then .ok .one else .error (ambiguous var.text [])) := by
  rcases decided with defaults | determined
  · have value : store.meaning.units var = (0, Finsupp.single var 1) :=
      extend_units_unbound _ free
    rw [if_pos defaults, value]
    exact .inr ⟨.one, rfl, PowerProduct.powers_one⟩
  · obtain ⟨target, linked⟩ := determined.bound
    cases free.symm.trans linked

private theorem groundUnitVarChecked_grounds (wellformed : store.Wellformed)
    {rank : UnitVar → Nat} (ranking : store.UnitRanking rank) (within : rank var ≤ links)
    (decided : allowDefaults = true ∨ store.VarDetermined var) :
    Grounds complaint (store.meaning.units var).1
      (store.groundUnitVarChecked allowDefaults complaint links var) := by
  induction links generalizing var with
  | zero =>
    have free := unitLink?_of_rank_zero ranking (Nat.le_zero.mp within)
    simp only [groundUnitVarChecked, free]
    exact unboundUnit_grounds free decided
  | succ links ih =>
    rw [groundUnitVarChecked]
    cases linked : store.unitLink? var with
    | none => exact unboundUnit_grounds linked decided
    | some target =>
      rw [wellformed.meaning_satisfies.units var target linked]
      refine multiplyGroundChecked_value fun next inside => ih ?_ ?_
      · have lower := ranking.below var next ⟨target, linked, inside⟩
        omega
      · exact decided.imp_right fun determined => determined.target linked next inside

/-- Where defaults are allowed or a unit is determined, nothing can go wrong in making it ground
but a complaint, and its exponents are those of what it stands for. -/
theorem multiplyGroundChecked_meaning (wellformed : store.Wellformed)
    (decided : allowDefaults = true ∨ store.UnitDetermined unit) :
    Grounds complaint (store.meaning.unit unit).1
      (multiplyGroundChecked complaint
        (store.groundUnitVarChecked allowDefaults complaint store.units.size) unit.names
        unit.vars.toList) := by
  obtain ⟨rank, ranking, small⟩ := wellformed.exists_unitRanking
  exact multiplyGroundChecked_value fun var inside =>
    groundUnitVarChecked_grounds wellformed ranking (small var)
      (decided.imp_right fun determined => determined var inside)

/-- A determined unit stands for one without variables. -/
theorem UnitDetermined.meaning_snd (wellformed : store.Wellformed)
    (determined : store.UnitDetermined unit) : (store.meaning.unit unit).2 = 0 := by
  obtain ⟨rank, ranking⟩ := wellformed.unitsRanked
  have sum (unit : InferredUnit)
      (each : ∀ var ∈ unit.vars.keys, (store.meaning.units var).2 = 0) :
      (store.meaning.unit unit).2 = 0 := by
    have split := map_value (AddMonoidHom.snd ..) store.meaning.units unit
    refine split.trans ((zero_add _).trans (List.sum_eq_zero fun value member => ?_))
    obtain ⟨power, inside, rfl⟩ := List.mem_map.mp member
    rw [AddMonoidHom.coe_snd, each power.1 (PowerProduct.mem_keys_of_toList inside), smul_zero]
  refine sum unit fun var inside => ?_
  have here := determined var inside
  clear inside
  induction var using ranking.induction with
  | step var ih =>
    obtain ⟨target, linked⟩ := here.bound
    rw [wellformed.meaning_satisfies.units var target linked]
    exact sum target fun next inside =>
      ih next ⟨target, linked, inside⟩ (here.target linked next inside)

theorem multiplyGround_eq_ok (done : multiplyGround meaning product powers = .ok result) :
    ∀ power ∈ powers, ∃ value, meaning power.1 = .ok value := by
  induction powers generalizing product with
  | nil => exact List.forall_mem_nil _
  | cons power powers ih =>
    rw [multiplyGround] at done
    obtain ⟨value, here, rest⟩ := except_bind_eq_ok.mp done
    exact List.forall_mem_cons.mpr ⟨⟨value, here⟩, ih rest⟩

private theorem varDetermined_of_groundUnitVar
    (done : store.groundUnitVar false links var = .ok value) : store.VarDetermined var := by
  induction links generalizing var value with
  | zero =>
    rw [groundUnitVar] at done
    cases linked : store.unitLink? var with
    | none => rw [linked] at done; cases done
    | some target => rw [linked] at done; cases done
  | succ links ih =>
    rw [groundUnitVar] at done
    cases linked : store.unitLink? var with
    | none => rw [linked] at done; cases done
    | some target =>
      rw [linked] at done
      refine .of_target linked fun next inside => ?_
      rw [← PowerProduct.toList_keys] at inside
      obtain ⟨power, member, rfl⟩ := List.mem_map.mp inside
      obtain ⟨found, made⟩ := multiplyGround_eq_ok done power member
      exact ih made

/-- Without defaults, only determined units are made ground. -/
theorem unitDetermined_of_groundUnit (done : store.groundUnit registry false unit = .ok ground) :
    store.UnitDetermined unit := by
  obtain ⟨_, made, _⟩ := except_bind_eq_ok.mp done
  intro var inside
  rw [← PowerProduct.toList_keys] at inside
  obtain ⟨power, member, rfl⟩ := List.mem_map.mp inside
  obtain ⟨found, here⟩ := multiplyGround_eq_ok made power member
  exact varDetermined_of_groundUnitVar here

/-- A unit that is made ground exactly is decided, and has the exponents of what it stands for. -/
theorem powers_of_groundUnitChecked (wellformed : store.Wellformed)
    (done : store.groundUnitChecked registry allowDefaults complaint unit = .ok ground) :
    (allowDefaults = true ∨ store.UnitDetermined unit) ∧
      ground.powers = (store.meaning.unit unit).1 ∧ registry.checkUnit ground = .ok () := by
  have calm : store.groundUnitChecked registry allowDefaults complaint unit ≠ .error complaint :=
    done ▸ except_error_ne_ok.symm
  have plain := ((groundUnitChecked_mirrors unit).eq_ok_iff calm ground).mp done
  have decided : allowDefaults = true ∨ store.UnitDetermined unit := by
    cases allowDefaults with
    | true => exact .inl rfl
    | false => exact .inr (unitDetermined_of_groundUnit plain)
  obtain ⟨found, made, rest⟩ := except_bind_eq_ok.mp done
  obtain ⟨_, declared, same⟩ := except_bind_eq_ok.mp rest
  cases same
  rcases multiplyGroundChecked_meaning wellformed decided with complains | ⟨other, same, powers⟩
  · cases made.symm.trans complains
  · cases made.symm.trans same
    exact ⟨decided, powers, declared⟩

end Store

end SheetTypes
