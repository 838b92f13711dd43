import SheetTypes.Proofs.Concrete.Checked
import SheetTypes.Proofs.Concrete.Form
import SheetTypes.Proofs.Session.Unification

/-!
Concretizing and resolving. As long as no exponent passes the limit, a type and what it resolves to
are made concrete alike, if defaults are allowed. Without defaults, unit variables that cancel out
in resolving count too: a type is made concrete like its resolved form exactly if all of the unit
variables that its links lead to are linked.
-/

set_option autoImplicit false

namespace SheetTypes

def TypeError.IsAmbiguity (error : TypeError) : Prop :=
  ∃ var required, error.cause = .ambiguousType var required

namespace TypeTerm

variable {ν υ μ ω ξ : Type} {onVar : ν → TypeTerm μ ξ} {onUnit : υ → ξ} {onImage : ω → ξ}

def LeafAlike (onVar : ν → TypeTerm μ ξ) (onUnit : υ → ξ) (onImage : ω → ξ) :
    (ν × TypeTerm μ ω) ⊕ (υ × ω) → Prop
  | .inl pair => onVar pair.1 = pair.2.substitute .var onImage
  | .inr pair => onUnit pair.1 = onImage pair.2

private theorem pairedOperands {operands : List (Operand (TypeTerm ν υ) υ)}
    {images : List (Operand (TypeTerm μ ω) ω)}
    (each : ∀ value, .type value ∈ operands → ∀ image : TypeTerm μ ω,
      value.substitute onVar onUnit = image.substitute .var onImage →
        Paired (LeafAlike onVar onUnit onImage) value image)
    (same : operands.map (Operand.map (substitute onVar onUnit) onUnit) =
      images.map (Operand.map (substitute .var onImage) onImage)) :
    ∃ pairings : List (Operand (Pairing ν υ μ ω) (υ × ω)),
      pairings.map (Operand.map Pairing.source Prod.fst) = operands ∧
      pairings.map (Operand.map Pairing.image Prod.snd) = images ∧
      ∀ leaf ∈ operandsLeaves pairings, LeafAlike onVar onUnit onImage leaf := by
  induction operands generalizing images with
  | nil =>
    cases images with
    | nil => exact ⟨[], rfl, rfl, List.forall_mem_nil _⟩
    | cons image images => cases same
  | cons operand operands ih =>
    cases images with
    | nil => cases same
    | cons image images =>
      obtain ⟨first, rest⟩ := List.cons.inj same
      obtain ⟨pairings, rfl, rfl, allAlike⟩ :=
        ih (fun value member => each value (List.mem_cons_of_mem _ member)) rest
      cases operand with
      | type value =>
        cases image with
        | type image =>
          obtain ⟨pairing, rfl, rfl, alike⟩ :=
            each value (List.mem_cons_self ..) image (Operand.type.inj first)
          refine ⟨.type pairing :: pairings, rfl, rfl, fun leaf inside => ?_⟩
          rcases List.mem_append.mp inside with own | later
          · exact alike leaf own
          · exact allAlike leaf later
        | unit image => cases first
      | unit value =>
        cases image with
        | type image => cases first
        | unit image =>
          exact ⟨.unit (value, image) :: pairings, rfl, rfl,
            List.forall_mem_cons.mpr ⟨Operand.unit.inj first, allAlike⟩⟩

/-- Types with equal substitutions, of which the second only changes units, are paired leaf by
leaf. -/
theorem paired_of_substitute {type : TypeTerm ν υ} {image : TypeTerm μ ω}
    (same : type.substitute onVar onUnit = image.substitute .var onImage) :
    Paired (LeafAlike onVar onUnit onImage) type image := by
  induction type using induction_children generalizing image with
  | step type ih =>
    rcases type.var_or_compound with ⟨name, rfl⟩ | compound
    · refine ⟨.var (name, image), rfl, rfl, fun leaf inside => ?_⟩
      rw [List.mem_singleton.mp inside]
      exact same
    · have imageCompound : image.isVar = false := by
        rcases image.var_or_compound with ⟨name, rfl⟩ | imageCompound
        · exact absurd same (ne_var (isVar_substitute compound) name)
        · exact imageCompound
      have sameParts := congrArg parts same
      rw [parts_substitute _ _ compound, parts_substitute _ _ imageCompound] at sameParts
      obtain ⟨pairings, sources, images, alike⟩ :=
        pairedOperands (fun value member _ => ih value (mem_children.mpr member)) sameParts
      have built : (type.substitute onVar onUnit).rebuild image.parts = type.rebuild image.parts :=
        rebuild_substitute compound _
      rw [same, rebuild_substitute imageCompound, rebuild_parts imageCompound] at built
      rw [built, ← images]
      exact paired_of_parts compound sources alike

end TypeTerm

namespace Store

open TypeTerm

variable {store other : Store} {registry : Registry} {allowDefaults : Bool}
  {complaint : TypeError} {image : InferredType} {links : Nat}
  {meaning : UnitVar → Except TypeError GroundUnit}
  {onVar : TypeVar → Except TypeError ConcreteType} {powers : List (UnitVar × Int)}
  {result : ConcreteType} {unit : InferredUnit}

inductive HoldsUnit (store : Store) : InferredType → InferredUnit → Prop where
  | here {type : InferredType} {unit : InferredUnit} (has : type.HasUnit unit) :
      HoldsUnit store type unit
  | link {type target : InferredType} {var : TypeVar} {unit : InferredUnit} (has : type.HasVar var)
      (linked : store.typeLink? var = some target) (rest : HoldsUnit store target unit) :
      HoldsUnit store type unit

/-- Whether all unit variables that links lead to from a type are linked. -/
def UnitsDetermined (store : Store) (type : InferredType) : Prop :=
  ∀ unit, store.HoldsUnit type unit → store.UnitDetermined unit

theorem UnitsDetermined.var {type : InferredType} {var : TypeVar}
    (determined : store.UnitsDetermined type) (has : type.HasVar var) :
    store.UnitsDetermined (.var var) := by
  intro unit holds
  cases holds with
  | here inside => simp [HasUnit, leaves] at inside
  | link inside linked rest =>
    simp only [HasVar, leaves, List.mem_singleton, Sum.inl.injEq] at inside
    rw [inside] at linked
    exact determined unit (.link has linked rest)

theorem UnitsDetermined.target {var : TypeVar} {target : InferredType}
    (determined : store.UnitsDetermined (.var var)) (linked : store.typeLink? var = some target) :
    store.UnitsDetermined target :=
  fun unit holds => determined unit (.link (List.mem_singleton_self _) linked holds)

theorem multiplyGround_of_ones (ones : ∀ power ∈ powers, meaning power.1 = .ok .one)
    (product : GroundUnit) : multiplyGround meaning product powers = .ok product := by
  induction powers with
  | nil => rfl
  | cons power powers ih =>
    obtain ⟨here, others⟩ := List.forall_mem_cons.mp ones
    rw [multiplyGround, here, except_ok_bind, PowerProduct.multiply_raise_one]
    exact ih others

private theorem groundUnitChecked_mirrors_reduced (wellformed : store.Wellformed)
    {image : InferredUnit} (decided : allowDefaults = true ∨ store.UnitDetermined unit)
    (same : store.meaning.unit unit = InferredUnit.free image)
    (free : ∀ var ∈ image.vars.keys, other.unitLink? var = none) :
    Mirrors complaint Eq (store.groundUnitChecked registry allowDefaults complaint unit)
      (other.groundUnit registry allowDefaults image) := by
  rw [InferredUnit.free_eq] at same
  have plain : multiplyGround (other.groundUnitVar allowDefaults other.units.size) image.names
      image.vars.toList = .ok image.names := by
    refine multiplyGround_of_ones (fun power member => ?_) image.names
    have key := PowerProduct.mem_keys_of_toList member
    rcases decided with defaults | determined
    · rw [groundUnitVar, free power.1 key, if_pos defaults]
    · -- No variable is left in the reduced form.
      have none := determined.meaning_snd wellformed
      rw [same] at none
      exact absurd (DFunLike.congr_fun none power.1) (PowerProduct.mem_keys.mp key)
  rw [groundUnitChecked, groundUnit, plain, except_ok_bind]
  rcases multiplyGroundChecked_meaning wellformed decided with complains | ⟨ground, made, powers⟩
  · exact .inl (by rw [complains]; rfl)
  · rw [same] at powers
    rw [made, except_ok_bind, PowerProduct.powers_injective powers]
    exact .refl _

private theorem meaning_types_unbound {var : TypeVar} (free : store.typeLink? var = none) :
    store.meaning.types var = .var var :=
  extend_types_unbound _ free

/-- Whether a type stands for a type over unbound variables, as another store sees these. -/
structure EndsIn (store other : Store) (type image : InferredType) : Prop where
  same : store.meaning.type type = image.substitute .var InferredUnit.free
  types : ∀ var, image.HasVar var →
    other.typeLink? var = none ∧ other.requirements? var = store.requirements? var
  units : ∀ unit, image.HasUnit unit → ∀ var ∈ unit.vars.keys, other.unitLink? var = none

theorem EndsIn.target (wellformed : store.Wellformed) {var : TypeVar} {target : InferredType}
    (ends : store.EndsIn other (.var var) image) (linked : store.typeLink? var = some target) :
    store.EndsIn other target image := by
  refine ⟨?_, ends.types, ends.units⟩
  rw [← wellformed.meaning_satisfies.types var target linked]
  exact ends.same

private theorem concreteTerm_mirrors_ends (wellformed : store.Wellformed) {type : InferredType}
    (decided : allowDefaults = true ∨ store.UnitsDetermined type)
    (ends : store.EndsIn other type image)
    (vars : ∀ var, type.HasVar var → ∀ part, store.EndsIn other (.var var) part →
      Mirrors complaint Eq (onVar var) (other.concretize registry allowDefaults part)) :
    Mirrors complaint Eq
      (concreteTerm registry onVar (store.groundUnitChecked registry allowDefaults complaint) type)
      (other.concretize registry allowDefaults image) := by
  obtain ⟨pairing, rfl, rfl, alike⟩ := paired_of_substitute ends.same
  refine concreteTerm_mirrors ⟨pairing, rfl, rfl, fun leaf inside => ?_⟩
  have same := alike leaf inside
  cases leaf with
  | inl pair =>
    refine vars pair.1 (hasVar_substitute.mpr ⟨pair, inside, List.mem_singleton_self _⟩) pair.2
      ⟨same, fun var has => ?_, fun unit has => ?_⟩
    · exact ends.types var (hasVar_substitute.mpr ⟨pair, inside, has⟩)
    · exact ends.units unit (hasUnit_substitute.mpr (.inl ⟨pair, inside, has⟩))
  | inr pair =>
    refine groundUnitChecked_mirrors_reduced wellformed ?_ same ?_
    · refine decided.imp_right fun determined => determined pair.1 (.here ?_)
      exact hasUnit_substitute.mpr (.inr ⟨pair, inside, rfl⟩)
    · exact ends.units pair.2 (hasUnit_substitute.mpr (.inr ⟨pair, inside, rfl⟩))

private theorem unboundVar_mirrors {var : TypeVar} (free : store.typeLink? var = none)
    (ends : store.EndsIn other (.var var) image) :
    let required := ((store.requirements? var).getD .none).names
    Mirrors complaint Eq
      (if allowDefaults && required.isEmpty then .ok ConcreteType.void
        else .error (ambiguous var.text required))
      (other.concretize registry allowDefaults image) := by
  intro required
  have same := ends.same
  rw [Valuation.type_var, meaning_types_unbound free] at same
  cases image with
  | var found =>
    cases same
    obtain ⟨unbound, requirements⟩ := ends.types var (List.mem_singleton_self _)
    rw [concretize, concreteTerm, concreteVar, unbound, requirements]
    exact .refl _
  | _ => simp at same

private theorem concreteVarChecked_mirrors_ends (wellformed : store.Wellformed)
    {rank : TypeVar → Nat} (ranking : store.TypeRanking rank) {var : TypeVar}
    (within : rank var ≤ links)
    (decided : allowDefaults = true ∨ store.UnitsDetermined (.var var))
    (ends : store.EndsIn other (.var var) image) :
    Mirrors complaint Eq (store.concreteVarChecked registry allowDefaults complaint links var)
      (other.concretize registry allowDefaults image) := by
  induction links generalizing var image with
  | zero =>
    have free := typeLink?_of_rank_zero ranking (Nat.le_zero.mp within)
    simp only [concreteVarChecked, free]
    exact unboundVar_mirrors free ends
  | succ links ih =>
    rw [concreteVarChecked]
    cases linked : store.typeLink? var with
    | none => exact unboundVar_mirrors linked ends
    | some target =>
      have targetDecided := decided.imp_right fun determined => determined.target linked
      refine concreteTerm_mirrors_ends wellformed targetDecided (ends.target wellformed linked)
        fun next has part partEnds => ih ?_ ?_ partEnds
      · have lower := ranking.below var next ⟨target, linked, has⟩
        omega
      · exact targetDecided.imp_right fun determined => determined.var has

/-- Where defaults are allowed or all its units are determined, a type is made concrete like what it
ends in. -/
theorem concretizeChecked_mirrors_ends (wellformed : store.Wellformed) {type : InferredType}
    (decided : allowDefaults = true ∨ store.UnitsDetermined type)
    (ends : store.EndsIn other type image) :
    Mirrors complaint Eq (store.concretizeChecked registry allowDefaults complaint type)
      (other.concretize registry allowDefaults image) := by
  obtain ⟨rank, ranking, small⟩ := wellformed.exists_typeRanking
  refine concreteTerm_mirrors_ends wellformed decided ends fun var has part partEnds => ?_
  exact concreteVarChecked_mirrors_ends wellformed ranking (small var)
    (decided.imp_right fun determined => determined.var has) partEnds

/-- Without defaults, only types whose units are determined are made concrete. -/
theorem unitsDetermined_of_concretize {type : InferredType}
    (done : store.concretize registry false type = .ok result) : store.UnitsDetermined type := by
  intro unit holds
  unfold concretize at done
  generalize store.types.size = links at done
  induction holds generalizing links result with
  | here has =>
    obtain ⟨ground, made⟩ := ((concreteTerm_eq_ok _).mp done).1.units _ has
    exact unitDetermined_of_groundUnit made
  | link has linked _ ih =>
    obtain ⟨value, made⟩ := ((concreteTerm_eq_ok _).mp done).1.vars _ has
    cases links with
    | zero =>
      rw [concreteVar, linked] at made
      cases made
    | succ links =>
      rw [concreteVar, linked] at made
      exact ih links made

abbrev Unambiguous {α : Type} (run : Except TypeError α) : Prop :=
  Results (fun error => ¬error.IsAmbiguity) (fun _ => True) run

private theorem multiplyGround_unambiguous (product : GroundUnit)
    (each : ∀ power ∈ powers, Unambiguous (meaning power.1)) :
    Unambiguous (multiplyGround meaning product powers) := by
  induction powers generalizing product with
  | nil => trivial
  | cons power powers ih =>
    obtain ⟨here, others⟩ := List.forall_mem_cons.mp each
    exact here.andThen fun value _ => ih _ others

private theorem groundUnitVar_unambiguous {var : UnitVar} (determined : store.VarDetermined var) :
    Unambiguous (store.groundUnitVar allowDefaults links var) := by
  induction links generalizing var with
  | zero =>
    obtain ⟨target, linked⟩ := determined.bound
    rw [groundUnitVar, linked]
    rintro ⟨_, _, impossible⟩
    cases impossible
  | succ links ih =>
    obtain ⟨target, linked⟩ := determined.bound
    rw [groundUnitVar, linked]
    exact multiplyGround_unambiguous _ fun power member =>
      ih (determined.target linked _ (PowerProduct.mem_keys_of_toList member))

private theorem groundUnit_unambiguous (determined : store.UnitDetermined unit) :
    Unambiguous (store.groundUnit registry allowDefaults unit) := by
  refine (multiplyGround_unambiguous _ fun power member => groundUnitVar_unambiguous
    (determined power.1 (PowerProduct.mem_keys_of_toList member))).andThen fun ground _ => ?_
  have checked : Unambiguous (registry.checkUnit ground) := by
    unfold Registry.checkUnit
    split
    · rintro ⟨_, _, impossible⟩
      cases impossible
    · trivial
  exact checked.andThen fun _ _ => trivial

private theorem concreteTerm_unambiguous {type : InferredType}
    (closed : ∀ last, ¬(store.meaning.type type).HasVar last)
    (determined : store.UnitsDetermined type)
    (vars : ∀ var, type.HasVar var → (∀ last, ¬(store.meaning.types var).HasVar last) →
      store.UnitsDetermined (.var var) → Unambiguous (onVar var)) :
    Unambiguous
      (concreteTerm registry onVar (store.groundUnit registry allowDefaults) type) := by
  have definitions (name : String) (count : Nat) :
      Unambiguous (registry.definitionFor name count) := by
    unfold Registry.definitionFor
    split
    · rintro ⟨_, _, impossible⟩
      cases impossible
    · split
      · trivial
      · rintro ⟨_, _, impossible⟩
        cases impossible
  refine concreteTerm_faults definitions ?_ (fun var has => ?_) fun unit has => ?_
  · rintro _ _ ⟨_, _, impossible⟩
    cases impossible
  · exact vars var has
      (fun last inside => closed last (hasVar_substitute.mpr ⟨var, has, inside⟩))
      (determined.var has)
  · exact groundUnit_unambiguous (determined unit (.here has))

private theorem exists_link_of_closed {var : TypeVar}
    (closed : ∀ last, ¬(store.meaning.types var).HasVar last) :
    ∃ target, store.typeLink? var = some target := by
  cases linked : store.typeLink? var with
  | none =>
    rw [meaning_types_unbound linked] at closed
    exact absurd (List.mem_singleton_self _) (closed var)
  | some target => exact ⟨target, rfl⟩

private theorem concreteVar_unambiguous (wellformed : store.Wellformed) {var : TypeVar}
    (closed : ∀ last, ¬(store.meaning.types var).HasVar last)
    (determined : store.UnitsDetermined (.var var)) :
    Unambiguous (store.concreteVar registry allowDefaults links var) := by
  induction links generalizing var with
  | zero =>
    obtain ⟨target, linked⟩ := exists_link_of_closed closed
    rw [concreteVar, linked]
    rintro ⟨_, _, impossible⟩
    cases impossible
  | succ links ih =>
    obtain ⟨target, linked⟩ := exists_link_of_closed closed
    rw [concreteVar, linked]
    rw [wellformed.meaning_satisfies.types var target linked] at closed
    exact concreteTerm_unambiguous closed (determined.target linked) fun _ _ => ih

/-- A type that stands for one without type variables and whose units are determined is not
ambiguous. -/
theorem concretize_unambiguous (wellformed : store.Wellformed) {type : InferredType}
    (closed : ∀ last, ¬(store.meaning.type type).HasVar last)
    (determined : store.UnitsDetermined type) :
    Unambiguous (store.concretize registry allowDefaults type) :=
  concreteTerm_unambiguous closed determined fun _ _ => concreteVar_unambiguous wellformed

variable {type left right : InferredType}

/-- A type ends in what it resolves to, as the store before sees it and as the store after does. -/
theorem endsIn_resolve (wellformed : store.Wellformed) (covered : store.Covers type)
    (exact : store.ResolvesExactly type) (agrees : other = store ∨ other = (resolve type store).2) :
    store.EndsIn other type (resolve type store).1 := by
  have resolved := resolve_resolved wellformed covered
  have settled := Shortens.settled resolved.steps
  refine ⟨wellformed.extend_resolve covered exact _, fun var has => ?_,
    fun unit has var inside => ?_⟩
  · have unbound := resolved.ends.free var has
    rcases agrees with rfl | rfl
    · exact ⟨settled.typeLink?_none.mp unbound, rfl⟩
    · exact ⟨unbound, Shortens.requirements resolved.steps var⟩
  · have unbound := resolved.ends.unitsFree unit has var inside
    rcases agrees with rfl | rfl
    · exact settled.unitLink?_none.mp unbound
    · exact unbound

/-- A type is made concrete exactly if what it ends in is, and without defaults its units are
determined. -/
theorem concretize_ends_iff (wellformed : store.Wellformed) (ends : store.EndsIn other type image)
    (exact : store.ConcretizesExactly registry allowDefaults type) (result : ConcreteType) :
    store.concretize registry allowDefaults type = .ok result ↔
      other.concretize registry allowDefaults image = .ok result ∧
        (allowDefaults = true ∨ store.UnitsDetermined type) := by
  obtain ⟨complaint, calm⟩ := exact
  have plain := (concretizeChecked_mirrors type).eq_ok_iff calm result
  have image (decided : allowDefaults = true ∨ store.UnitsDetermined type) :=
    (concretizeChecked_mirrors_ends wellformed decided ends).eq_ok_iff calm result
  constructor
  · intro done
    have decided : allowDefaults = true ∨ store.UnitsDetermined type := by
      cases allowDefaults with
      | true => exact .inl rfl
      | false => exact .inr (unitsDetermined_of_concretize done)
    exact ⟨(image decided).mp (plain.mpr done), decided⟩
  · rintro ⟨done, decided⟩
    exact plain.mp ((image decided).mpr done)

end Store

open Store Unification

namespace Session

variable {session : Session}

/-- As long as no exponent passes the limit, a type is made concrete exactly if its resolved form is
and, without defaults, all unit variables that its links lead to are linked. Types that have been
unified are then made concrete alike. -/
theorem concretize_iff_resolved (reachable : session.Reachable) (registry : Registry)
    (allowDefaults : Bool) :
    (∀ type, session.store.Covers type → session.store.ResolvesExactly type →
      session.store.ConcretizesExactly registry allowDefaults type →
      ∀ result, session.store.concretize registry allowDefaults type = .ok result ↔
        (Store.resolve type session.store).2.concretize registry allowDefaults
            (Store.resolve type session.store).1 = .ok result ∧
          (allowDefaults = true ∨ session.store.UnitsDetermined type)) ∧
    (∀ type, session.store.Covers type → session.store.ResolvesExactly type →
      (∀ var, ¬(Store.resolve type session.store).1.HasVar var) →
      session.store.UnitsDetermined type →
      ∀ error, session.store.concretize registry allowDefaults type = .error error →
        ¬error.IsAmbiguity) ∧
    ∀ units left right type after, session.store.Covers left → session.store.Covers right →
      Unification.unify units left right session.store = (.ok type, after) →
      after.ResolvesExactly left → after.ResolvesExactly right →
      after.ConcretizesExactly registry allowDefaults left →
      after.ConcretizesExactly registry allowDefaults right →
      ∀ result,
        after.concretize registry allowDefaults left = .ok result ∧
            (allowDefaults = true ∨ after.UnitsDetermined right) ↔
          after.concretize registry allowDefaults right = .ok result ∧
            (allowDefaults = true ∨ after.UnitsDetermined left) := by
  have wellformed := reachable.wellformed
  refine ⟨?_, ?_, ?_⟩
  · intro type covered resolves concretizes
    exact concretize_ends_iff wellformed
      (endsIn_resolve wellformed covered resolves (.inr rfl)) concretizes
  · intro type covered resolves closed determined error failed
    have ends := endsIn_resolve wellformed covered resolves (.inl rfl)
    have unambiguous : Unambiguous (session.store.concretize registry allowDefaults type) := by
      refine concretize_unambiguous wellformed (fun last inside => ?_) determined
      rw [ends.same] at inside
      obtain ⟨var, has, same⟩ := TypeTerm.hasVar_substitute.mp inside
      exact closed var has
    rw [failed] at unambiguous
    exact unambiguous
  · intro units left right type after leftCovered rightCovered unified leftResolves rightResolves
      leftExact rightExact result
    have solves := (unify_solves units wellformed leftCovered rightCovered).yields
    have steps := solves.steps
    have ends := solves.ends
    rw [unified] at steps ends
    have extended := Solving.run_extends steps
    have wellformedAfter := extended.wellformed wellformed
    have leftAfter := extended.covers leftCovered
    have rightAfter := extended.covers rightCovered
    have alike := (resolve_eq_iff wellformedAfter leftAfter rightAfter leftResolves
      rightResolves).mpr ends.sides
    have leftEnds := endsIn_resolve wellformedAfter leftAfter leftResolves (.inl rfl)
    have rightEnds := endsIn_resolve wellformedAfter rightAfter rightResolves (.inl rfl)
    rw [← alike] at rightEnds
    rw [concretize_ends_iff wellformedAfter leftEnds leftExact,
      concretize_ends_iff wellformedAfter rightEnds rightExact]
    exact and_right_comm

theorem concretize_iff_resolved_meters :
    let registry := Registry.empty.putUnit "m" .base
    let length : InferredType := .number (.ofVar ⟨0⟩)
    let session := (((start registry {}).after (.freshType .none)).after .freshUnit).after
      (.unify length (.number (.named "m")))
    let unified := Unification.unify none (.var ⟨0⟩) length session.store
    (Store.resolve length session.store).2.concretize registry false
        (Store.resolve length session.store).1 = .ok (.number (.ofKey "m")) ∧
      unified.2.concretize registry false length = .ok (.number (.ofKey "m")) := by
  intro registry length session unified
  have reachable : session.Reachable :=
    (((reachable_start registry {}).after (.freshType .none) trivial).after .freshUnit
      trivial).after
      (.unify length (.number (.named "m"))) (by constructor <;> decide +kernel)
  have exactly (type : InferredType) (store : Store)
      (calm : store.concretizeChecked registry false (.internal "") type ≠ .error (.internal "")) :
      store.ConcretizesExactly registry false type := ⟨_, calm⟩
  have determined : unified.2.UnitsDetermined length := by
    intro unit holds
    cases holds with
    | here has =>
      cases List.mem_singleton.mp has
      intro var inside
      rw [mem_keys_ofVar inside]
      have linked : unified.2.unitLink? ⟨0⟩ = some (.named "m") := by decide +kernel
      exact .of_target linked fun _ inside => absurd inside List.not_mem_nil
    | link has => simp [length, TypeTerm.HasVar, TypeTerm.leaves] at has
  obtain ⟨resolved, _, alike⟩ := concretize_iff_resolved reachable registry false
  constructor
  · refine ((resolved length (by decide +kernel) (by unfold ResolvesExactly; decide +kernel)
      (exactly _ _ (by decide +kernel)) _).mp ?_).1
    decide +kernel
  · refine ((alike none (.var ⟨0⟩) length length unified.2 (by decide +kernel)
      (by decide +kernel) ?_ (by unfold ResolvesExactly; decide +kernel)
      (by unfold ResolvesExactly; decide +kernel) (exactly _ _ (by decide +kernel))
      (exactly _ _ (by decide +kernel)) _).mp ⟨?_, .inr determined⟩).1
    · exact Prod.ext (by decide +kernel) rfl
    · decide +kernel

/-- Unit variables that cancel out: a type can be ambiguous although its resolved form has no
variables, and although the type that it was unified with is not. -/
theorem concretize_ambiguous_unresolved :
    let product : InferredType := .number ((UnitTerm.ofVar ⟨0⟩).multiply (.ofVar ⟨1⟩))
    let scalar : InferredType := .number .scalar
    let session := (((start .empty {}).after .freshUnit).after .freshUnit).after
      (.unify product scalar)
    session.Reachable ∧ session.store.Covers product ∧ session.store.ResolvesExactly product ∧
      session.store.ConcretizesExactly .empty false product ∧
      (Store.resolve product session.store).1 = scalar ∧
      (Store.resolve product session.store).2.concretize .empty false scalar =
        .ok (.number .one) ∧
      session.store.concretize .empty false scalar = .ok (.number .one) ∧
      session.store.concretize .empty false product = .error (ambiguous "_u1" []) := by
  intro product scalar session
  have reachable : session.Reachable :=
    (((reachable_start .empty {}).after .freshUnit trivial).after .freshUnit trivial).after
      (.unify product scalar) (by constructor <;> decide +kernel)
  refine ⟨reachable, by decide +kernel, ?_, ?_, by decide +kernel, by decide +kernel,
    by decide +kernel, by decide +kernel⟩
  · unfold ResolvesExactly
    decide +kernel
  · exact ⟨.internal "", by decide +kernel⟩

end Session

end SheetTypes
