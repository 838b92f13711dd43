import SheetTypes.Proofs.Concrete.Comparison

/-!
A type that is made concrete keeps its form: what it is made into is the type itself with something
else at its leaves. As long as no exponent passes the limit, that is what the type stands for, with
defaults for the variables that stand for nothing.
-/

set_option autoImplicit false

namespace SheetTypes

/-- A concrete type with exponents of any size in its units. -/
noncomputable def ConcreteType.value (type : ConcreteType) : TypeTerm Undetermined ExactUnit :=
  type.substitute .var PowerProduct.powers

theorem ConcreteType.value_injective : Function.Injective ConcreteType.value := by
  have inhabited : Nonempty GroundUnit := ⟨.one⟩
  exact TypeTerm.substitute_injective fun _ _ => PowerProduct.powers_injective

theorem ConcreteType.value_tagged (name : String) (operands : List ConcreteOperand) :
    ConcreteType.value (.tagged name operands) =
      .tagged name (operands.map (Operand.map ConcreteType.value PowerProduct.powers)) :=
  TypeTerm.substitute_tagged ..

namespace Store

open TypeTerm

section Form

variable {registry : Registry} {onVar : TypeVar → Except TypeError ConcreteType}
  {onUnit : InferredUnit → Except TypeError GroundUnit} {μ ω : Type}
  {onVoid : Undetermined → TypeTerm μ ω} {onGround : GroundUnit → ω}
  {types : TypeVar → TypeTerm μ ω} {units : InferredUnit → ω}

/-- What a type is made into is the type with other leaves, also if these are replaced in turn. -/
theorem substitute_of_concreteTerm {type : InferredType} {result : ConcreteType}
    (done : concreteTerm registry onVar onUnit type = .ok result)
    (vars : ∀ var, type.HasVar var → ∀ made, onVar var = .ok made →
      made.substitute onVoid onGround = types var)
    (grounds : ∀ unit, type.HasUnit unit → ∀ made, onUnit unit = .ok made →
      onGround made = units unit) :
    result.substitute onVoid onGround = type.substitute types units := by
  obtain ⟨⟨madeVars, madeUnits, _⟩, rfl⟩ := (concreteTerm_eq_ok result).mp done
  rw [formed, substitute_substitute]
  refine substitute_congr type (fun var has => ?_) fun unit has => ?_
  · obtain ⟨made, own⟩ := madeVars var has
    rw [except_getD_of_ok own, vars var has made own]
  · obtain ⟨made, own⟩ := madeUnits unit has
    rw [except_getD_of_ok own, grounds unit has made own]

end Form

noncomputable def unitDefaulted (store : Store) (unit : InferredUnit) : ExactUnit :=
  (store.meaning.unit unit).1

noncomputable def defaulted (store : Store) (type : InferredType) :
    TypeTerm Undetermined ExactUnit :=
  (store.meaning.type type).substitute (fun _ => .var .void) Prod.fst

variable {store : Store} {registry : Registry} {allowDefaults : Bool} {complaint : TypeError}
  {type left right : InferredType} {var : TypeVar} {made : ConcreteType} {links : Nat}

theorem defaulted_eq_substitute (type : InferredType) :
    store.defaulted type =
      type.substitute (fun var => store.defaulted (.var var)) store.unitDefaulted :=
  substitute_substitute ..

theorem defaulted_tagged (name : String) (operands : List (Operand InferredType InferredUnit)) :
    store.defaulted (.tagged name operands) =
      .tagged name (operands.map (Operand.map store.defaulted store.unitDefaulted)) := by
  have each : store.defaulted =
      substitute (fun var => store.defaulted (.var var)) store.unitDefaulted :=
    funext defaulted_eq_substitute
  rw [defaulted_eq_substitute, substitute_tagged, ← each]

theorem TypesAgree.defaulted (agree : store.TypesAgree left right)
    (wellformed : store.Wellformed) (exact : store.exact = true) :
    store.defaulted left = store.defaulted right := by
  unfold Store.defaulted
  rw [agree store.meaning (.inr exact) wellformed.meaning_satisfies]

private theorem value_of_unbound (free : store.typeLink? var = none)
    (done : store.concreteVarChecked registry allowDefaults complaint links var = .ok made) :
    made.value = store.defaulted (.var var) := by
  have own : store.meaning.types var = .var var := extend_types_unbound _ free
  rw [defaulted, Valuation.type_var, own]
  rw [concreteVarChecked, free] at done
  dsimp only at done
  split at done
  · cases done
    rfl
  · cases done

private theorem value_of_concreteVarChecked (wellformed : store.Wellformed)
    (done : store.concreteVarChecked registry allowDefaults complaint links var = .ok made) :
    made.value = store.defaulted (.var var) := by
  induction links generalizing var made with
  | zero =>
    cases linked : store.typeLink? var with
    | none => exact value_of_unbound linked done
    | some target =>
      rw [concreteVarChecked, linked] at done
      cases done
  | succ links ih =>
    cases linked : store.typeLink? var with
    | none => exact value_of_unbound linked done
    | some target =>
      rw [concreteVarChecked, linked] at done
      rw [defaulted, Valuation.type_var, wellformed.meaning_satisfies.types var target linked]
      refine Eq.trans ?_ (defaulted_eq_substitute target).symm
      exact substitute_of_concreteTerm done (fun _ _ _ own => ih own)
        fun _ _ _ own => (powers_of_groundUnitChecked wellformed own).2.1

/-- What a type is made into exactly is what it stands for. -/
theorem value_of_concretize (wellformed : store.Wellformed)
    (exact : store.ConcretizesExactly registry allowDefaults type)
    (done : store.concretize registry allowDefaults type = .ok made) :
    made.value = store.defaulted type := by
  obtain ⟨complaint, calm⟩ := exact
  have checked := ((concretizeChecked_mirrors type).eq_ok_iff calm made).mpr done
  rw [defaulted_eq_substitute]
  exact substitute_of_concreteTerm checked
    (fun _ _ _ own => value_of_concreteVarChecked wellformed own)
    fun _ _ _ own => (powers_of_groundUnitChecked wellformed own).2.1

end Store

end SheetTypes
