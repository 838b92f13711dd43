import SheetTypes.Proofs.Concrete.Resolution

/-!
Making types concrete without defaults, while links are shortened. A run that has succeeded keeps
its result if more links may be taken, and also if linked variables skip to what they stand for, or
to the ground unit that they have been reduced to. Exponents may stop at the limit: powers are
multiplied in the same order before and after.
-/

set_option autoImplicit false

namespace SheetTypes.Store

open TypeTerm

variable {store before middle after : Store} {registry : Registry} {ground : GroundUnit}

section Walks

variable {onVar otherOnVar : TypeVar → Except TypeError ConcreteType}
  {onUnit otherOnUnit : InferredUnit → Except TypeError GroundUnit}

theorem multiplyGround_mono {meaning otherMeaning : UnitVar → Except TypeError GroundUnit}
    {powers : List (UnitVar × Int)} {product result : GroundUnit}
    (keeps : ∀ power ∈ powers, ∀ value,
      meaning power.1 = .ok value → otherMeaning power.1 = .ok value)
    (done : multiplyGround meaning product powers = .ok result) :
    multiplyGround otherMeaning product powers = .ok result := by
  induction powers generalizing product with
  | nil => exact done
  | cons power powers ih =>
    obtain ⟨here, others⟩ := List.forall_mem_cons.mp keeps
    rw [multiplyGround] at done
    obtain ⟨value, found, rest⟩ := except_bind_eq_ok.mp done
    rw [multiplyGround, here value found]
    exact ih others rest

end Walks

section Links

variable {links more : Nat} {var : TypeVar} {made : ConcreteType} {unitVar : UnitVar}
  {ground other : GroundUnit}

theorem groundUnitVar_zero_ne_ok : store.groundUnitVar false 0 unitVar ≠ .ok ground := by
  intro done
  rw [groundUnitVar] at done
  cases linked : store.unitLink? unitVar with
  | none =>
    rw [linked] at done
    cases done
  | some target =>
    rw [linked] at done
    cases done

/-- Without defaults, only a linked variable stands for a ground unit: for that of its target. -/
theorem groundUnitVar_succ_eq_ok :
    store.groundUnitVar false (links + 1) unitVar = .ok ground ↔
      ∃ target, store.unitLink? unitVar = some target ∧
        multiplyGround (store.groundUnitVar false links) target.names target.vars.toList =
          .ok ground := by
  rw [groundUnitVar]
  cases linked : store.unitLink? unitVar with
  | none => simp
  | some target => simp

theorem concreteVar_zero_ne_ok : store.concreteVar registry false 0 var ≠ .ok made := by
  intro done
  rw [concreteVar] at done
  cases linked : store.typeLink? var with
  | none =>
    rw [linked] at done
    cases done
  | some target =>
    rw [linked] at done
    cases done

/-- Without defaults, only a linked variable is made concrete: into what its target is. -/
theorem concreteVar_succ_eq_ok :
    store.concreteVar registry false (links + 1) var = .ok made ↔
      ∃ target, store.typeLink? var = some target ∧
        concreteTerm registry (store.concreteVar registry false links)
          (store.groundUnit registry false) target = .ok made := by
  rw [concreteVar]
  cases linked : store.typeLink? var with
  | none => simp
  | some target => simp

theorem groundUnitVar_mono (enough : links ≤ more)
    (done : store.groundUnitVar false links unitVar = .ok ground) :
    store.groundUnitVar false more unitVar = .ok ground := by
  induction links generalizing more unitVar ground with
  | zero => exact absurd done groundUnitVar_zero_ne_ok
  | succ links ih =>
    obtain ⟨target, linked, rest⟩ := groundUnitVar_succ_eq_ok.mp done
    cases more with
    | zero => cases enough
    | succ more =>
      apply groundUnitVar_succ_eq_ok.mpr
      exact ⟨target, linked,
        multiplyGround_mono (fun _ _ _ => ih (Nat.le_of_succ_le_succ enough)) rest⟩

theorem concreteVar_mono (enough : links ≤ more)
    (done : store.concreteVar registry false links var = .ok made) :
    store.concreteVar registry false more var = .ok made := by
  induction links generalizing more var made with
  | zero => exact absurd done concreteVar_zero_ne_ok
  | succ links ih =>
    obtain ⟨target, linked, rest⟩ := concreteVar_succ_eq_ok.mp done
    cases more with
    | zero => cases enough
    | succ more =>
      apply concreteVar_succ_eq_ok.mpr
      exact ⟨target, linked, concreteTerm_mono (fun _ _ found => found)
        (fun _ _ _ => ih (Nat.le_of_succ_le_succ enough)) (fun _ _ _ own => own) rest⟩

theorem groundUnitVar_unique (done : store.groundUnitVar false links unitVar = .ok ground)
    (otherDone : store.groundUnitVar false more unitVar = .ok other) : ground = other := by
  have first := groundUnitVar_mono (Nat.le_max_left links more) done
  have second := groundUnitVar_mono (Nat.le_max_right links more) otherDone
  exact Except.ok.inj (first.symm.trans second)

/-- The types that a variable stands for are made concrete like it, with one link less to take. -/
theorem Leads.concreteTerm_eq_ok {last : InferredType} (leads : store.Leads var last)
    (done : store.concreteVar registry false (links + 1) var = .ok made) :
    concreteTerm registry (store.concreteVar registry false links)
      (store.groundUnit registry false) last = .ok made := by
  induction leads generalizing links with
  | last linked =>
    obtain ⟨target, found, rest⟩ := concreteVar_succ_eq_ok.mp done
    cases found.symm.trans linked
    exact rest
  | @next _ second _ linked _ ih =>
    obtain ⟨target, found, rest⟩ := concreteVar_succ_eq_ok.mp done
    cases found.symm.trans linked
    have onward : store.concreteVar registry false links second = .ok made := rest
    cases links with
    | zero => exact absurd onward concreteVar_zero_ne_ok
    | succ links =>
      exact concreteTerm_mono (fun _ _ found => found)
        (fun _ _ _ => concreteVar_mono (Nat.le_succ links)) (fun _ _ _ own => own) (ih onward)

end Links

/-- Whether a store has kept all that another makes concrete without defaults. -/
structure Retains (registry : Registry) (before after : Store) : Prop where
  typeCount : after.types.size = before.types.size
  unitCount : after.units.size = before.units.size
  units : ∀ links var ground, before.groundUnitVar false links var = .ok ground →
    after.groundUnitVar false links var = .ok ground
  types : ∀ links var made, before.concreteVar registry false links var = .ok made →
    after.concreteVar registry false links var = .ok made

private theorem groundUnit_kept (count : after.units.size = before.units.size)
    (units : ∀ links var ground, before.groundUnitVar false links var = .ok ground →
      after.groundUnitVar false links var = .ok ground) {unit : InferredUnit}
    (done : before.groundUnit registry false unit = .ok ground) :
    after.groundUnit registry false unit = .ok ground := by
  obtain ⟨found, made, rest⟩ := except_bind_eq_ok.mp done
  rw [groundUnit, count]
  exact except_bind_eq_ok.mpr
    ⟨found, multiplyGround_mono (fun power _ value => units _ power.1 value) made, rest⟩

private theorem groundUnitVar_kept
    (links : ∀ var target, before.unitLink? var = some target → after.unitLink? var = some target)
    {count : Nat} {var : UnitVar} (done : before.groundUnitVar false count var = .ok ground) :
    after.groundUnitVar false count var = .ok ground := by
  induction count generalizing var ground with
  | zero => exact absurd done groundUnitVar_zero_ne_ok
  | succ count ih =>
    obtain ⟨target, linked, rest⟩ := groundUnitVar_succ_eq_ok.mp done
    apply groundUnitVar_succ_eq_ok.mpr
    exact ⟨target, links var target linked,
      multiplyGround_mono (fun _ _ _ => ih) rest⟩

namespace Retains

theorem groundUnit (retains : Retains registry before after) {unit : InferredUnit}
    (done : before.groundUnit registry false unit = .ok ground) :
    after.groundUnit registry false unit = .ok ground :=
  groundUnit_kept retains.unitCount retains.units done

theorem concreteTerm (retains : Retains registry before after) {links : Nat}
    {type : InferredType} {made : ConcreteType}
    (done : Store.concreteTerm registry (before.concreteVar registry false links)
      (before.groundUnit registry false) type = .ok made) :
    Store.concreteTerm registry (after.concreteVar registry false links)
      (after.groundUnit registry false) type = .ok made :=
  concreteTerm_mono (fun _ _ found => found) (fun var _ made => retains.types links var made)
    (fun _ _ _ => retains.groundUnit) done

theorem refl (registry : Registry) (store : Store) : Retains registry store store :=
  ⟨rfl, rfl, fun _ _ _ done => done, fun _ _ _ done => done⟩

theorem trans (first : Retains registry before middle) (second : Retains registry middle after) :
    Retains registry before after where
  typeCount := second.typeCount.trans first.typeCount
  unitCount := second.unitCount.trans first.unitCount
  units links var ground done := second.units links var ground (first.units links var ground done)
  types links var made done := second.types links var made (first.types links var made done)

theorem of_steps (steps : Relation.ReflTransGen (Retains registry) before after) :
    Retains registry before after := by
  induction steps with
  | refl => exact .refl registry _
  | tail _ step ih => exact ih.trans step

private theorem of_units (links : ∀ var, after.typeLink? var = before.typeLink? var)
    (typeCount : after.types.size = before.types.size)
    (unitCount : after.units.size = before.units.size)
    (units : ∀ links var ground, before.groundUnitVar false links var = .ok ground →
      after.groundUnitVar false links var = .ok ground) : Retains registry before after := by
  refine ⟨typeCount, unitCount, units, ?_⟩
  intro count
  induction count with
  | zero => exact fun _ _ done => absurd done concreteVar_zero_ne_ok
  | succ count ih =>
    intro var made done
    obtain ⟨target, linked, rest⟩ := concreteVar_succ_eq_ok.mp done
    apply concreteVar_succ_eq_ok.mpr
    exact ⟨target, (links var).trans linked, concreteTerm_mono (fun _ _ found => found)
      (fun var _ made => ih var made) (fun _ _ _ => groundUnit_kept unitCount units) rest⟩

theorem note (store : Store) (within : Bool) :
    Retains registry store ⟨store.types, store.units, store.exact && within⟩ := by
  apply of_units
  · exact fun _ => rfl
  · rfl
  · rfl
  · intro links var ground done
    apply groundUnitVar_kept ?_ done
    exact fun _ _ linked => linked

/-- A unit variable may skip to the ground unit that it stands for. -/
theorem setUnit {bound : Nat} {var : UnitVar}
    (known : store.groundUnitVar false bound var = .ok ground) :
    Retains registry store (store.setUnit var (.link (.ofGround ground))) := by
  apply of_units
  · exact fun _ => rfl
  · rfl
  · exact units_size_setUnit
  intro links
  induction links with
  | zero => exact fun _ _ done => absurd done groundUnitVar_zero_ne_ok
  | succ links ih =>
    intro other value done
    obtain ⟨target, linked, rest⟩ := groundUnitVar_succ_eq_ok.mp done
    apply groundUnitVar_succ_eq_ok.mpr
    by_cases own : other = var
    · subst own
      rw [groundUnitVar_unique done known]
      exact ⟨_, unitLink?_setUnit_self (index_lt_of_unitLink linked), rfl⟩
    · exact ⟨target, (unitLink?_setUnit_of_ne own).trans linked,
        multiplyGround_mono (fun power _ => ih power.1) rest⟩

/-- A type variable may skip to what it stands for. -/
theorem setType {var : TypeVar} {last : InferredType} (leads : store.Leads var last) :
    Retains registry store (store.setType var (.link last)) := by
  have units (links : Nat) (other : UnitVar) (ground : GroundUnit)
      (done : store.groundUnitVar false links other = .ok ground) :
      (store.setType var (.link last)).groundUnitVar false links other = .ok ground := by
    apply groundUnitVar_kept ?_ done
    exact fun _ _ linked => linked
  have unitCount : (store.setType var (.link last)).units.size = store.units.size := rfl
  refine ⟨types_size_setType, unitCount, units, ?_⟩
  intro links
  induction links with
  | zero => exact fun _ _ done => absurd done concreteVar_zero_ne_ok
  | succ links ih =>
    intro other made done
    have later {type : InferredType}
        (rest : Store.concreteTerm registry (store.concreteVar registry false links)
          (store.groundUnit registry false) type = .ok made) :=
      concreteTerm_mono (fun _ _ found => found) (fun next _ value => ih next value)
        (fun _ _ _ => groundUnit_kept unitCount units) rest
    apply concreteVar_succ_eq_ok.mpr
    by_cases own : other = var
    · subst own
      exact ⟨last, typeLink?_setType_self leads.index_lt,
        later (leads.concreteTerm_eq_ok done)⟩
    · obtain ⟨target, linked, rest⟩ := concreteVar_succ_eq_ok.mp done
      exact ⟨target, (typeLink?_setType_of_ne own).trans linked, later rest⟩

end Retains

end SheetTypes.Store
