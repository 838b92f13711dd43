import Mathlib.Logic.Function.Iterate
import SheetTypes.Canonical
import SheetTypes.Proofs.Exponents
import SheetTypes.Proofs.Registry.Invariants

/-!
Rounds of expansion. A round replaces every derived unit by its definition, so that what is left is
one step closer to the bottom; a form without derived units stays as it is. Expansion comes to an
end exactly if no derived unit is left before the last round, which only finds that out.
-/

set_option autoImplicit false

namespace SheetTypes.Registry

variable {registry : Registry} {form : ScaledUnit} {base : GroundUnit} {depth : Nat}
  {name query : String} {scale : Scale}

/-- Whether definitions lead at most so many steps down from a name. A name without a definition is
at the bottom, and a derived unit one step above the highest unit in its base. -/
def depthWithin (registry : Registry) : Nat → String → Bool
  | 0, name => !registry.isDerived name
  | depth + 1, name =>
    match registry.unit? name with
    | some (.derived _ base) => base.keys.all (registry.depthWithin depth)
    | _ => true

theorem isDerived_of_unit? (found : registry.unit? name = some (.derived scale base)) :
    registry.isDerived name = true := by
  rw [isDerived, found]

theorem exists_of_isDerived (derived : registry.isDerived name = true) :
    ∃ scale base, registry.unit? name = some (.derived scale base) := by
  unfold isDerived at derived
  split at derived
  next scale base found => exact ⟨scale, base, found⟩
  next => cases derived

theorem depthWithin_of_plain (plain : registry.isDerived name = false) (depth : Nat) :
    registry.depthWithin depth name = true := by
  cases depth with
  | zero => rw [depthWithin, plain, Bool.not_false]
  | succ depth =>
    rw [depthWithin]
    split
    next scale base found =>
      rw [isDerived_of_unit? found] at plain
      cases plain
    next => rfl

theorem depthWithin_of_definedBy {base : String}
    (within : registry.depthWithin (depth + 1) name = true)
    (defined : registry.DefinedBy name base) : registry.depthWithin depth base = true := by
  obtain ⟨scale, unit, found, member⟩ := defined
  rw [depthWithin, found] at within
  exact List.all_eq_true.mp within base member

theorem addExpanded_of_derived (found : registry.unit? name = some (.derived scale base))
    (form : ScaledUnit) (number : Int) :
    form.addExpanded registry name number =
      ⟨form.scale * scale ^ number, form.unit.multiply (base.raise number)⟩ := by
  rw [ScaledUnit.addExpanded, found]

theorem addExpanded_of_plain (plain : registry.isDerived name = false) (form : ScaledUnit)
    (number : Int) :
    form.addExpanded registry name number = ⟨form.scale, form.unit.add name number⟩ := by
  unfold ScaledUnit.addExpanded
  split
  next scale base found =>
    rw [isDerived_of_unit? found] at plain
    cases plain
  next => rfl

def Becomes (registry : Registry) (name result : String) : Prop :=
  registry.isDerived name = false ∧ result = name ∨ registry.DefinedBy name result

private theorem mem_keys_addExpanded {number : Int}
    (member : query ∈ (form.addExpanded registry name number).unit.keys) :
    query ∈ form.unit.keys ∨ registry.Becomes name query := by
  cases derived : registry.isDerived name with
  | true =>
    obtain ⟨scale, base, found⟩ := exists_of_isDerived derived
    rw [addExpanded_of_derived found] at member
    rcases PowerProduct.mem_keys_multiply member with before | added
    · exact .inl before
    · exact .inr (.inr ⟨scale, base, found, PowerProduct.mem_keys_raise added⟩)
  | false =>
    rw [addExpanded_of_plain derived, PowerProduct.mem_keys] at member
    by_cases same : query = name
    · exact .inr (.inl ⟨derived, same⟩)
    · rw [PowerProduct.exponent_add_of_ne _ _ same] at member
      exact .inl (PowerProduct.mem_keys.mpr member)

private theorem mem_keys_foldl (powers : List (String × Int))
    (member : query ∈ (powers.foldl
      (fun expanded power => expanded.addExpanded registry power.1 power.2) form).unit.keys) :
    query ∈ form.unit.keys ∨ ∃ power ∈ powers, registry.Becomes power.1 query := by
  induction powers generalizing form with
  | nil => exact .inl member
  | cons power powers ih =>
    rcases ih member with before | ⟨later, inside, becomes⟩
    · rcases mem_keys_addExpanded before with old | becomes
      · exact .inl old
      · exact .inr ⟨power, List.mem_cons_self, becomes⟩
    · exact .inr ⟨later, List.mem_cons_of_mem _ inside, becomes⟩

theorem mem_keys_expandOnce (member : query ∈ (registry.expandOnce form).unit.keys) :
    ∃ name ∈ form.unit.keys, registry.Becomes name query := by
  rcases mem_keys_foldl _ member with none | ⟨power, inside, becomes⟩
  · cases none
  · exact ⟨power.1, PowerProduct.mem_keys_of_toList inside, becomes⟩

private theorem foldl_addExpanded_of_plain {powers : List (String × Int)}
    (plain : ∀ power ∈ powers, registry.isDerived power.1 = false) (scale : Scale)
    (product : GroundUnit) :
    powers.foldl (fun (expanded : ScaledUnit) power =>
        expanded.addExpanded registry power.1 power.2) ⟨scale, product⟩ =
      ⟨scale, powers.foldl (fun product power => product.add power.1 power.2) product⟩ := by
  induction powers generalizing product with
  | nil => rfl
  | cons power powers ih =>
    obtain ⟨here, others⟩ := List.forall_mem_cons.mp plain
    rw [List.foldl_cons, addExpanded_of_plain here, ih others, List.foldl_cons]

theorem expandOnce_of_plain (plain : ∀ name ∈ form.unit.keys, registry.isDerived name = false) :
    registry.expandOnce form = form := by
  have powers : ∀ power ∈ form.unit.toList, registry.isDerived power.1 = false := by
    intro power member
    exact plain power.1 (PowerProduct.mem_keys_of_toList member)
  rw [expandOnce, foldl_addExpanded_of_plain powers, ← PowerProduct.multiply_eq,
    PowerProduct.one_multiply]

theorem any_isDerived_eq_false {names : List String} :
    names.any registry.isDerived = false ↔ ∀ name ∈ names, registry.isDerived name = false := by
  rw [List.any_eq_false]
  exact forall₂_congr fun name _ => by rw [Bool.not_eq_true]

theorem expandWithin_succeeds (rounds : Nat) (form : ScaledUnit) :
    (∃ result, registry.expandWithin (rounds + 1) form = some result) ↔
      ∀ name ∈ (registry.expandOnce^[rounds] form).unit.keys,
        registry.isDerived name = false := by
  induction rounds generalizing form with
  | zero =>
    rw [Function.iterate_zero_apply, ← any_isDerived_eq_false, expandWithin]
    cases form.unit.keys.any registry.isDerived with
    | true => simp [expandWithin]
    | false => simp
  | succ rounds ih =>
    rw [Function.iterate_succ_apply, expandWithin]
    cases derived : form.unit.keys.any registry.isDerived with
    | true => exact ih (registry.expandOnce form)
    | false =>
      have plain := any_isDerived_eq_false.mp derived
      have settled : registry.expandOnce^[rounds] form = form :=
        Function.iterate_fixed (expandOnce_of_plain plain) rounds
      rw [expandOnce_of_plain plain, settled]
      exact iff_of_true ⟨form, rfl⟩ plain

def Reduced (registry : Registry) (unit : GroundUnit) : Prop :=
  ∀ name ∈ unit.keys, registry.isDerived name = false

/-- Expansion ends with the first form without derived units, and that form is what it gives. -/
theorem expandWithin_eq_some {result : ScaledUnit} {rounds : Nat} :
    registry.expandWithin rounds form = some result ↔
      ∃ count < rounds, registry.expandOnce^[count] form = result ∧
        registry.Reduced result.unit := by
  induction rounds generalizing form with
  | zero => simp [expandWithin]
  | succ rounds ih =>
    rw [expandWithin]
    cases derived : form.unit.keys.any registry.isDerived with
    | true =>
      rw [if_pos rfl, ih]
      constructor
      · rintro ⟨count, within, reaches, reduced⟩
        exact ⟨count + 1, by omega, reaches, reduced⟩
      · rintro ⟨count, within, reaches, reduced⟩
        cases count with
        | zero =>
          have left : form = result := reaches
          rw [left, any_isDerived_eq_false.mpr reduced] at derived
          cases derived
        | succ count => exact ⟨count, by omega, reaches, reduced⟩
    | false =>
      have plain := any_isDerived_eq_false.mp derived
      have same := expandOnce_of_plain plain
      rw [if_neg (by simp), same, Option.some.injEq]
      constructor
      · rintro rfl
        exact ⟨0, by omega, rfl, plain⟩
      · rintro ⟨count, within, reaches, reduced⟩
        rw [Function.iterate_fixed same] at reaches
        exact reaches

theorem canonicalize_eq_ok {unit : GroundUnit} :
    registry.canonicalize unit = .ok form ↔
      registry.expandWithin expansionRounds ⟨1, unit⟩ = some form := by
  unfold canonicalize
  cases registry.expandWithin expansionRounds ⟨1, unit⟩ <;> simp

theorem reduced_of_canonicalize {unit : GroundUnit} (done : registry.canonicalize unit = .ok form) :
    registry.Reduced form.unit := by
  obtain ⟨_, _, _, reduced⟩ := expandWithin_eq_some.mp (canonicalize_eq_ok.mp done)
  exact reduced

theorem depthWithin_expandOnce
    (within : ∀ name ∈ form.unit.keys, registry.depthWithin (depth + 1) name = true) :
    ∀ name ∈ (registry.expandOnce form).unit.keys, registry.depthWithin depth name = true := by
  intro name member
  obtain ⟨origin, inside, ⟨plain, rfl⟩ | defined⟩ := mem_keys_expandOnce member
  · exact depthWithin_of_plain plain depth
  · exact depthWithin_of_definedBy (within origin inside) defined

theorem plain_of_depthWithin {rounds : Nat}
    (within : ∀ name ∈ form.unit.keys, registry.depthWithin rounds name = true) :
    ∀ name ∈ (registry.expandOnce^[rounds] form).unit.keys, registry.isDerived name = false := by
  induction rounds generalizing form with
  | zero =>
    intro name member
    simpa [depthWithin] using within name member
  | succ rounds ih =>
    rw [Function.iterate_succ_apply]
    exact ih (depthWithin_expandOnce within)

theorem canonicalize_succeeds (registry : Registry) (unit : GroundUnit) :
    (∃ form, registry.canonicalize unit = .ok form) ↔
      ∀ name ∈ (registry.expandOnce^[63] ⟨1, unit⟩).unit.keys,
        registry.isDerived name = false := by
  rw [← expandWithin_succeeds]
  exact exists_congr fun form => canonicalize_eq_ok

def ShallowUnit (registry : Registry) (unit : GroundUnit) : Prop :=
  ∀ name ∈ unit.keys, registry.depthWithin 63 name = true

/-- Whether definitions lead at most 63 steps down from any name. -/
def Shallow (registry : Registry) : Prop :=
  ∀ name, registry.depthWithin 63 name = true

theorem Shallow.of_declared
    (declared : ∀ unit ∈ registry.units, registry.depthWithin 63 unit.1 = true) :
    registry.Shallow := by
  intro name
  cases derived : registry.isDerived name with
  | false => exact depthWithin_of_plain derived 63
  | true =>
    obtain ⟨scale, base, found⟩ := exists_of_isDerived derived
    obtain ⟨before, after, same, _⟩ := List.lookup_eq_some_iff.mp found
    refine declared (name, .derived scale base) ?_
    rw [same]
    exact List.mem_append_right before List.mem_cons_self

theorem Shallow.unit (shallow : registry.Shallow) (unit : GroundUnit) :
    registry.ShallowUnit unit :=
  fun name _ => shallow name

theorem ShallowUnit.canonicalize {unit : GroundUnit} (shallow : registry.ShallowUnit unit) :
    ∃ form, registry.canonicalize unit = .ok form :=
  (registry.canonicalize_succeeds unit).mpr (plain_of_depthWithin shallow)

theorem ShallowUnit.conversionFactor {source target : GroundUnit}
    (sourceShallow : registry.ShallowUnit source) (targetShallow : registry.ShallowUnit target) :
    ∃ factor, registry.conversionFactor source target = .ok factor := by
  obtain ⟨first, firstDone⟩ := sourceShallow.canonicalize
  obtain ⟨second, secondDone⟩ := targetShallow.canonicalize
  rw [Registry.conversionFactor, firstDone, secondDone]
  exact ⟨_, rfl⟩

end SheetTypes.Registry
