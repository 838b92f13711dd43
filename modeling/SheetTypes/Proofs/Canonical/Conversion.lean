import Mathlib.Algebra.Order.Field.Rat
import SheetTypes.Proofs.Canonical.Rounds

/-!
Conversion factors compose. Scales are positive in every declared unit, and expanding multiplies
powers of them only, so canonical forms have positive scales, also where exponents stop at the
limit. A factor is then a quotient of positive scales, and units with one canonical form are
convertible into each other.
-/

set_option autoImplicit false

namespace SheetTypes.Registry

variable {registry : Registry} {form : ScaledUnit} {first second third : GroundUnit}
  {unit : GroundUnit}

theorem Consistent.scale_addExpanded_pos (consistent : registry.Consistent)
    (positive : 0 < form.scale) (name : String) (number : Int) :
    0 < (form.addExpanded registry name number).scale := by
  cases derived : registry.isDerived name with
  | false =>
    rw [addExpanded_of_plain derived]
    exact positive
  | true =>
    obtain ⟨scale, base, found⟩ := exists_of_isDerived derived
    rw [addExpanded_of_derived found]
    exact mul_pos positive (zpow_pos (consistent.scalesPositive name scale base found) number)

theorem Consistent.scale_expandOnce_pos (consistent : registry.Consistent)
    (positive : 0 < form.scale) : 0 < (registry.expandOnce form).scale := by
  have powers (powers : List (String × Int)) {expanded : ScaledUnit}
      (positive : 0 < expanded.scale) :
      0 < (powers.foldl (fun expanded power => expanded.addExpanded registry power.1 power.2)
        expanded).scale := by
    induction powers generalizing expanded with
    | nil => exact positive
    | cons power powers ih => exact ih (consistent.scale_addExpanded_pos positive power.1 power.2)
  exact powers form.unit.toList positive

theorem Consistent.scale_expandWithin_pos (consistent : registry.Consistent) {rounds : Nat}
    (positive : 0 < form.scale) {result : ScaledUnit}
    (ends : registry.expandWithin rounds form = some result) : 0 < result.scale := by
  induction rounds generalizing form with
  | zero => cases ends
  | succ rounds ih =>
    have next := consistent.scale_expandOnce_pos positive
    rw [expandWithin] at ends
    split at ends
    · exact ih next ends
    · cases ends
      exact next

theorem Consistent.scale_canonicalize_pos (consistent : registry.Consistent)
    (done : registry.canonicalize unit = .ok form) : 0 < form.scale := by
  unfold canonicalize at done
  split at done
  next result ends =>
    cases done
    exact consistent.scale_expandWithin_pos rfl ends
  next => cases done

def HasCanonical (registry : Registry) (unit : GroundUnit) : Prop :=
  ∃ form, registry.canonicalize unit = .ok form

/-- Whether two units have canonical forms with the same unit, and the factor is the quotient of
their scales. -/
def Converts (registry : Registry) (source target : GroundUnit) (factor : Scale) : Prop :=
  ∃ former latter, registry.canonicalize source = .ok former ∧
    registry.canonicalize target = .ok latter ∧ former.unit = latter.unit ∧
    former.scale / latter.scale = factor

theorem conversionFactor_eq_ok {factor : Scale} :
    registry.conversionFactor first second = .ok (some factor) ↔
      registry.Converts first second factor := by
  have answer (former latter : ScaledUnit) :
      (pure (if former.unit = latter.unit then some (former.scale / latter.scale) else none) :
        Except TypeError (Option Scale)) = .ok (some factor) ↔
        former.unit = latter.unit ∧ former.scale / latter.scale = factor := by
    change Except.ok _ = Except.ok _ ↔ _
    rw [Except.ok.injEq]
    split
    next same => simp [same]
    next different => simp [different]
  simp only [conversionFactor, Converts, except_bind_eq_ok, answer, exists_and_left]

theorem convertible_eq_ok :
    registry.convertible first second = .ok true ↔
      ∃ factor, registry.Converts first second factor := by
  unfold convertible
  rw [except_bind_eq_ok]
  constructor
  · rintro ⟨answer, done, present⟩
    obtain ⟨factor, rfl⟩ := Option.isSome_iff_exists.mp (Except.ok.inj present)
    exact ⟨factor, conversionFactor_eq_ok.mp done⟩
  · rintro ⟨factor, converts⟩
    exact ⟨some factor, conversionFactor_eq_ok.mpr converts, rfl⟩

theorem HasCanonical.converts_self (consistent : registry.Consistent)
    (canonical : registry.HasCanonical unit) : registry.Converts unit unit 1 := by
  obtain ⟨form, done⟩ := canonical
  exact ⟨form, form, done, done, rfl, div_self (consistent.scale_canonicalize_pos done).ne'⟩

namespace Converts

variable {factor further : Scale}

theorem positive (converts : registry.Converts first second factor)
    (consistent : registry.Consistent) : 0 < factor := by
  obtain ⟨former, latter, formerDone, latterDone, _, rfl⟩ := converts
  exact div_pos (consistent.scale_canonicalize_pos formerDone)
    (consistent.scale_canonicalize_pos latterDone)

theorem symm (converts : registry.Converts first second factor) :
    registry.Converts second first (1 / factor) := by
  obtain ⟨former, latter, formerDone, latterDone, same, rfl⟩ := converts
  exact ⟨latter, former, latterDone, formerDone, same.symm, (one_div_div ..).symm⟩

theorem trans (converts : registry.Converts first second factor)
    (next : registry.Converts second third further) (consistent : registry.Consistent) :
    registry.Converts first third (factor * further) := by
  obtain ⟨former, middle, formerDone, middleDone, same, rfl⟩ := converts
  obtain ⟨again, latter, againDone, latterDone, sameNext, rfl⟩ := next
  cases againDone.symm.trans middleDone
  have nonzero := (consistent.scale_canonicalize_pos middleDone).ne'
  exact ⟨former, latter, formerDone, latterDone, same.trans sameNext,
    (div_mul_div_cancel₀ nonzero).symm⟩

end Converts

/-- Conversion factors are positive, invert and multiply, and units are convertible exactly if there
is a factor, so convertibility is an equivalence of the units that have canonical forms. No scale
that is divided by or inverted on the way is zero. -/
theorem conversions_compose (reachable : registry.Reachable) :
    (∀ unit, registry.HasCanonical unit → registry.conversionFactor unit unit = .ok (some 1)) ∧
    (∀ first second factor, registry.conversionFactor first second = .ok (some factor) →
      0 < factor ∧ registry.conversionFactor second first = .ok (some (1 / factor))) ∧
    (∀ first second third factor further,
      registry.conversionFactor first second = .ok (some factor) →
      registry.conversionFactor second third = .ok (some further) →
      registry.conversionFactor first third = .ok (some (factor * further))) ∧
    (∀ first second, registry.convertible first second = .ok true ↔
      ∃ factor, registry.conversionFactor first second = .ok (some factor)) ∧
    (∀ first second, registry.HasCanonical first → registry.HasCanonical second →
      ∃ answer, registry.convertible first second = .ok answer) ∧
    Equivalence (fun first second : { unit // registry.HasCanonical unit } =>
      registry.convertible first second = .ok true) ∧
    (∀ name scale base, registry.unit? name = some (.derived scale base) → scale ≠ 0) ∧
    ∀ unit form, registry.canonicalize unit = .ok form → form.scale ≠ 0 := by
  have consistent := reachable.consistent
  refine ⟨fun unit canonical => ?_, fun first second factor done => ?_,
    fun first second third factor further done next => ?_, fun first second => ?_, ?_,
    ⟨?_, ?_, ?_⟩, ?_, ?_⟩
  · exact conversionFactor_eq_ok.mpr (canonical.converts_self consistent)
  · have converts := conversionFactor_eq_ok.mp done
    exact ⟨converts.positive consistent, conversionFactor_eq_ok.mpr converts.symm⟩
  · have converts := conversionFactor_eq_ok.mp done
    exact conversionFactor_eq_ok.mpr (converts.trans (conversionFactor_eq_ok.mp next) consistent)
  · simp only [convertible_eq_ok, conversionFactor_eq_ok]
  · rintro first second ⟨former, formerDone⟩ ⟨latter, latterDone⟩
    rw [convertible, conversionFactor, formerDone, latterDone]
    exact ⟨_, rfl⟩
  · rintro ⟨unit, canonical⟩
    exact convertible_eq_ok.mpr ⟨1, canonical.converts_self consistent⟩
  · intro first second related
    obtain ⟨factor, converts⟩ := convertible_eq_ok.mp related
    exact convertible_eq_ok.mpr ⟨1 / factor, converts.symm⟩
  · intro first second third related next
    obtain ⟨factor, converts⟩ := convertible_eq_ok.mp related
    obtain ⟨further, continues⟩ := convertible_eq_ok.mp next
    exact convertible_eq_ok.mpr ⟨factor * further, converts.trans continues consistent⟩
  · intro name scale base found
    exact (consistent.scalesPositive name scale base found).ne'
  · intro unit form done
    exact (consistent.scale_canonicalize_pos done).ne'

/-- Kilometres per hour, metres per minute and metres per second. -/
theorem conversions_compose_speeds :
    let kilometres : GroundUnit := (PowerProduct.ofKey "km").add "h" (-1)
    let minutes : GroundUnit := (PowerProduct.ofKey "m").add "min" (-1)
    let seconds : GroundUnit := (PowerProduct.ofKey "m").add "s" (-1)
    builtin.conversionFactor kilometres minutes = .ok (some (50 / 3)) ∧
      builtin.conversionFactor minutes kilometres = .ok (some (1 / (50 / 3))) ∧
      builtin.conversionFactor minutes seconds = .ok (some (1 / 60)) ∧
      builtin.conversionFactor kilometres seconds = .ok (some (50 / 3 * (1 / 60))) ∧
      builtin.convertible kilometres seconds = .ok true := by
  intro kilometres minutes seconds
  have first : builtin.conversionFactor kilometres minutes = .ok (some (50 / 3)) := by
    decide +kernel
  have second : builtin.conversionFactor minutes seconds = .ok (some (1 / 60)) := by
    decide +kernel
  obtain ⟨_, inverts, composes, convertible, _⟩ := conversions_compose Reachable.builtin
  have whole := composes _ _ _ _ _ first second
  exact ⟨first, (inverts _ _ _ first).2, second, whole, (convertible _ _).mpr ⟨_, whole⟩⟩

end SheetTypes.Registry
