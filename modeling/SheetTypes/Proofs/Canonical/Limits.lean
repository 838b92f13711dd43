import SheetTypes.Proofs.Canonical.Conversion
import SheetTypes.Proofs.Canonical.Expansion

/-!
Conversions at the limit of exponents. Scales are exact and exponents stop at the limit, so the two
parts of a canonical form can drift apart. The powers of a derived unit decide with which power its
scale counts: as long as these are exact, scales are, whatever happens to the powers of other names.
A name of which the powers are exact as well has the same power in units that are convertible.
-/

set_option autoImplicit false

namespace SheetTypes

namespace Expansion

noncomputable def restrict (watched : String → Bool) (expansion : Expansion) : Expansion :=
  ⟨expansion.scale, expansion.powers.filter fun name => watched name = true⟩

theorem powers_restrict {watched : String → Bool} (expansion : Expansion) {name : String}
    (seen : watched name = true) :
    (expansion.restrict watched).powers name = expansion.powers name :=
  Finsupp.filter_apply_pos _ _ seen

theorem ofUnit_restrict (watched : String → Bool) (expand : String → Expansion)
    (unit : GroundUnit) :
    ofUnit (fun name => (expand name).restrict watched) unit =
      (ofUnit expand unit).restrict watched := by
  refine Expansion.ext rfl ?_
  simp only [ofUnit, ofPowers, restrict, Finsupp.linearCombination_apply, Finsupp.sum,
    Finsupp.filter_sum, Finsupp.filter_smul]

end Expansion

namespace Registry

open Expansion

variable {registry : Registry} {watched : String → Bool} {unit : GroundUnit} {form : ScaledUnit}

/-- Names that are not watched can be left out of what units stand for, if they are not derived. -/
theorem Consistent.interprets_restrict (consistent : registry.Consistent)
    (derived : ∀ name, registry.isDerived name = true → watched name = true) :
    registry.Interprets watched fun name => (consistent.expand name).restrict watched where
  nonzero := consistent.expand_scale_ne_zero
  replaced name := by
    rw [ofUnit_restrict, consistent.interprets.replaced name]
    rfl
  ignored name unseen := by
    have plain : registry.isDerived name = false := by
      rw [← Bool.not_eq_true]
      intro isDerived
      rw [derived name isDerived] at unseen
      cases unseen
    rw [consistent.expand_of_plain plain]
    refine Expansion.ext rfl (Finsupp.filter_single_of_neg _ ?_)
    rw [unseen]
    exact Bool.false_ne_true

/-- A canonical form has the exact scale and the exact powers of all watched names. -/
theorem Consistent.canonicalize_exactOn (consistent : registry.Consistent)
    (derived : ∀ name, registry.isDerived name = true → watched name = true)
    (exact : registry.canonicalizesExactlyOn watched unit = true)
    (done : registry.canonicalize unit = .ok form) :
    form.scale = (ofUnit consistent.expand unit).scale ∧
      ∀ name, watched name = true →
        form.unit.exponent name = (ofUnit consistent.expand unit).powers name := by
  have value := (consistent.interprets_restrict derived).canonicalize exact done
  rw [ofForm, ofUnit_restrict, ofUnit_restrict] at value
  have plain := consistent.ofForm_of_reduced (reduced_of_canonicalize done)
  have same : form.toExpansion.restrict watched =
      (ofUnit consistent.expand unit).restrict watched := by
    rw [← plain, ← value]
    rfl
  obtain ⟨scale, powers⟩ := Expansion.ext_iff.mp same
  refine ⟨scale, fun name seen => ?_⟩
  have here := DFunLike.congr_fun powers name
  rwa [powers_restrict _ seen, powers_restrict _ seen] at here

/-- A conversion factor is the exact ratio of the scales of the full expansions, if no exponent of a
derived unit stops at the limit, and convertible units have the same power of every name of which no
exponent stops there either. If none stops at all, units are convertible exactly if their expansions
are the same product. -/
theorem conversionFactor_exact (reachable : registry.Reachable) (source target : GroundUnit)
    (factor : Scale) :
    let expand := reachable.consistent.expand
    let ratio := (ofUnit expand source).scale / (ofUnit expand target).scale
    (∀ watched, (∀ name, registry.isDerived name = true → watched name = true) →
      registry.canonicalizesExactlyOn watched source = true →
      registry.canonicalizesExactlyOn watched target = true →
      registry.conversionFactor source target = .ok (some factor) →
      factor = ratio ∧ ∀ name, watched name = true →
        (ofUnit expand source).powers name = (ofUnit expand target).powers name) ∧
    (registry.HasCanonical source → registry.HasCanonical target →
      registry.canonicalizesExactly source = true → registry.canonicalizesExactly target = true →
      (registry.conversionFactor source target = .ok (some factor) ↔
        (ofUnit expand source).powers = (ofUnit expand target).powers ∧ factor = ratio)) := by
  have consistent := reachable.consistent
  simp only [conversionFactor_eq_ok]
  constructor
  · rintro watched derived sourceExact targetExact
      ⟨former, latter, formerDone, latterDone, same, rfl⟩
    obtain ⟨formerScale, formerPowers⟩ :=
      consistent.canonicalize_exactOn derived sourceExact formerDone
    obtain ⟨latterScale, latterPowers⟩ :=
      consistent.canonicalize_exactOn derived targetExact latterDone
    refine ⟨congrArg₂ (· / ·) formerScale latterScale, fun name seen => ?_⟩
    rw [← formerPowers name seen, ← latterPowers name seen, same]
  · rintro ⟨former, formerDone⟩ ⟨latter, latterDone⟩ sourceExact targetExact
    rw [← consistent.canonicalize_exact sourceExact formerDone,
      ← consistent.canonicalize_exact targetExact latterDone]
    constructor
    · rintro ⟨again, other, againDone, otherDone, same, rfl⟩
      cases againDone.symm.trans formerDone
      cases otherDone.symm.trans latterDone
      exact ⟨congrArg PowerProduct.powers same, rfl⟩
    · rintro ⟨powers, rfl⟩
      exact ⟨former, latter, formerDone, latterDone, PowerProduct.powers_injective powers, rfl⟩

def extremes : Registry :=
  [.baseUnit "m", .unit "far" 1 (.single "m" exponentLimit), .unit "dozen" 12 .one,
    .unit "more" 1 (.single "dozen" exponentLimit), .unit "once" 1 (.single "dozen" 1),
    .unit "part" 1 (.single "dozen" (-exponentLimit))].foldl Registry.after .empty

theorem extremes_reachable : extremes.Reachable :=
  .after (.after (.after (.after (.after (.after .empty _) _) _) _) _) _

/-- Only the power of the metre stops at the limit here, so that the factor is exact, although the
products differ. -/
theorem conversionFactor_exact_clamped :
    let further : GroundUnit := .ofList [("dozen", 1), ("far", 1), ("m", 1)]
    let expand := extremes_reachable.consistent.expand
    extremes.conversionFactor further (.ofKey "far") = .ok (some 12) ∧
      12 = (ofUnit expand further).scale / (ofUnit expand (.ofKey "far")).scale := by
  intro further expand
  have converts : extremes.conversionFactor further (.ofKey "far") = .ok (some 12) := by
    decide +kernel
  have derived : ∀ name, extremes.isDerived name = true → (name != "m") = true := by
    intro name isDerived
    rw [bne_iff_ne]
    rintro rfl
    exact absurd isDerived (by decide +kernel)
  exact ⟨converts, ((conversionFactor_exact extremes_reachable further (.ofKey "far") 12).1
    (· != "m") derived (by decide +kernel) (by decide +kernel) converts).1⟩

private theorem ofUnit_dozens {expand : String → Expansion} {number : Int}
    (more : expand "more" = ⟨12 ^ number, 0⟩) (once : expand "once" = ⟨12 ^ (1 : ℤ), 0⟩)
    (part : expand "part" = ⟨12 ^ (-number), 0⟩) :
    ofUnit expand (.ofList [("more", 1), ("once", 1), ("part", 1)]) = ⟨12, 0⟩ := by
  have listed : (PowerProduct.ofList [("more", 1), ("once", 1), ("part", 1)]).toList =
      [("more", 1), ("once", 1), ("part", 1)] := by decide +kernel
  have cancels : (12 : ℚ) ^ number * (12 * (12 ^ number)⁻¹) = 12 := by
    rw [mul_left_comm, mul_inv_cancel₀ (zpow_ne_zero number (by decide)), mul_one]
  rw [ofUnit_eq, listed]
  simpa [more, once, part] using cancels

/-- Where exponents stop at the limit, units with different expansions are convertible, and the
factor between units with the same product can be wrong: the powers of a dozen in `more`, `once` and
`part` cancel, since those of the first two stop at the limit. -/
theorem conversionFactor_inexact_at_limit :
    let further : GroundUnit := .ofList [("far", 1), ("m", 1)]
    let cancelled : GroundUnit := .ofList [("more", 1), ("once", 1), ("part", 1)]
    let expand := extremes_reachable.consistent.expand
    (extremes.conversionFactor further (.ofKey "far") = .ok (some 1) ∧
      (ofUnit expand further).powers ≠ (ofUnit expand (.ofKey "far")).powers) ∧
    extremes.conversionFactor cancelled .one = .ok (some 1) ∧
      (ofUnit expand cancelled).powers = (ofUnit expand .one).powers ∧
      (ofUnit expand cancelled).scale / (ofUnit expand .one).scale = 12 := by
  intro further cancelled expand
  have consistent := extremes_reachable.consistent
  have metre : expand "m" = ofName "m" := consistent.expand_of_plain (by decide +kernel)
  have dozen : expand "dozen" = ⟨12, 0⟩ := by
    have found : extremes.unit? "dozen" = some (.derived 12 .one) := by decide +kernel
    refine (consistent.expand_of_derived found).trans ?_
    rw [ofUnit, PowerProduct.powers_one, ofPowers_zero, scaleBy, mul_one]
  have power (name : String) (number : Int)
      (found : extremes.unit? name = some (.derived 1 (.single "dozen" number)))
      (listed : (PowerProduct.single "dozen" number).toList = [("dozen", number)]) :
      expand name = ⟨12 ^ number, 0⟩ := by
    refine (consistent.expand_of_derived found).trans ?_
    change (ofUnit expand _).scaleBy 1 = _
    rw [ofUnit_eq, listed]
    simp [dozen, scaleBy]
  have more := power "more" exponentLimit (by decide +kernel) (by decide +kernel)
  have once := power "once" 1 (by decide +kernel) (by decide +kernel)
  have part := power "part" (-exponentLimit) (by decide +kernel) (by decide +kernel)
  have one : ofUnit expand .one = ⟨1, 0⟩ := by
    rw [ofUnit, PowerProduct.powers_one, ofPowers_zero]
  have value : ofUnit expand cancelled = ⟨12, 0⟩ := ofUnit_dozens more once part
  refine ⟨⟨by decide +kernel, ?_⟩, by decide +kernel, ?_, ?_⟩
  · have listed : further.toList = [("far", 1), ("m", 1)] := by decide +kernel
    rw [ofUnit_eq, listed, ofUnit_ofKey]
    simp [metre, ofName]
  · rw [value, one]
  · rw [value, one, div_one]

end Registry

end SheetTypes
