import Mathlib.Algebra.Order.Field.Rat
import SheetTypes.Proofs.Canonical.Rounds

/-!
Canonicalization is a projection, whatever the registry holds. A canonical form is what some rounds
make of a unit once no derived unit is left in it, also where definitions run in circles and names
cancel on the way; such a form is its own canonical form. The variables of a unit take no part.
-/

set_option autoImplicit false

namespace SheetTypes.Registry

variable {registry : Registry} {form result : ScaledUnit}

theorem Reduced.canonicalize {unit : GroundUnit} (reduced : registry.Reduced unit) :
    registry.canonicalize unit = .ok ⟨1, unit⟩ :=
  canonicalize_eq_ok.mpr (expandWithin_eq_some.mpr ⟨0, by decide, rfl, reduced⟩)

theorem canonicalizeTerm_eq_ok {unit term : InferredUnit} {scale : Scale} :
    registry.canonicalizeTerm unit = .ok (scale, term) ↔
      registry.canonicalize unit.names = .ok ⟨scale, term.names⟩ ∧ term.vars = unit.vars := by
  unfold canonicalizeTerm
  rw [except_bind_eq_ok]
  constructor
  · rintro ⟨form, done, same⟩
    cases same
    exact ⟨done, rfl⟩
  · rintro ⟨done, vars⟩
    obtain ⟨names, _⟩ := term
    cases vars
    exact ⟨_, done, rfl⟩

theorem canonicalizeTerm_eq_error {unit : InferredUnit} {error : TypeError} :
    registry.canonicalizeTerm unit = .error error ↔
      registry.canonicalize unit.names = .error error := by
  unfold canonicalizeTerm
  cases registry.canonicalize unit.names <;> simp [bind, Except.bind, pure, Except.pure]

/-- Canonicalization is a projection. It succeeds exactly if one of the rounds starts without
derived units, and gives what that round starts with; then there is nothing left to replace, and the
unit of the form is its own canonical form, of scale one. With variables it does the same to the
names and leaves the variables as they are. -/
theorem canonicalize_projects (registry : Registry) :
    (∀ unit form, registry.canonicalize unit = .ok form ↔
      ∃ count < expansionRounds, registry.expandOnce^[count] ⟨1, unit⟩ = form ∧
        registry.Reduced form.unit) ∧
    (∀ unit form, registry.canonicalize unit = .ok form →
      registry.Reduced form.unit ∧ registry.canonicalize form.unit = .ok ⟨1, form.unit⟩) ∧
    (∀ unit scale term, registry.canonicalizeTerm unit = .ok (scale, term) ↔
      registry.canonicalize unit.names = .ok ⟨scale, term.names⟩ ∧ term.vars = unit.vars) ∧
    (∀ unit error, registry.canonicalizeTerm unit = .error error ↔
      registry.canonicalize unit.names = .error error) ∧
    ∀ unit scale term, registry.canonicalizeTerm unit = .ok (scale, term) →
      registry.Reduced term.names ∧ registry.canonicalizeTerm term = .ok (1, term) := by
  refine ⟨fun unit form => canonicalize_eq_ok.trans expandWithin_eq_some,
    ?_, fun unit scale term => canonicalizeTerm_eq_ok,
    fun unit error => canonicalizeTerm_eq_error, ?_⟩
  · intro unit form done
    have reduced := reduced_of_canonicalize done
    exact ⟨reduced, reduced.canonicalize⟩
  · intro unit scale term done
    have reduced := reduced_of_canonicalize (canonicalizeTerm_eq_ok.mp done).1
    exact ⟨reduced, canonicalizeTerm_eq_ok.mpr ⟨reduced.canonicalize, rfl⟩⟩

/-- A unit that is defined by itself has no canonical form; where it cancels, what is left has. -/
theorem canonicalize_projects_cancelled :
    let circular : Registry :=
      ⟨[("m", .base), ("a", .derived 2 ((PowerProduct.ofKey "b").add "m" 1)),
        ("b", .derived 3 (.ofKey "b"))], []⟩
    let quotient : GroundUnit := (PowerProduct.ofKey "a").add "b" (-1)
    (circular.canonicalize (.ofKey "b")).toOption = none ∧
      circular.canonicalize quotient = .ok ⟨2 / 3, .ofKey "m"⟩ ∧
      circular.Reduced (.ofKey "m") ∧
      circular.canonicalize (.ofKey "m") = .ok ⟨1, .ofKey "m"⟩ := by
  intro circular quotient
  have done : circular.canonicalize quotient = .ok ⟨2 / 3, .ofKey "m"⟩ := by decide +kernel
  obtain ⟨reduced, again⟩ := (canonicalize_projects circular).2.1 quotient _ done
  exact ⟨by decide +kernel, done, reduced, again⟩

end SheetTypes.Registry
