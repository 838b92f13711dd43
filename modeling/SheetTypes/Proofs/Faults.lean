import SheetTypes.Canonical
import SheetTypes.Variable

/-!
Internal errors that blame the store: a variable linked twice, a requirement on a linked variable,
a variable that does not exist, and links in a circle. No other error reads like one of them; the
only other internal error is about the registry of units.
-/

set_option autoImplicit false

namespace SheetTypes

/-- The details of internal errors that report a broken store. -/
inductive StoreFault : String → Prop where
  | linkedTwice (var : TypeVar) : StoreFault ("variable " ++ var.text ++ " linked twice")
  | unitLinkedTwice (var : UnitVar) : StoreFault ("unit variable " ++ var.text ++ " linked twice")
  | requiredOfLinked (var : TypeVar) :
      StoreFault ("adding capabilities to linked variable " ++ var.text)
  | strange (var : String) : StoreFault ("variable " ++ var ++ " does not belong to this universe")
  | typeCircle (var : TypeVar) :
      StoreFault ("type variable " ++ var.text ++ " is part of a link cycle")
  | unitCircle (var : UnitVar) :
      StoreFault ("unit variable " ++ var.text ++ " is part of a link cycle")

def TypeError.BlamesStore (error : TypeError) : Prop :=
  ∃ detail, error.cause = .internal detail ∧ StoreFault detail

variable {error : TypeError}

theorem TypeError.not_blamesStore (external : error.isInternal = false) : ¬error.BlamesStore := by
  rintro ⟨detail, same, _⟩
  rw [isInternal, same] at external
  cases external

theorem TypeError.blamesStore_withContext {outer other : String} :
    (error.withContext outer other).BlamesStore → error.BlamesStore := by
  unfold withContext
  split
  next => exact fun blames => absurd blames (not_blamesStore rfl)
  next => exact id

theorem TypeError.cause_atPlaces (error : TypeError) (places : List Place) :
    (error.atPlaces places).cause = error.cause := by
  unfold atPlaces
  induction places generalizing error with
  | nil => rfl
  | cons place places ih =>
    rw [List.foldl_cons, ih]
    unfold atPlace
    split <;> rfl

theorem TypeError.blamesStore_atPlaces (error : TypeError) (places : List Place) :
    (error.atPlaces places).BlamesStore ↔ error.BlamesStore := by
  rw [BlamesStore, cause_atPlaces, BlamesStore]

/-- A failed operation blames the store by its error, or by the message that it gave up with. -/
def Failure.BlamesStore : Failure → Prop
  | .error found => found.BlamesStore
  | .abort message => ∃ detail, message = (Cause.internal detail).message ∧ StoreFault detail

theorem TypeError.blamesStore_escalate {abortOnInternal : Bool}
    (blames : (error.escalate abortOnInternal).BlamesStore) : error.BlamesStore := by
  unfold escalate at blames
  split at blames
  next internal =>
    obtain ⟨detail, same, fault⟩ := blames
    unfold message at same
    unfold isInternal at internal
    cases cause : error.cause with
    | internal own =>
      rw [cause] at same
      have details : own = detail := String.append_right_inj _ |>.mp same
      exact ⟨detail, details ▸ cause, fault⟩
    | _ =>
      rw [cause] at internal
      cases internal
  next => exact blames

private theorem getLast?_append {first second : String} {last : Char}
    (ends : second.toList.getLast? = some last) :
    (first ++ second).toList.getLast? = some last := by
  rw [String.toList_append, List.getLast?_append, ends]
  rfl

private theorem StoreFault.letters {detail : String} (fault : StoreFault detail) :
    detail.toList.getLast? = some 'e' ∨ detail.toList.head? = some 'a' := by
  cases fault with
  | linkedTwice var => exact .inl (getLast?_append (by simp))
  | unitLinkedTwice var => exact .inl (getLast?_append (by simp))
  | requiredOfLinked var => exact .inr (by simp)
  | strange var => exact .inl (getLast?_append (by simp))
  | typeCircle var => exact .inl (getLast?_append (by simp))
  | unitCircle var => exact .inl (getLast?_append (by simp))

private theorem not_storeFault_registry (name : String) :
    ¬StoreFault ("unit " ++ name ++
      " does not reach a canonical form; the unit registry is inconsistent") := by
  intro fault
  have last : ("unit " ++ name ++
      " does not reach a canonical form; the unit registry is inconsistent").toList.getLast? =
        some 't' := getLast?_append (by simp)
  rcases fault.letters with same | same
  · rw [last] at same
    cases same
  · simp at same

namespace Registry

variable {registry : Registry} {error : TypeError} {unit : GroundUnit}

/-- A conversion fails only where one of the units has no canonical form. -/
theorem exists_canonicalize_error {source target : GroundUnit}
    (failed : registry.conversionFactor source target = .error error) :
    ∃ unit, (unit = source ∨ unit = target) ∧ registry.canonicalize unit = .error error := by
  unfold conversionFactor at failed
  cases first : registry.canonicalize source with
  | error found =>
    rw [first] at failed
    cases failed
    exact ⟨source, .inl rfl, first⟩
  | ok form =>
    rw [first] at failed
    cases second : registry.canonicalize target with
    | error found =>
      rw [second] at failed
      cases failed
      exact ⟨target, .inr rfl, second⟩
    | ok other =>
      rw [second] at failed
      cases failed

theorem canonicalize_internal (failed : registry.canonicalize unit = .error error) :
    error.isInternal = true := by
  unfold canonicalize at failed
  split at failed
  · cases failed
  · cases failed
    rfl

theorem canonicalize_error (failed : registry.canonicalize unit = .error error) :
    ¬error.BlamesStore := by
  unfold canonicalize at failed
  split at failed
  · cases failed
  · cases failed
    rintro ⟨detail, same, fault⟩
    cases same
    exact not_storeFault_registry _ fault

end Registry

end SheetTypes
