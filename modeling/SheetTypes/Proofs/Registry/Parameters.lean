import Mathlib.Data.List.Basic
import SheetTypes.Proofs.Template.RoundTrip
import SheetTypes.Proofs.Text.Characters
import SheetTypes.Registry.File

/-!
Parameters of tagged types and the variables that templates know. Both are written in the same way,
but they are read apart: the name of a parameter may start with any character that a word may hold,
the name of a variable only with one that a word may start with. A parameter whose name starts with
a number can be declared, and no text refers to it.
-/

set_option autoImplicit false

namespace SheetTypes

namespace Parameter

variable {name text : String} {param : Parameter}

def Nameable (name : String) : Prop :=
  name ≠ "" ∧ ∀ c ∈ name.toList, Text.continuesWord c = true

theorem nameable_of_parse (read : Parameter.parse text = .ok param) : Nameable param.name := by
  unfold Parameter.parse at read
  dsimp only at read
  generalize Text.trim (List.dropWhile _ _) = chars at read
  split at read
  next => cases read
  next accepted =>
    have nameable : Nameable (String.ofList chars) := by
      simpa [Nameable] using accepted
    split at read
    next =>
      cases read
      exact nameable
    next =>
      split at read
      next =>
        cases read
        exact nameable
      next => cases read

/-- A marker and a name behind a space are taken apart again. -/
theorem parse_marked {marker : String} (known : marker = "@TYPEVAR" ∨ marker = "@UNITVAR")
    (nameable : Nameable name) (spelled : text.toList = marker.toList ++ ' ' :: name.toList) :
    Parameter.parse text = .ok (if marker = "@TYPEVAR" then .type name else .unit name) := by
  have nonempty : name.toList ≠ [] := by simpa using nameable.1
  have letters (c : Char) (member : c ∈ name.toList) : Text.isBlank c = false :=
    Text.not_isBlank_of_continuesWord (nameable.2 c member)
  have plain : ∀ c ∈ marker.toList, (!Text.isBlank c) = true := by
    refine List.all_eq_true.mp ?_
    rcases known with rfl | rfl <;> decide +kernel
  have blank : Text.isBlank ' ' = true := by decide
  have whole : Text.trim (marker.toList ++ ' ' :: name.toList) =
      marker.toList ++ ' ' :: name.toList := by
    refine Text.trim_of_ends (fun c first => ?_) fun c last => ?_
    · have some : marker.toList ≠ [] := by rcases known with rfl | rfl <;> decide
      rw [List.head?_append_of_ne_nil _ some] at first
      simpa using plain c (List.mem_of_head? first)
    · rw [List.getLast?_append_of_ne_nil _ (List.cons_ne_nil _ _),
        List.getLast?_cons_of_ne_nil nonempty] at last
      exact letters c (List.mem_of_getLast? last)
  have behind : Text.trim (' ' :: name.toList) = name.toList := by
    rw [Text.trim, Text.trimStart, List.dropWhile_cons_of_pos blank]
    exact Text.trim_of_visible letters
  have accepted : (name.toList.isEmpty || !name.toList.all Text.continuesWord) = false := by
    simpa [Nameable] using nameable
  unfold Parameter.parse
  rw [spelled, whole]
  dsimp only
  rw [List.takeWhile_append_of_pos plain, List.dropWhile_append_of_pos plain,
    List.takeWhile_cons_of_neg (by simp [blank]), List.dropWhile_cons_of_neg (by simp [blank]),
    List.append_nil, behind, accepted, String.ofList_toList, String.ofList_toList]
  rcases known with rfl | rfl <;> rfl

theorem parse_render (nameable : Nameable param.name) :
    Parameter.parse param.render = .ok param := by
  cases param with
  | type name => exact parse_marked (.inl rfl) nameable (by simp [render, typeVariableText])
  | unit name => exact parse_marked (.inr rfl) nameable (by simp [render, unitVariableText])

def Stands (text : String) : Parameter → Prop
  | type name => Template.parse text = .ok (.var name)
  | unit name => UnitTemplate.parse text = .ok (.ofVar name)

theorem isWord_of_stands (stands : Stands text param) : Text.isWord param.name = true := by
  cases param with
  | type name =>
    cases Template.wellFormed_of_parse stands with
    | var isWord => exact isWord
  | unit name =>
    refine (UnitTemplate.spellable_of_parse stands).2 name (PowerProduct.mem_keys.mpr ?_)
    simp [UnitTerm.ofVar]

theorem stands_render (isWord : Text.isWord param.name = true) : Stands param.render param := by
  cases param with
  | type name => exact (Template.WellFormed.var isWord).parse_render
  | unit name =>
    have spellable : UnitTemplate.Spellable (.ofVar name) := by
      refine ⟨fun other member => absurd member (List.not_mem_nil), fun other member => ?_⟩
      rw [PowerProduct.mem_keys] at member
      by_cases same : other = name
      · exact same ▸ isWord
      · exact absurd (PowerProduct.exponent_ofKey_of_ne same) member
    have spelled : UnitTemplate.render (.ofVar name) = unitVariableText name := by
      change productText [(unitVariableText name, 1)] = _
      simp [productText, factorText]
    have read := spellable.parse_render
    rwa [spelled] at read

/-- A word is a name for parameters that starts like one. -/
theorem isWord_iff :
    Text.isWord name = true ↔
      Nameable name ∧ ∀ first ∈ name.toList.head?, Text.startsWord first = true := by
  unfold Nameable Text.isWord
  rw [ne_eq, ← String.toList_eq_nil_iff]
  cases name.toList with
  | nil => simp
  | cons first rest => simp [and_comm]

/-- A parameter that is read from some text is read back from its own. Some text stands for its
variable exactly if its own does, which is so for all parameters but those whose names start with a
number. -/
theorem stands_iff_starts (param : Parameter) :
    ((∃ text, Parameter.parse text = .ok param) ↔ Parameter.parse param.render = .ok param) ∧
      ((∃ text, Stands text param) ↔ Stands param.render param) ∧
      (Stands param.render param ↔ Parameter.parse param.render = .ok param ∧
        ∀ first ∈ param.name.toList.head?, Text.startsWord first = true) := by
  refine ⟨⟨?_, fun read => ⟨_, read⟩⟩, ⟨?_, fun stands => ⟨_, stands⟩⟩, ?_⟩
  · rintro ⟨text, read⟩
    exact parse_render (nameable_of_parse read)
  · rintro ⟨text, stands⟩
    exact stands_render (isWord_of_stands stands)
  · constructor
    · intro stands
      obtain ⟨nameable, starts⟩ := isWord_iff.mp (isWord_of_stands stands)
      exact ⟨parse_render nameable, starts⟩
    · rintro ⟨read, starts⟩
      exact stands_render (isWord_iff.mpr ⟨nameable_of_parse read, starts⟩)

/-- A parameter can be declared whose name starts with a digit, and its text is no type. -/
theorem declared_without_variable :
    Parameter.parse "@TYPEVAR 1x" = .ok (.type "1x") ∧
      Template.parse (Parameter.type "1x").render =
        .error ⟨9, .unexpected .typeVariableName (some (.integer 1))⟩ := by
  decide +kernel

end Parameter

end SheetTypes
