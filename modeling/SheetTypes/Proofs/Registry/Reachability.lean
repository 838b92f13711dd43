import SheetTypes.Proofs.Actions
import SheetTypes.Registry.File

/-!
Registries that can be reached. A declaration adds units and checked tagged types one by one, and
what it has added stays if it fails later on. So the tags of a tagged type in a registry always
have different names.
-/

set_option autoImplicit false

namespace SheetTypes.Registry

/-- Whether a unit can be defined so: its scale is positive and its bases are declared. -/
def Supports (registry : Registry) : UnitDefinition → Prop
  | .base => True
  | .derived scale base => 0 < scale ∧ ∀ unit ∈ base.keys, registry.hasUnit unit = true

/-- One addition to a registry: a new unit, or a tagged type that has been checked against it. -/
inductive Addition : Registry → Registry → Prop where
  | unit {registry : Registry} {name : String} {definition : UnitDefinition}
      (fresh : registry.hasUnit name = false) (supported : registry.Supports definition) :
      Addition registry (registry.putUnit name definition)
  | type {registry : Registry} {definition : TaggedType}
      (checked : registry.checkType definition = .ok ()) :
      Addition registry (registry.putType definition)

abbrev Adds {α : Type} (registry : Registry) (action : Declaring α) : Prop :=
  Yields Addition registry action (Outcome (fun _ => True) fun _ _ => True)

variable {registry : Registry} {definition : TaggedType} {seen : List String} {tags : List Tag}
  {ε : Type} {declare : ε → Declaring Unit}

private theorem adds_of_result {α : Type} (result : Except RegistryError α) :
    Adds registry (ExceptT.mk (pure result)) := by
  refine ⟨rfl, .refl, ?_⟩
  cases result <;> trivial

private theorem declareBaseUnit_adds (name : String) :
    Adds registry (declareBaseUnit name) := by
  refine .read ?_
  cases known : registry.hasUnit name with
  | true => exact .throw trivial
  | false => exact .of_apply rfl (.single (.unit known trivial)) trivial

private theorem declareUnit_adds (name : String) (scale : Scale) (base : GroundUnit) :
    Adds registry (declareUnit name scale base) := by
  unfold declareUnit
  split
  · exact .of_apply rfl .refl trivial
  next positive =>
    refine .read ?_
    dsimp only
    cases known : registry.hasUnit name with
    | true => exact .of_apply rfl .refl trivial
    | false =>
      cases missing : base.keys.find? fun unit => !registry.hasUnit unit with
      | some unit => exact .throw trivial
      | none =>
        have bases : ∀ unit ∈ base.keys, registry.hasUnit unit = true := by
          simpa using missing
        have supported : registry.Supports (.derived scale base) :=
          ⟨Decidable.not_not.mp positive, bases⟩
        exact .of_apply rfl (.single (.unit known supported)) trivial

private theorem declareType_adds (definition : TaggedType) :
    Adds registry (declareType definition) := by
  refine .read ?_
  cases checked : registry.checkType definition with
  | error error => exact .throw trivial
  | ok _ => exact .of_apply rfl (.single (.type checked)) trivial

private theorem unitEntry_adds (entry : UnitEntry) : Adds registry entry.declare := by
  unfold UnitEntry.declare
  split
  · split
    · exact .throw trivial
    · exact declareBaseUnit_adds _
  · refine (adds_of_result _).andThen fun base _ _ _ => ?_
    exact (adds_of_result _).andThen fun scale _ _ _ => declareUnit_adds _ scale base

private theorem forM_adds (each : ∀ entry registry, Adds registry (declare entry))
    (entries : List ε) : Adds registry (entries.forM declare) := by
  have all := Agree.forM (fun (_ : ε) (_ : Registry) => True) (fun _ _ _ _ _ _ => trivial)
    fun entry (_ : entry ∈ entries) later (_ : Relation.ReflTransGen Addition registry later) =>
      each entry later
  exact all.infer_mono (fun _ _ _ _ => trivial) fun _ _ => trivial

private theorem declareInRounds_adds {isReady : Registry → ε → Bool} {name : ε → String}
    (each : ∀ entry registry, Adds registry (declare entry)) (rounds : Nat) (entries : List ε) :
    Adds registry (RegistryFile.declareInRounds isReady name declare rounds entries) := by
  induction rounds generalizing registry entries with
  | zero => cases entries <;> exact .ok trivial
  | succ rounds ih =>
    cases entries with
    | nil => exact .ok trivial
    | cons entry entries =>
      refine .read ?_
      dsimp only
      split
      · exact .of_apply rfl .refl trivial
      · exact (forM_adds each _).andThen fun _ _ _ _ => ih _

private theorem file_adds (file : RegistryFile) : Adds registry file.declare := by
  refine (declareInRounds_adds (fun entry _ => unitEntry_adds entry) _ _).andThen
    fun _ middle _ _ => ?_
  refine (adds_of_result _).andThen fun definitions _ _ _ => ?_
  exact declareInRounds_adds (fun definition _ => declareType_adds definition) _ _

inductive Declaration where
  | baseUnit (name : String)
  | unit (name : String) (scale : Scale) (base : GroundUnit)
  | type (definition : TaggedType)
  | file (entries : RegistryFile)

namespace Declaration

def perform : Declaration → Declaring Unit
  | baseUnit name => declareBaseUnit name
  | unit name scale base => declareUnit name scale base
  | type definition => declareType definition
  | file entries => entries.declare

theorem perform_adds (declaration : Declaration) (registry : Registry) :
    Adds registry declaration.perform := by
  cases declaration with
  | baseUnit name => exact declareBaseUnit_adds name
  | unit name scale base => exact declareUnit_adds name scale base
  | type definition => exact declareType_adds definition
  | file entries => exact file_adds entries

end Declaration

def after (registry : Registry) (declaration : Declaration) : Registry :=
  (declaration.perform.run registry).2

/-- Registries that declarations lead to, from the empty or the common registry. -/
inductive Reachable : Registry → Prop where
  | empty : Reachable .empty
  | builtin : Reachable .builtin
  | after {registry : Registry} (reachable : Reachable registry) (declaration : Declaration) :
      Reachable (registry.after declaration)

/-- What the starting registries have and additions keep, all reachable registries have. -/
theorem Reachable.invariant {holds : Registry → Prop} (reachable : registry.Reachable)
    (empty : holds .empty) (builtin : holds .builtin)
    (adds : ∀ before later, Addition before later → holds before → holds later) :
    holds registry := by
  induction reachable with
  | empty => exact empty
  | builtin => exact builtin
  | @after before _ declaration ih =>
    have steps : Relation.ReflTransGen Addition before (before.after declaration) :=
      (declaration.perform_adds before).steps
    generalize before.after declaration = later at steps
    induction steps with
    | refl => exact ih
    | tail _ addition more => exact adds _ _ addition more

def TagsDistinct (registry : Registry) : Prop :=
  ∀ definition ∈ registry.types, firstRepeated [] definition.tagNames = none

theorem checkTags_cons_eq_ok {tag : Tag} :
    registry.checkTags definition seen (tag :: tags) = .ok () ↔
      tag.name ∉ seen ∧
        (∀ payload, tag.payload = some payload →
          registry.checkPayload definition tag payload = .ok ()) ∧
        registry.checkTags definition (tag.name :: seen) tags = .ok () := by
  rw [checkTags]
  by_cases repeated : tag.name ∈ seen
  · simp [repeated, throw, throwThe, MonadExceptOf.throw, bind, Except.bind]
  · cases carried : tag.payload with
    | none => simp [repeated]
    | some payload =>
      simp only [Option.some.injEq, forall_eq', repeated, List.contains_eq_mem, decide_false,
        Bool.false_eq_true, if_false, not_false_eq_true, true_and, except_bind_eq_ok]
      constructor
      · rintro ⟨_, own, rest⟩
        exact ⟨own, rest⟩
      · rintro ⟨own, rest⟩
        exact ⟨(), own, rest⟩

theorem firstRepeated_of_checkTags (checked : registry.checkTags definition seen tags = .ok ()) :
    firstRepeated seen (tags.map Tag.name) = none := by
  induction tags generalizing seen with
  | nil => rfl
  | cons tag tags ih =>
    obtain ⟨new, _, rest⟩ := checkTags_cons_eq_ok.mp checked
    rw [List.map_cons, firstRepeated, if_neg (by simpa using new)]
    exact ih rest

theorem checkType_eq_ok :
    registry.checkType definition = .ok () ↔
      registry.hasType definition.name = false ∧ firstRepeated [] definition.params = none ∧
        registry.checkTags definition [] definition.tags = .ok () := by
  unfold checkType
  cases known : registry.hasType definition.name with
  | true =>
    constructor
    · intro checked
      cases checked
    · rintro ⟨impossible, _⟩
      cases impossible
  | false =>
    cases repeated : firstRepeated [] definition.params with
    | none => simp
    | some param =>
      constructor
      · intro checked
        cases checked
      · rintro ⟨_, impossible, _⟩
        cases impossible

theorem Addition.tagsDistinct {before later : Registry} (addition : Addition before later)
    (distinct : before.TagsDistinct) : later.TagsDistinct := by
  cases addition with
  | unit _ _ => exact distinct
  | @type definition checked =>
    intro found member
    rcases List.mem_append.mp member with old | new
    · exact distinct found (List.mem_filter.mp old).1
    · rw [List.mem_singleton.mp new]
      exact firstRepeated_of_checkTags (checkType_eq_ok.mp checked).2.2

theorem Reachable.tagsDistinct (reachable : registry.Reachable) : registry.TagsDistinct := by
  refine reachable.invariant (List.forall_mem_nil _) (fun definition member => ?_)
    fun _ _ => Addition.tagsDistinct
  rw [List.mem_singleton.mp member]
  decide

end SheetTypes.Registry
