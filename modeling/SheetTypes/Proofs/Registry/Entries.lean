import SheetTypes.Proofs.Registry.Invariants
import SheetTypes.Proofs.UnitValue

/-!
Entries of a file, one at a time. Whether an entry is declared depends on three things only: it is
in order by itself, its name is new, and all that it mentions is declared. The first of them does
not depend on the registry.
-/

set_option autoImplicit false

namespace SheetTypes

inductive Subject where
  | unit (name : String)
  | type (name : String)

inductive Item where
  | unit (entry : UnitEntry)
  | type (definition : TaggedType)

def Registry.Has (registry : Registry) : Subject → Prop
  | .unit name => registry.hasUnit name = true
  | .type name => registry.hasType name = true

theorem Registry.Keeps.has {before later : Registry} (keeps : before.Keeps later)
    {subject : Subject} (known : before.Has subject) : later.Has subject := by
  cases subject with
  | unit name => exact keeps.hasUnit known
  | type name => exact keeps.hasType known

namespace Registry

variable {registry later : Registry} {definition : TaggedType} {name : String}

theorem hasUnit_putUnit (fresh : registry.hasUnit name = false) (definition : UnitDefinition)
    (query : String) :
    (registry.putUnit name definition).hasUnit query = true ↔
      registry.hasUnit query = true ∨ query = name := by
  unfold hasUnit
  rw [unit?_putUnit fresh]
  by_cases same : query = name
  · simp [same]
  · simp [same]

theorem hasType_putType (fresh : registry.hasType definition.name = false) (query : String) :
    (registry.putType definition).hasType query = true ↔
      registry.hasType query = true ∨ query = definition.name := by
  unfold hasType
  rw [type?_putType fresh]
  by_cases same : query = definition.name
  · simp [same]
  · simp [same]

theorem declareBaseUnit_eq_ok :
    declareBaseUnit name registry = (.ok (), later) ↔
      registry.hasUnit name = false ∧ later = registry.putUnit name .base := by
  unfold declareBaseUnit
  rw [get_bind_apply]
  cases known : registry.hasUnit name with
  | true =>
    constructor
    · intro done
      cases done
    · rintro ⟨impossible, _⟩
      cases impossible
  | false =>
    constructor
    · intro done
      cases done
      exact ⟨rfl, rfl⟩
    · rintro ⟨_, rfl⟩
      rfl

theorem declareUnit_eq_ok {scale : Scale} {base : GroundUnit} :
    declareUnit name scale base registry = (.ok (), later) ↔
      registry.hasUnit name = false ∧ registry.Supports (.derived scale base) ∧
        later = registry.putUnit name (.derived scale base) := by
  unfold declareUnit
  by_cases positive : 0 < scale
  · rw [if_neg (not_not_intro positive)]
    dsimp only
    rw [get_bind_apply]
    cases known : registry.hasUnit name with
    | true =>
      constructor
      · intro done
        cases done
      · rintro ⟨impossible, _⟩
        cases impossible
    | false =>
      cases missing : base.keys.find? fun unit => !registry.hasUnit unit with
      | some unit =>
        have undeclared := List.find?_some missing
        constructor
        · intro done
          cases done
        · rintro ⟨_, ⟨_, bases⟩, _⟩
          rw [bases unit (List.mem_of_find?_eq_some missing)] at undeclared
          cases undeclared
      | none =>
        have bases : ∀ unit ∈ base.keys, registry.hasUnit unit = true := by
          simpa using missing
        constructor
        · intro done
          cases done
          exact ⟨rfl, ⟨positive, bases⟩, rfl⟩
        · rintro ⟨_, _, rfl⟩
          rfl
  · rw [if_pos positive]
    constructor
    · intro done
      cases done
    · rintro ⟨_, ⟨impossible, _⟩, _⟩
      exact absurd impossible positive

theorem declareType_eq_ok :
    declareType definition registry = (.ok (), later) ↔
      registry.checkType definition = .ok () ∧ later = registry.putType definition := by
  unfold declareType
  rw [get_bind_apply]
  cases registry.checkType definition with
  | error error =>
    constructor
    · intro done
      cases done
    · rintro ⟨impossible, _⟩
      cases impossible
  | ok done =>
    constructor
    · intro done
      cases done
      exact ⟨rfl, rfl⟩
    · rintro ⟨_, rfl⟩
      rfl

end Registry

namespace UnitEntry

variable {entry : UnitEntry} {definition : UnitDefinition} {later registry : Registry}

/-- Whether an entry, read by itself, defines a unit so. -/
def Means (entry : UnitEntry) : UnitDefinition → Prop
  | .base => entry.base = none ∧ entry.scale = none
  | .derived scale base => ∃ text, entry.base = some text ∧
      parseBase entry.name text = .ok base ∧
      parseScale entry.name (entry.scale.getD "1") = .ok scale

theorem Means.unique {other : UnitDefinition} (means : entry.Means definition)
    (otherMeans : entry.Means other) : definition = other := by
  cases definition with
  | base =>
    cases other with
    | base => rfl
    | derived scale base =>
      obtain ⟨text, some, _⟩ := otherMeans
      rw [means.1] at some
      cases some
  | derived scale base =>
    obtain ⟨text, found, baseRead, scaleRead⟩ := means
    cases other with
    | base =>
      rw [otherMeans.1] at found
      cases found
    | derived otherScale otherBase =>
      obtain ⟨otherText, otherFound, otherBaseRead, otherScaleRead⟩ := otherMeans
      cases found.symm.trans otherFound
      cases baseRead.symm.trans otherBaseRead
      cases scaleRead.symm.trans otherScaleRead
      rfl

theorem declare_eq_ok :
    entry.declare registry = (.ok (), later) ↔ ∃ definition, entry.Means definition ∧
      registry.hasUnit entry.name = false ∧ registry.Supports definition ∧
        later = registry.putUnit entry.name definition := by
  cases found : entry.base with
  | none =>
    have nothing (scale : Scale) (base : GroundUnit) : ¬entry.Means (.derived scale base) := by
      rintro ⟨text, some, _⟩
      rw [found] at some
      cases some
    unfold declare
    rw [found]
    cases scaled : entry.scale with
    | none =>
      refine Registry.declareBaseUnit_eq_ok.trans ⟨?_, ?_⟩
      · rintro ⟨fresh, made⟩
        exact ⟨.base, ⟨found, scaled⟩, fresh, trivial, made⟩
      · rintro ⟨definition, means, fresh, _, made⟩
        cases definition with
        | base => exact ⟨fresh, made⟩
        | derived scale base => exact absurd means (nothing scale base)
    | some scale =>
      constructor
      · intro done
        cases done
      · rintro ⟨definition, means, _⟩
        cases definition with
        | base =>
          rw [means.2] at scaled
          cases scaled
        | derived scale base => exact absurd means (nothing scale base)
  | some text =>
    unfold declare
    rw [found]
    refine result_bind_eq_ok.trans ⟨?_, ?_⟩
    · rintro ⟨base, baseRead, done⟩
      obtain ⟨scale, scaleRead, done⟩ := result_bind_eq_ok.mp done
      exact ⟨.derived scale base, ⟨text, found, baseRead, scaleRead⟩,
        Registry.declareUnit_eq_ok.mp done⟩
    · rintro ⟨definition, means, done⟩
      cases definition with
      | base =>
        rw [means.1] at found
        cases found
      | derived scale base =>
        obtain ⟨other, same, baseRead, scaleRead⟩ := means
        cases found.symm.trans same
        refine ⟨base, baseRead, result_bind_eq_ok.mpr ⟨scale, scaleRead, ?_⟩⟩
        exact Registry.declareUnit_eq_ok.mpr done

theorem Means.references {scale : Scale} {base : GroundUnit}
    (means : entry.Means (.derived scale base)) : entry.references = base.keys := by
  obtain ⟨text, found, read, _⟩ := means
  unfold parseBase GroundUnit.parse at read
  unfold UnitEntry.references
  rw [found, Option.map_some]
  cases parsed : UnitTemplate.parse text with
  | error error =>
    rw [parsed] at read
    cases read
  | ok unit =>
    rw [parsed] at read
    dsimp only at read ⊢
    cases ground : unit.ground? with
    | none =>
      rw [ground] at read
      cases read
    | some found =>
      rw [ground] at read
      cases read
      rw [UnitTerm.names_of_ground? ground]

theorem Means.references_declared (means : entry.Means definition)
    (supports : registry.Supports definition) :
    ∀ name ∈ entry.references, registry.hasUnit name = true := by
  cases definition with
  | base =>
    have none : entry.references = [] := by
      unfold UnitEntry.references
      rw [means.1]
      rfl
    rw [none]
    exact List.forall_mem_nil _
  | derived scale base =>
    rw [means.references]
    exact supports.2

/-- The scale of a unit is in order whatever the registry. -/
theorem Means.supports (means : entry.Means definition) {before : Registry}
    (supports : before.Supports definition)
    (declared : ∀ name ∈ entry.references, later.hasUnit name = true) :
    later.Supports definition := by
  cases definition with
  | base => trivial
  | derived scale base =>
    rw [means.references] at declared
    exact ⟨supports.1, declared⟩

end UnitEntry

namespace Registry

variable {before later : Registry} {definition : TaggedType}

def PayloadMentions (definition : TaggedType) : Subject → Prop
  | .unit name => ∃ tag ∈ definition.tags, ∃ payload, tag.payload = some payload ∧
      name ∈ payload.units
  | .type name => name ≠ definition.name ∧ ∃ tag ∈ definition.tags, ∃ payload,
      tag.payload = some payload ∧ name ∈ payload.taggedTypes

theorem has_of_checkType (checked : before.checkType definition = .ok ()) {subject : Subject}
    (mentioned : PayloadMentions definition subject) : before.Has subject := by
  have fine := (checkType_eq_ok.mp checked).2.2
  cases subject with
  | unit name =>
    obtain ⟨tag, member, payload, carries, inside⟩ := mentioned
    obtain ⟨_, _, _, units, _⟩ :=
      checkPayload_eq_ok.mp (checkPayload_of_checkTags fine member carries)
    exact units name inside
  | type name =>
    obtain ⟨other, tag, member, payload, carries, inside⟩ := mentioned
    obtain ⟨_, _, _, _, types⟩ :=
      checkPayload_eq_ok.mp (checkPayload_of_checkTags fine member carries)
    exact (types name inside).resolve_left other

/-- A definition that one registry takes is taken by any other that has what it mentions, unless its
name is in use. -/
theorem checkType_transfer (checked : before.checkType definition = .ok ())
    (fresh : later.hasType definition.name = false)
    (declared : ∀ subject, PayloadMentions definition subject → later.Has subject) :
    later.checkType definition = .ok () := by
  obtain ⟨_, params, fine⟩ := checkType_eq_ok.mp checked
  refine checkType_eq_ok.mpr ⟨fresh, params, ?_⟩
  have tags (seen : List String) (tags : List Tag) (inside : ∀ tag ∈ tags, tag ∈ definition.tags)
      (fine : before.checkTags definition seen tags = .ok ()) :
      later.checkTags definition seen tags = .ok () := by
    induction tags generalizing seen with
    | nil => rfl
    | cons tag tags ih =>
      obtain ⟨here, others⟩ := List.forall_mem_cons.mp inside
      obtain ⟨new, own, rest⟩ := checkTags_cons_eq_ok.mp fine
      refine checkTags_cons_eq_ok.mpr ⟨new, fun payload carries => ?_, ih _ others rest⟩
      obtain ⟨functions, typeVars, unitVars, _, _⟩ :=
        checkPayload_eq_ok.mp (own payload carries)
      refine checkPayload_eq_ok.mpr ⟨functions, typeVars, unitVars, ?_, ?_⟩
      · exact fun name member => declared (.unit name) ⟨tag, here, payload, carries, member⟩
      · intro name member
        refine or_iff_not_imp_left.mpr fun other => ?_
        exact declared (.type name) ⟨other, tag, here, payload, carries, member⟩
  exact tags [] definition.tags (fun _ member => member) fine

end Registry

namespace Item

variable {registry later : Registry} {item : Item}

def declare : Item → Declaring Unit
  | unit entry => entry.declare
  | type definition => Registry.declareType definition

def subject : Item → Subject
  | unit entry => .unit entry.name
  | type definition => .type definition.name

/-- What has to be declared before an item. -/
def Needs : Item → Subject → Prop
  | unit entry, .unit name => name ∈ entry.references
  | unit _, .type _ => False
  | type definition, subject => Registry.PayloadMentions definition subject

/-- Whether an item is in order by itself: there is a registry that takes it. -/
def Valid (item : Item) : Prop := ∃ registry later, item.declare registry = (.ok (), later)

def Recorded (registry : Registry) : Item → Prop
  | unit entry => ∃ definition, entry.Means definition ∧
      registry.unit? entry.name = some definition
  | type definition => registry.type? definition.name = some definition

theorem Recorded.mono (recorded : item.Recorded registry) (keeps : registry.Keeps later) :
    item.Recorded later := by
  cases item with
  | unit entry =>
    obtain ⟨definition, means, found⟩ := recorded
    exact ⟨definition, means, keeps.units entry.name definition found⟩
  | type definition => exact keeps.types definition.name definition recorded

theorem fits_of_declared (done : item.declare registry = (.ok (), later)) :
    ¬registry.Has item.subject ∧ ∀ subject, item.Needs subject → registry.Has subject := by
  cases item with
  | unit entry =>
    obtain ⟨definition, means, fresh, supports, _⟩ := UnitEntry.declare_eq_ok.mp done
    refine ⟨Bool.eq_false_iff.mp fresh, fun subject needs => ?_⟩
    cases subject with
    | unit name => exact means.references_declared supports name needs
    | type name => exact needs.elim
  | type definition =>
    obtain ⟨checked, _⟩ := Registry.declareType_eq_ok.mp done
    refine ⟨Bool.eq_false_iff.mp (Registry.checkType_eq_ok.mp checked).1, fun subject needs => ?_⟩
    exact Registry.has_of_checkType checked needs

/-- A registry takes exactly the valid items whose name is new and that refer to what it has. -/
theorem declare_succeeds : (∃ later, item.declare registry = (.ok (), later)) ↔
    item.Valid ∧ ¬registry.Has item.subject ∧
      ∀ subject, item.Needs subject → registry.Has subject := by
  constructor
  · rintro ⟨later, done⟩
    exact ⟨⟨registry, later, done⟩, fits_of_declared done⟩
  · rintro ⟨⟨other, after, done⟩, fresh, supported⟩
    cases item with
    | unit entry =>
      obtain ⟨definition, means, _, supports, _⟩ := UnitEntry.declare_eq_ok.mp done
      refine ⟨_, UnitEntry.declare_eq_ok.mpr
        ⟨definition, means, Bool.eq_false_iff.mpr fresh, ?_, rfl⟩⟩
      exact means.supports supports fun name member => supported (.unit name) member
    | type definition =>
      obtain ⟨checked, _⟩ := Registry.declareType_eq_ok.mp done
      refine ⟨_, Registry.declareType_eq_ok.mpr ⟨?_, rfl⟩⟩
      exact Registry.checkType_transfer checked (Bool.eq_false_iff.mpr fresh) supported

structure Taken (item : Item) (registry later : Registry) : Prop where
  keeps : registry.Keeps later
  has : ∀ subject, later.Has subject ↔ registry.Has subject ∨ subject = item.subject
  recorded : item.Recorded later

theorem taken_of_declared (done : item.declare registry = (.ok (), later)) :
    item.Taken registry later := by
  cases item with
  | unit entry =>
    obtain ⟨definition, means, fresh, supports, rfl⟩ := UnitEntry.declare_eq_ok.mp done
    refine ⟨(Registry.Addition.unit fresh supports).keeps, fun subject => ?_,
      definition, means, ?_⟩
    · cases subject with
      | unit name =>
        rw [subject, Subject.unit.injEq]
        exact Registry.hasUnit_putUnit fresh definition name
      | type name => simp [subject, Registry.Has, Registry.hasType, Registry.type?,
          Registry.putUnit]
    · rw [Registry.unit?_putUnit fresh, if_pos rfl,
        Option.not_isSome_iff_eq_none.mp (Bool.eq_false_iff.mp fresh)]
      rfl
  | type definition =>
    obtain ⟨checked, rfl⟩ := Registry.declareType_eq_ok.mp done
    have fresh := (Registry.checkType_eq_ok.mp checked).1
    refine ⟨(Registry.Addition.type checked).keeps, fun subject => ?_, ?_⟩
    · cases subject with
      | unit name => simp [subject, Registry.Has, Registry.hasUnit, Registry.unit?,
          Registry.putType]
      | type name =>
        rw [subject, Subject.type.injEq]
        exact Registry.hasType_putType fresh name
    · rw [Recorded, Registry.type?_putType fresh, if_pos rfl,
        Option.not_isSome_iff_eq_none.mp (Bool.eq_false_iff.mp fresh)]
      rfl

end Item

end SheetTypes
