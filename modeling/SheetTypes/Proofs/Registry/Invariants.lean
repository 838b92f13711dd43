import SheetTypes.Proofs.Registry.Reachability
import SheetTypes.Proofs.Template.Mentions

/-!
What holds of every registry that declarations lead to. The definitions of units never run in
circles, and everything that a definition mentions is declared. A declaration never changes what is
declared already, and one that is refused changes nothing.
-/

set_option autoImplicit false

namespace SheetTypes.Registry

variable {registry before later : Registry} {base name : String} {definition : TaggedType}
  {error : RegistryError} {payload : Template} {tag : Tag}

/-- Whether what is declared in a registry is declared the same way in another. -/
structure Keeps (before later : Registry) : Prop where
  units : ∀ name definition, before.unit? name = some definition →
    later.unit? name = some definition
  types : ∀ name definition, before.type? name = some definition →
    later.type? name = some definition

theorem Keeps.refl (registry : Registry) : registry.Keeps registry :=
  ⟨fun _ _ found => found, fun _ _ found => found⟩

theorem Keeps.trans {last : Registry} (first : before.Keeps later) (second : later.Keeps last) :
    before.Keeps last :=
  ⟨fun name definition found => second.units name definition (first.units name definition found),
    fun name definition found => second.types name definition (first.types name definition found)⟩

theorem Keeps.hasUnit (keeps : before.Keeps later) (known : before.hasUnit name = true) :
    later.hasUnit name = true := by
  obtain ⟨definition, found⟩ := Option.isSome_iff_exists.mp known
  exact Option.isSome_iff_exists.mpr ⟨definition, keeps.units name definition found⟩

theorem Keeps.hasType (keeps : before.Keeps later) (known : before.hasType name = true) :
    later.hasType name = true := by
  obtain ⟨definition, found⟩ := Option.isSome_iff_exists.mp known
  exact Option.isSome_iff_exists.mpr ⟨definition, keeps.types name definition found⟩

theorem unit?_putUnit (fresh : registry.hasUnit name = false) (definition : UnitDefinition)
    (query : String) :
    (registry.putUnit name definition).unit? query =
      (registry.unit? query).or (if query = name then some definition else none) := by
  have absent : registry.units.lookup name = none := by simpa [hasUnit, unit?] using fresh
  have others : registry.units.filter (fun unit => unit.1 != name) = registry.units := by
    rw [List.filter_eq_self]
    intro unit member
    rw [bne_comm]
    exact List.lookup_eq_none_iff.mp absent unit member
  unfold unit? putUnit
  rw [others, List.lookup_append]
  by_cases same : query = name
  · simp [same]
  · simp [same, List.lookup_cons, beq_eq_false_iff_ne.mpr same]

theorem type?_putType (fresh : registry.hasType definition.name = false) (query : String) :
    (registry.putType definition).type? query =
      (registry.type? query).or (if query = definition.name then some definition else none) := by
  have absent : registry.type? definition.name = none := by simpa [hasType] using fresh
  have others : registry.types.filter (fun type => type.name != definition.name) =
      registry.types := by
    rw [List.filter_eq_self]
    intro type member
    have different := List.find?_eq_none.mp absent type member
    simpa using different
  unfold type? putType
  rw [others, List.find?_append]
  by_cases same : query = definition.name
  · simp [same]
  · simp [same, Ne.symm same]

theorem Addition.keeps (addition : Addition before later) : before.Keeps later := by
  cases addition with
  | @unit name definition fresh supported =>
    refine ⟨fun query found known => ?_, fun _ _ known => known⟩
    rw [unit?_putUnit fresh, known]
    rfl
  | @type definition checked =>
    refine ⟨fun _ _ known => known, fun query found known => ?_⟩
    rw [type?_putType (checkType_eq_ok.mp checked).1, known]
    rfl

/-- A unit that an addition brings in was not declared and is supported by the registry before. -/
theorem Addition.unit?_before (addition : Addition before later) {definition : UnitDefinition}
    (found : later.unit? name = some definition) :
    before.unit? name = some definition ∨
      before.hasUnit name = false ∧ before.Supports definition := by
  cases addition with
  | @unit added own fresh supported =>
    rw [unit?_putUnit fresh] at found
    rcases Option.or_eq_some_iff.mp found with old | ⟨_, new⟩
    · exact .inl old
    · by_cases same : name = added
      · rw [if_pos same] at new
        cases new
        rw [same]
        exact .inr ⟨fresh, supported⟩
      · rw [if_neg same] at new
        cases new
  | type _ => exact .inl found

/-- A type that an addition brings in has been checked against the registry before. -/
theorem Addition.type?_before (addition : Addition before later)
    (found : later.type? name = some definition) :
    before.type? name = some definition ∨
      definition.name = name ∧ before.checkType definition = .ok () := by
  cases addition with
  | unit _ _ => exact .inl found
  | @type added checked =>
    rw [type?_putType (checkType_eq_ok.mp checked).1] at found
    rcases Option.or_eq_some_iff.mp found with old | ⟨_, new⟩
    · exact .inl old
    · by_cases same : name = added.name
      · rw [if_pos same] at new
        cases new
        exact .inr ⟨same.symm, checked⟩
      · rw [if_neg same] at new
        cases new

structure Admits (registry : Registry) (params : List Parameter) (payload : Template) : Prop where
  functionFree : payload.hasFunction = false
  typeVars : ∀ name, payload.HasVar name → .type name ∈ params
  unitVars : ∀ unit, payload.HasUnit unit → ∀ name ∈ unit.vars.keys, .unit name ∈ params
  units : ∀ unit, payload.HasUnit unit → ∀ name ∈ unit.names.keys, registry.hasUnit name = true
  types : ∀ name operands, payload.Contains (.tagged name operands) →
    registry.hasType name = true

theorem Admits.mono {params : List Parameter} (admits : before.Admits params payload)
    (keeps : before.Keeps later) :
    later.Admits params payload where
  functionFree := admits.functionFree
  typeVars := admits.typeVars
  unitVars := admits.unitVars
  units unit has name member := keeps.hasUnit (admits.units unit has name member)
  types name operands contains := keeps.hasType (admits.types name operands contains)

theorem checkPayload_eq_ok :
    registry.checkPayload definition tag payload = .ok () ↔
      payload.hasFunction = false ∧
        (∀ name ∈ payload.typeVars, .type name ∈ definition.params) ∧
        (∀ name ∈ payload.unitVars, .unit name ∈ definition.params) ∧
        (∀ name ∈ payload.units, registry.hasUnit name = true) ∧
        ∀ name ∈ payload.taggedTypes, name = definition.name ∨ registry.hasType name = true := by
  constructor
  · intro checked
    unfold checkPayload at checked
    dsimp only at checked
    split at checked
    · cases checked
    next functions =>
    split at checked
    · cases checked
    next typeVars =>
    split at checked
    · cases checked
    next unitVars =>
    split at checked
    · cases checked
    next units =>
    split at checked
    · cases checked
    next types =>
    exact ⟨eq_false_of_ne_true functions, by simpa using typeVars, by simpa using unitVars,
      by simpa using units, by simpa [Decidable.or_iff_not_imp_left] using types⟩
  · rintro ⟨functions, typeVars, unitVars, units, types⟩
    have noTypeVar : payload.typeVars.find?
        (fun name => !definition.params.contains (.type name)) = none := by simpa using typeVars
    have noUnitVar : payload.unitVars.find?
        (fun name => !definition.params.contains (.unit name)) = none := by simpa using unitVars
    have noUnit : payload.units.find? (fun name => !registry.hasUnit name) = none := by
      simpa using units
    have noType : payload.taggedTypes.find?
        (fun name => name != definition.name && !registry.hasType name) = none := by
      simpa [Decidable.or_iff_not_imp_left] using types
    unfold checkPayload
    simp only [functions, noTypeVar, noUnitVar, noUnit, noType]
    rfl

theorem checkPayload_of_checkTags {seen : List String} {tags : List Tag}
    (checked : registry.checkTags definition seen tags = .ok ()) (member : tag ∈ tags)
    (carries : tag.payload = some payload) :
    registry.checkPayload definition tag payload = .ok () := by
  induction tags generalizing seen with
  | nil => cases member
  | cons first tags ih =>
    obtain ⟨_, own, rest⟩ := checkTags_cons_eq_ok.mp checked
    rcases List.mem_cons.mp member with same | later
    · subst same
      exact own payload carries
    · exact ih rest later

private theorem admits_of_checkPayload
    (checked : before.checkPayload definition tag payload = .ok ()) (keeps : before.Keeps later)
    (own : later.hasType definition.name = true) : later.Admits definition.params payload := by
  obtain ⟨functionFree, typeVars, unitVars, units, types⟩ := checkPayload_eq_ok.mp checked
  refine ⟨functionFree, ?_, ?_, ?_, ?_⟩
  · intro name has
    exact typeVars name (Template.mem_typeVars.mpr has)
  · intro unit has name member
    exact unitVars name (Template.mem_unitVars.mpr ⟨unit, has, member⟩)
  · intro unit has name member
    exact keeps.hasUnit (units name (Template.mem_units.mpr ⟨unit, has, member⟩))
  · intro name operands contains
    rcases types name (Template.mem_taggedTypes.mpr ⟨operands, contains⟩) with same | declared
    · rw [same]
      exact own
    · exact keeps.hasType declared

/-- Whether a unit is defined as a multiple of another one, among others. -/
def DefinedBy (registry : Registry) (name base : String) : Prop :=
  ∃ scale unit, registry.unit? name = some (.derived scale unit) ∧ base ∈ unit.keys

structure Consistent (registry : Registry) : Prop where
  unitsFounded : WellFounded fun base name => registry.DefinedBy name base
  basesDeclared : ∀ name base, registry.DefinedBy name base → registry.hasUnit base = true
  scalesPositive : ∀ name scale unit, registry.unit? name = some (.derived scale unit) → 0 < scale
  paramsDistinct : ∀ name definition, registry.type? name = some definition →
    definition.params.Nodup
  tagsDistinct : ∀ name definition, registry.type? name = some definition →
    definition.tagNames.Nodup
  payloads : ∀ name definition, registry.type? name = some definition →
    ∀ tag ∈ definition.tags, ∀ payload, tag.payload = some payload →
      registry.Admits definition.params payload

theorem Consistent.unitsAcyclic (consistent : registry.Consistent) (name : String) :
    ¬Relation.TransGen registry.DefinedBy name name := by
  induction name using consistent.unitsFounded.induction with
  | _ name ih =>
    intro circle
    obtain ⟨base, step, back⟩ := Relation.TransGen.head'_iff.mp circle
    exact ih base step (Relation.TransGen.tail' back step)

theorem nodup_of_firstRepeated {α : Type} [BEq α] [LawfulBEq α] {seen items : List α}
    (fresh : firstRepeated seen items = none) :
    items.Nodup ∧ ∀ item ∈ items, item ∉ seen := by
  induction items generalizing seen with
  | nil => exact ⟨List.nodup_nil, List.forall_mem_nil _⟩
  | cons item items ih =>
    rw [firstRepeated] at fresh
    by_cases repeated : item ∈ seen
    · simp [repeated] at fresh
    · rw [if_neg (by simpa using repeated)] at fresh
      obtain ⟨distinct, apart⟩ := ih fresh
      have new : item ∉ items := fun again => apart item again List.mem_cons_self
      refine ⟨List.nodup_cons.mpr ⟨new, distinct⟩, ?_⟩
      intro other member
      rcases List.mem_cons.mp member with same | later
      · rw [same]
        exact repeated
      · exact fun old => apart other later (List.mem_cons_of_mem _ old)

private theorem Addition.definedBy_before (addition : Addition before later)
    (known : before.hasUnit name = true) (defined : later.DefinedBy name base) :
    before.DefinedBy name base := by
  obtain ⟨scale, unit, found, member⟩ := defined
  rcases addition.unit?_before found with old | ⟨fresh, _⟩
  · exact ⟨scale, unit, old, member⟩
  · rw [known] at fresh
    cases fresh

private theorem Addition.base_before (addition : Addition before later)
    (declared : ∀ name base, before.DefinedBy name base → before.hasUnit base = true)
    (defined : later.DefinedBy name base) : before.hasUnit base = true := by
  obtain ⟨scale, unit, found, member⟩ := defined
  rcases addition.unit?_before found with old | ⟨_, supported⟩
  · exact declared name base ⟨scale, unit, old, member⟩
  · exact supported.2 base member

private theorem Addition.unitsFounded (addition : Addition before later)
    (consistent : before.Consistent) :
    WellFounded fun base name => later.DefinedBy name base := by
  have old (name : String) (known : before.hasUnit name = true) :
      Acc (fun base name => later.DefinedBy name base) name := by
    induction name using consistent.unitsFounded.induction with
    | _ name ih =>
      refine ⟨name, fun base defined => ?_⟩
      exact ih base (addition.definedBy_before known defined)
        (addition.base_before consistent.basesDeclared defined)
  refine ⟨fun name => ⟨name, fun base defined => ?_⟩⟩
  exact old base (addition.base_before consistent.basesDeclared defined)

theorem Addition.consistent (addition : Addition before later) (consistent : before.Consistent) :
    later.Consistent where
  unitsFounded := addition.unitsFounded consistent
  basesDeclared name base defined :=
    addition.keeps.hasUnit (addition.base_before consistent.basesDeclared defined)
  scalesPositive name scale unit found := by
    rcases addition.unit?_before found with old | ⟨_, supported⟩
    · exact consistent.scalesPositive name scale unit old
    · exact supported.1
  paramsDistinct name definition found := by
    rcases addition.type?_before found with old | ⟨_, checked⟩
    · exact consistent.paramsDistinct name definition old
    · exact (nodup_of_firstRepeated (checkType_eq_ok.mp checked).2.1).1
  tagsDistinct name definition found := by
    rcases addition.type?_before found with old | ⟨_, checked⟩
    · exact consistent.tagsDistinct name definition old
    · exact (nodup_of_firstRepeated (firstRepeated_of_checkTags (checkType_eq_ok.mp checked).2.2)).1
  payloads name definition found tag member payload carries := by
    rcases addition.type?_before found with old | ⟨same, checked⟩
    · exact (consistent.payloads name definition old tag member payload carries).mono addition.keeps
    · have own : later.hasType definition.name = true := by
        rw [same]
        exact Option.isSome_iff_exists.mpr ⟨definition, found⟩
      have fine := checkPayload_of_checkTags (checkType_eq_ok.mp checked).2.2 member carries
      exact admits_of_checkPayload fine addition.keeps own

private theorem consistent_empty : Registry.empty.Consistent where
  unitsFounded := ⟨fun name => ⟨name, fun base defined => by
    obtain ⟨_, _, found, _⟩ := defined
    cases found⟩⟩
  basesDeclared name base defined := by
    obtain ⟨_, _, found, _⟩ := defined
    cases found
  scalesPositive name scale unit found := by cases found
  paramsDistinct name definition found := by cases found
  tagsDistinct name definition found := by cases found
  payloads name definition found := by cases found

private theorem builtin_additions : Relation.ReflTransGen Addition .empty .builtin := by
  have built : Registry.builtin =
      ((((((((Registry.empty.putUnit "m" .base).putUnit "s" .base).putUnit "kg" .base).putUnit
        "km" (.derived 1000 (.ofKey "m"))).putUnit
        "g" (.derived (Rat.divInt 1 1000) (.ofKey "kg"))).putUnit
        "min" (.derived 60 (.ofKey "s"))).putUnit "h" (.derived 3600 (.ofKey "s"))).putType
        ⟨"Optional", [.type "t"], [⟨"None", none⟩, ⟨"Is", some (.var "t")⟩]⟩) := by decide +kernel
  rw [built]
  refine .tail ?_ (.type (by rfl))
  refine .tail ?_ (.unit (by decide) ⟨by decide, by decide⟩)
  refine .tail ?_ (.unit (by decide) ⟨by decide, by decide⟩)
  refine .tail ?_ (.unit (by decide) ⟨by decide, by decide⟩)
  refine .tail ?_ (.unit (by decide) ⟨by decide, by decide⟩)
  refine .tail ?_ (.unit (by decide) trivial)
  refine .tail ?_ (.unit (by decide) trivial)
  exact .single (.unit (by decide) trivial)

private theorem Consistent.additions (consistent : before.Consistent)
    (additions : Relation.ReflTransGen Addition before later) : later.Consistent := by
  induction additions with
  | refl => exact consistent
  | tail _ addition ih => exact addition.consistent ih

theorem Reachable.consistent (reachable : registry.Reachable) : registry.Consistent :=
  reachable.invariant consistent_empty (consistent_empty.additions builtin_additions)
    fun _ _ addition => addition.consistent

private theorem keeps_of_additions (additions : Relation.ReflTransGen Addition before later) :
    before.Keeps later := by
  induction additions with
  | refl => exact .refl before
  | tail _ addition ih => exact ih.trans addition.keeps

theorem keeps_after (registry : Registry) (declaration : Declaration) :
    registry.Keeps (registry.after declaration) :=
  keeps_of_additions (declaration.perform_adds registry).steps

theorem keeps_run (registry : Registry) (declarations : List Declaration) :
    registry.Keeps (declarations.foldl after registry) := by
  induction declarations generalizing registry with
  | nil => exact .refl registry
  | cons declaration declarations ih =>
    exact (registry.keeps_after declaration).trans (ih (registry.after declaration))

private theorem declareBaseUnit_refused
    (refused : (declareBaseUnit name registry).1 = .error error) :
    (declareBaseUnit name registry).2 = registry := by
  unfold declareBaseUnit at *
  rw [get_bind_apply] at *
  cases known : registry.hasUnit name with
  | true => rfl
  | false =>
    rw [known] at refused
    cases refused

private theorem declareUnit_refused {scale : Scale} {base : GroundUnit}
    (refused : (declareUnit name scale base registry).1 = .error error) :
    (declareUnit name scale base registry).2 = registry := by
  unfold declareUnit at *
  by_cases positive : 0 < scale
  · rw [if_neg (not_not_intro positive)] at *
    dsimp only at *
    rw [get_bind_apply] at *
    cases known : registry.hasUnit name with
    | true => rfl
    | false =>
      rw [known] at refused
      cases missing : base.keys.find? fun unit => !registry.hasUnit unit with
      | some unit => rfl
      | none =>
        rw [missing] at refused
        cases refused
  · rw [if_pos positive]
    rfl

private theorem declareType_refused (refused : (declareType definition registry).1 = .error error) :
    (declareType definition registry).2 = registry := by
  unfold declareType at *
  rw [get_bind_apply] at *
  cases checked : registry.checkType definition with
  | error reason => rfl
  | ok done =>
    rw [checked] at refused
    cases refused

/-- A refused declaration of one unit or one type changes nothing. -/
theorem after_of_refused {declaration : Declaration}
    (single : ∀ entries, declaration ≠ .file entries)
    (refused : (declaration.perform.run registry).1 = .error error) :
    registry.after declaration = registry := by
  cases declaration with
  | baseUnit name => exact declareBaseUnit_refused refused
  | unit name scale base => exact declareUnit_refused refused
  | type definition => exact declareType_refused refused
  | file entries => exact absurd rfl (single entries)

/-- In every registry that declarations lead to, refused ones and files among them, all definitions
are in order; later declarations change none of them, and one that is refused changes nothing. -/
theorem declarations_consistent (reachable : registry.Reachable) :
    registry.Consistent ∧ (∀ name, ¬Relation.TransGen registry.DefinedBy name name) ∧
      (∀ declarations : List Declaration, registry.Keeps (declarations.foldl after registry)) ∧
      ∀ declaration : Declaration, (∀ entries, declaration ≠ .file entries) →
        ∀ error, (declaration.perform.run registry).1 = .error error →
          registry.after declaration = registry := by
  refine ⟨reachable.consistent, reachable.consistent.unitsAcyclic, registry.keeps_run, ?_⟩
  intro declaration single error refused
  exact after_of_refused single refused

/-- A file whose second unit is refused leaves the first one in the registry. -/
theorem declarations_consistent_halfway :
    let entries : RegistryFile :=
      ⟨[⟨"cm", some "0.01", some "m"⟩, ⟨"dm", some "-1", some "cm"⟩], []⟩
    let registry := Registry.builtin.after (.file entries)
    registry.hasUnit "cm" = true ∧ registry.hasUnit "dm" = false ∧ registry.Consistent :=
  ⟨by decide +kernel, by decide +kernel, (declarations_consistent (.after .builtin _)).1⟩

end SheetTypes.Registry
