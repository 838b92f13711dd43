import Mathlib.Data.List.Perm.Basic
import SheetTypes.Proofs.Registry.Orders

/-!
Files of declarations. A file is declared in rounds, each of which takes the entries whose
references are declared by then. That comes to an end, and it succeeds exactly if there is any order
at all in which the entries can be declared one by one; the order makes no difference to what is
declared in the end. For an entry that is refused once its references are declared is refused in
every order, and entries that wait for each other do so in every order.
-/

set_option autoImplicit false

namespace SheetTypes

namespace RegistryFile

variable {ε : Type} {isReady : Registry → ε → Bool} {name : ε → String}
  {declare : ε → Declaring Unit} {registry later : Registry} {entries order : List ε}
  {item : ε → Item} {result : Except RegistryError Unit × Registry}

/-- What becomes of pending entries, round after round and as many as it takes. -/
inductive Ends (isReady : Registry → ε → Bool) (name : ε → String)
    (declare : ε → Declaring Unit) :
    List ε → Registry → Except RegistryError Unit × Registry → Prop where
  | done {registry : Registry} : Ends isReady name declare [] registry (.ok (), registry)
  | stuck {entries : List ε} {registry : Registry} (pending : entries ≠ [])
      (blocked : ∀ entry ∈ entries, isReady registry entry = false) :
      Ends isReady name declare entries registry
        (.error (.unresolved (entries.map name)), registry)
  | refused {entries : List ε} {registry later : Registry} {error : RegistryError}
      (failed : ((entries.filter (isReady registry)).forM declare : Declaring PUnit) registry =
        (.error error, later)) :
      Ends isReady name declare entries registry (.error error, later)
  | round {entries : List ε} {registry middle : Registry}
      {result : Except RegistryError Unit × Registry}
      (some : ∃ entry ∈ entries, isReady registry entry = true)
      (declared : ((entries.filter (isReady registry)).forM declare : Declaring PUnit) registry =
        (.ok (), middle))
      (rest : Ends isReady name declare (entries.filter fun entry => !isReady registry entry)
        middle result) :
      Ends isReady name declare entries registry result

/-- As many rounds as there are entries are enough, since every round but a refusing one declares at
least one of them. -/
theorem ends_in_rounds {rounds : Nat} (enough : entries.length ≤ rounds) :
    Ends isReady name declare entries registry
      (declareInRounds isReady name declare rounds entries registry) := by
  -- On the rounds left: every round but a stuck one takes an entry, so there are enough for the
  -- rest.
  induction rounds generalizing entries registry with
  | zero =>
    cases entries with
    | nil => exact .done
    | cons entry entries => cases enough
  | succ rounds ih =>
    cases entries with
    | nil => exact .done
    | cons entry entries =>
      rw [declareInRounds, get_bind_apply]
      simp only [List.partition_eq_filter_filter]
      split
      next none =>
        have blocked : ∀ other ∈ entry :: entries, isReady registry other = false := by
          simpa using none
        have all : (entry :: entries).filter (not ∘ isReady registry) = entry :: entries :=
          List.filter_eq_self.mpr fun other member => by simp [blocked other member]
        rw [all]
        exact .stuck (List.cons_ne_nil entry entries) blocked
      next some =>
        obtain ⟨other, member⟩ := List.exists_mem_of_ne_nil _ (mt List.isEmpty_iff.mpr some)
        obtain ⟨inside, here⟩ := List.mem_filter.mp member
        have fewer : ((entry :: entries).filter fun entry => !isReady registry entry).length <
            (entry :: entries).length :=
          List.length_filter_lt_length_iff_exists.mpr ⟨other, inside, by simp [here]⟩
        rcases run : ((entry :: entries).filter (isReady registry)).forM declare registry with
          ⟨outcome, middle⟩
        cases outcome with
        | error error =>
          rw [error_bind_apply run]
          exact .refused run
        | ok _ =>
          rw [ok_bind_apply run]
          exact .round ⟨other, inside, here⟩ run (ih (by omega))

/-- The rounds of a run that has succeeded, put together, are an order. -/
theorem Ends.exists_order (ends : Ends isReady name declare entries registry result)
    (done : result = (.ok (), later)) :
    ∃ order : List ε, order.Perm entries ∧
      (order.forM declare : Declaring PUnit) registry = (.ok (), later) := by
  induction ends with
  | done =>
    cases done
    exact ⟨[], .refl _, rfl⟩
  | stuck => cases done
  | refused => cases done
  | @round entries registry middle result some declared rest ih =>
    obtain ⟨order, same, run⟩ := ih done
    refine ⟨entries.filter (isReady registry) ++ order, ?_, ?_⟩
    · exact (same.append_left _).trans (List.filter_append_perm _ entries)
    · exact forM_append_eq_ok declared run

private theorem founded_ready
    (ready : ∀ entry ∈ entries, isReady registry entry = true →
      ∀ subject, (item entry).Needs subject → registry.Has subject) (same : order.Perm entries)
    (founded : Founded item registry.Has order) :
    Founded item registry.Has (entries.filter (isReady registry)) := by
  refine founded_of_supported ?_ ?_ ?_
  · exact fun entry member => founded.fresh entry (same.mem_iff.mpr (List.mem_filter.mp member).1)
  · intro entry member
    obtain ⟨inside, here⟩ := List.mem_filter.mp member
    exact ready entry inside here
  · have distinct := (same.map fun entry => (item entry).subject).nodup_iff.mp founded.distinct
    exact distinct.sublist (List.filter_sublist.map _)

private theorem founded_blocked {middle : Registry}
    (taken : AllTaken item (entries.filter (isReady registry)) registry middle)
    (same : order.Perm entries) (founded : Founded item registry.Has order) :
    Founded item middle.Has (order.filter fun entry => !isReady registry entry) := by
  have ready (entry : ε) (out : Option.guard (fun entry => !isReady registry entry) entry = none) :
      isReady registry entry = true := by
    simpa [Option.guard_eq_none_iff] using out
  rw [← List.filterMap_eq_filter]
  refine founded.filterMap ?_ (fun _ _ _ _ _ => trivial)
    (fun subject (_ : True) known => taken.keeps.has known) ?_ ?_
  · intro entry picked kept
    rw [(Option.guard_eq_some_iff.mp kept).1]
  · intro entry member out _
    refine (taken.has _).mpr (.inr ⟨entry, List.mem_filter.mpr ?_, rfl⟩)
    exact ⟨same.mem_iff.mp member, ready entry out⟩
  · intro entry member kept known
    rcases (taken.has _).mp known with known | ⟨other, inside, again⟩
    · exact founded.fresh entry member known
    · obtain ⟨pending, here⟩ := List.mem_filter.mp inside
      cases List.inj_on_of_nodup_map founded.distinct member (same.mem_iff.mpr pending) again
      exact kept (by simp [Option.guard_eq_none_iff, here])

/-- If there is an order, the rounds succeed. -/
theorem Ends.succeeds
    (ends : Ends isReady name (fun entry => (item entry).declare) entries registry result)
    (ready : ∀ entry ∈ entries, ∀ later, registry.Keeps later →
      (isReady later entry = true ↔ ∀ subject, (item entry).Needs subject → later.Has subject))
    (valid : ∀ entry ∈ entries, (item entry).Valid) (same : order.Perm entries)
    (founded : Founded item registry.Has order) : ∃ later, result = (.ok (), later) := by
  induction ends generalizing order with
  | done => exact ⟨_, rfl⟩
  | @stuck entries registry pending blocked =>
    cases order with
    | nil => exact absurd same.nil_eq.symm pending
    | cons first order =>
      have inside : first ∈ entries := same.mem_iff.mp List.mem_cons_self
      have here := (ready first inside registry (.refl registry)).mpr founded.2.1
      rw [blocked first inside] at here
      cases here
  | @refused entries registry later error failed =>
    have supported (entry : ε) (inside : entry ∈ entries) :=
      (ready entry inside registry (.refl registry)).mp
    have fits := founded_ready supported same founded
    obtain ⟨middle, declared⟩ := forM_succeeds.mpr
      ⟨fun entry member => valid entry (List.mem_filter.mp member).1, fits⟩
    cases failed.symm.trans declared
  | @round entries registry middle result some declared rest ih =>
    have taken := allTaken_of_forM declared
    refine ih (fun entry member later keeps => ?_)
      (fun entry member => valid entry (List.mem_filter.mp member).1) (same.filter _)
      (founded_blocked taken same founded)
    exact ready entry (List.mem_filter.mp member).1 later (taken.keeps.trans keeps)

theorem Ends.taken
    (ends : Ends isReady name (fun entry => (item entry).declare) entries registry
      (.ok (), later)) : AllTaken item entries registry later := by
  obtain ⟨order, same, run⟩ := ends.exists_order rfl
  exact (allTaken_of_forM run).perm same

end RegistryFile

def Item.unit? : Item → Option UnitEntry
  | unit entry => some entry
  | type _ => none

def Item.type? : Item → Option TaggedType
  | unit _ => none
  | type definition => some definition

inductive Entry where
  | unit (entry : UnitEntry)
  | type (entry : TypeEntry)

namespace Entry

def declare : Entry → Declaring Unit
  | unit entry => entry.declare
  | type entry => do
      let definition ← ExceptT.mk (pure entry.definition)
      Registry.declareType definition

/-- Whether an entry reads as an item; the parameters of a type have to be readable. -/
inductive Reads : Entry → Item → Prop where
  | unit (entry : UnitEntry) : Reads (.unit entry) (.unit entry)
  | type {entry : TypeEntry} {definition : TaggedType} (read : entry.definition = .ok definition) :
      Reads (.type entry) (.type definition)

theorem reads_rightUnique : Relator.RightUnique Reads := by
  intro entry item other reads again
  cases reads with
  | unit entry =>
    cases again
    rfl
  | type read =>
    cases again with
    | type readAgain =>
      cases read.symm.trans readAgain
      rfl

variable {registry later : Registry}

theorem declare_eq_ok {entry : Entry} : entry.declare registry = (.ok (), later) ↔
    ∃ item, entry.Reads item ∧ item.declare registry = (.ok (), later) := by
  cases entry with
  | unit entry =>
    constructor
    · exact fun done => ⟨.unit entry, .unit entry, done⟩
    · rintro ⟨item, reads, done⟩
      cases reads
      exact done
  | type entry =>
    refine result_bind_eq_ok.trans ⟨?_, ?_⟩
    · rintro ⟨definition, read, done⟩
      exact ⟨.type definition, .type read, done⟩
    · rintro ⟨item, reads, done⟩
      cases reads with
      | type read => exact ⟨_, read, done⟩

theorem forM_declare_eq_ok {order : List Entry} :
    (order.forM declare : Declaring PUnit) registry = (.ok (), later) ↔
      ∃ items, List.Forall₂ Reads order items ∧
        (items.forM Item.declare : Declaring PUnit) registry = (.ok (), later) := by
  induction order generalizing registry with
  | nil =>
    constructor
    · exact fun done => ⟨[], .nil, done⟩
    · rintro ⟨items, reads, done⟩
      cases reads
      exact done
  | cons entry order ih =>
    constructor
    · intro done
      obtain ⟨middle, here, rest⟩ := forM_cons_eq_ok.mp done
      obtain ⟨item, read, declared⟩ := declare_eq_ok.mp here
      obtain ⟨items, reads, others⟩ := ih.mp rest
      exact ⟨item :: items, .cons read reads, forM_cons_eq_ok.mpr ⟨middle, declared, others⟩⟩
    · rintro ⟨items, reads, done⟩
      cases reads with
      | cons read reads =>
        obtain ⟨middle, here, rest⟩ := forM_cons_eq_ok.mp done
        exact forM_cons_eq_ok.mpr
          ⟨middle, declare_eq_ok.mpr ⟨_, read, here⟩, ih.mpr ⟨_, reads, rest⟩⟩

/-- Orders of the same entries declare the same. -/
theorem alike_of_orders {order others : List Entry} {other : Registry} (same : order.Perm others)
    (done : (order.forM declare : Declaring PUnit) registry = (.ok (), later))
    (doneAgain : (others.forM declare : Declaring PUnit) registry = (.ok (), other)) :
    later.Alike other := by
  obtain ⟨items, reads, declared⟩ := forM_declare_eq_ok.mp done
  obtain ⟨otherItems, otherReads, declaredAgain⟩ := forM_declare_eq_ok.mp doneAgain
  have sameItems : items.Perm otherItems :=
    List.rel_perm_imp reads_rightUnique reads otherReads same
  have taken : AllTaken id items registry later := allTaken_of_forM declared
  have takenAgain : AllTaken id otherItems registry other := allTaken_of_forM declaredAgain
  exact (taken.perm sameItems).alike takenAgain

end Entry

namespace RegistryFile

variable {file : RegistryFile} {registry later : Registry} {definitions : List TaggedType}
  {found order : List Item} {types : List TypeEntry}

def entries (file : RegistryFile) : List Entry :=
  file.units.map .unit ++ file.types.map .type

def items (file : RegistryFile) (definitions : List TaggedType) : List Item :=
  file.units.map .unit ++ definitions.map .type

theorem filterMap_unit? (file : RegistryFile) (definitions : List TaggedType) :
    (file.items definitions).filterMap Item.unit? = file.units := by
  simp [items, Function.comp_def, Item.unit?]

theorem filterMap_type? (file : RegistryFile) (definitions : List TaggedType) :
    (file.items definitions).filterMap Item.type? = definitions := by
  simp [items, Function.comp_def, Item.type?]

theorem mapM_definition_eq_ok :
    types.mapM TypeEntry.definition = .ok definitions ↔
      List.Forall₂ (fun entry definition => entry.definition = .ok definition) types
        definitions := by
  induction types generalizing definitions with
  | nil =>
    constructor
    · intro done
      cases done
      exact .nil
    · intro reads
      cases reads
      rfl
  | cons entry types ih =>
    rw [List.mapM_cons]
    refine except_bind_eq_ok.trans ⟨?_, ?_⟩
    · rintro ⟨definition, read, done⟩
      obtain ⟨others, reads, done⟩ := except_bind_eq_ok.mp done
      cases done
      exact .cons read (ih.mp reads)
    · intro reads
      cases reads with
      | cons read reads => exact ⟨_, read, except_bind_eq_ok.mpr ⟨_, ih.mpr reads, rfl⟩⟩

theorem reads_types (reads : List.Forall₂ Entry.Reads (types.map .type) found) :
    ∃ definitions, types.mapM TypeEntry.definition = .ok definitions ∧
      found = definitions.map .type := by
  simp only [mapM_definition_eq_ok]
  induction types generalizing found with
  | nil =>
    cases reads
    exact ⟨[], .nil, rfl⟩
  | cons entry types ih =>
    cases reads with
    | cons read reads =>
      cases read with
      | type read =>
        obtain ⟨definitions, others, rfl⟩ := ih reads
        exact ⟨_ :: definitions, .cons read others, rfl⟩

theorem reads_entries : List.Forall₂ Entry.Reads file.entries found ↔
    ∃ definitions, file.types.mapM TypeEntry.definition = .ok definitions ∧
      found = file.items definitions := by
  constructor
  · unfold entries items
    generalize file.units = units
    intro reads
    induction units generalizing found with
    | nil => exact reads_types reads
    | cons entry units ih =>
      cases reads with
      | cons read reads =>
        cases read
        obtain ⟨definitions, types, rfl⟩ := ih reads
        exact ⟨definitions, types, rfl⟩
  · rintro ⟨definitions, read, rfl⟩
    refine List.rel_append ?_ ?_
    · rw [List.forall₂_map_left_iff, List.forall₂_map_right_iff, List.forall₂_same]
      exact fun entry _ => .unit entry
    · rw [List.forall₂_map_left_iff, List.forall₂_map_right_iff]
      exact (mapM_definition_eq_ok.mp read).imp fun _ _ => .type

theorem declare_eq_ok : file.declare registry = (.ok (), later) ↔
    ∃ middle definitions,
      declareInRounds unitIsReady UnitEntry.name UnitEntry.declare file.units.length file.units
          registry = (.ok (), middle) ∧
        file.types.mapM TypeEntry.definition = .ok definitions ∧
        declareInRounds typeIsReady TaggedType.name Registry.declareType definitions.length
          definitions middle = (.ok (), later) := by
  refine bind_eq_ok.trans ⟨?_, ?_⟩
  · rintro ⟨_, middle, units, done⟩
    obtain ⟨definitions, read, types⟩ := result_bind_eq_ok.mp done
    exact ⟨middle, definitions, units, read, types⟩
  · rintro ⟨middle, definitions, units, read, types⟩
    exact ⟨(), middle, units, result_bind_eq_ok.mpr ⟨definitions, read, types⟩⟩

theorem unitIsReady_iff {entry : UnitEntry} : unitIsReady registry entry = true ↔
    ∀ subject, (Item.unit entry).Needs subject → registry.Has subject := by
  unfold unitIsReady
  rw [List.all_eq_true]
  constructor
  · intro ready subject needs
    cases subject with
    | unit name => exact ready name needs
    | type name => exact needs.elim
  · exact fun supported name member => supported (.unit name) member

/-- Only the types among the references of a type are waited for. -/
theorem typeIsReady_iff {definition : TaggedType} : typeIsReady registry definition = true ↔
    ∀ name, (Item.type definition).Needs (.type name) → registry.Has (.type name) := by
  have mentions (name : String) : name ∈ definition.references ↔
      ∃ tag ∈ definition.tags, ∃ payload, tag.payload = some payload ∧
        name ∈ payload.taggedTypes := by
    unfold TaggedType.references
    rw [List.mem_flatMap]
    refine exists_congr fun tag => and_congr_right fun _ => ?_
    cases tag.payload with
    | none => simp
    | some payload => simp
  unfold typeIsReady
  simp only [List.all_eq_true, Bool.or_eq_true, beq_iff_eq, mentions]
  constructor
  · rintro ready name ⟨other, inside⟩
    exact (ready name inside).resolve_left other
  · intro supported name inside
    exact or_iff_not_imp_left.mpr fun other => supported name ⟨other, inside⟩

theorem units_end (file : RegistryFile) (registry : Registry) :
    Ends unitIsReady UnitEntry.name UnitEntry.declare file.units registry
      (declareInRounds unitIsReady UnitEntry.name UnitEntry.declare file.units.length file.units
        registry) :=
  ends_in_rounds (le_refl _)

theorem types_end (definitions : List TaggedType) (registry : Registry) :
    Ends typeIsReady TaggedType.name Registry.declareType definitions registry
      (declareInRounds typeIsReady TaggedType.name Registry.declareType definitions.length
        definitions registry) :=
  ends_in_rounds (le_refl _)

theorem order_of_declared (done : file.declare registry = (.ok (), later)) :
    ∃ order : List Entry, order.Perm file.entries ∧
      (order.forM Entry.declare : Declaring PUnit) registry = (.ok (), later) := by
  obtain ⟨middle, definitions, unitsDone, read, typesDone⟩ := declare_eq_ok.mp done
  obtain ⟨units, sameUnits, unitsRun⟩ := (file.units_end registry).exists_order unitsDone
  obtain ⟨types, sameTypes, typesRun⟩ := (types_end definitions middle).exists_order typesDone
  obtain ⟨sources, reads, sameSources⟩ :=
    List.perm_comp_forall₂ sameTypes (mapM_definition_eq_ok.mp read).flip
  refine ⟨entries ⟨units, sources⟩, ?_, ?_⟩
  · exact (sameUnits.map _).append (sameSources.map _)
  · refine Entry.forM_declare_eq_ok.mpr ⟨items ⟨units, sources⟩ types, ?_, ?_⟩
    · exact reads_entries.mpr ⟨types, mapM_definition_eq_ok.mpr reads.flip, rfl⟩
    · have unitsFirst : ((units.map .unit).forM Item.declare : Declaring PUnit) registry =
          (.ok (), middle) := (congrFun (forM_map .unit units) registry).trans unitsRun
      have typesThen : ((types.map .type).forM Item.declare : Declaring PUnit) middle =
          (.ok (), later) := (congrFun (forM_map .type types) middle).trans typesRun
      exact forM_append_eq_ok unitsFirst typesThen

theorem units_declared (same : order.Perm (file.items definitions))
    (valid : ∀ item ∈ order, item.Valid) (founded : Founded id registry.Has order) :
    ∃ middle, declareInRounds unitIsReady UnitEntry.name UnitEntry.declare file.units.length
      file.units registry = (.ok (), middle) := by
  have picked : (order.filterMap Item.unit?).Perm file.units := by
    rw [← filterMap_unit? file definitions]
    exact same.filterMap Item.unit?
  have unitsFounded : Founded .unit registry.Has (order.filterMap Item.unit?) := by
    refine founded.filterMap ?_ ?_ (fun subject (_ : ∃ name, subject = .unit name) known => known)
      ?_ (fun item member _ => founded.fresh item member)
    · intro item entry found
      cases item with
      | unit declared =>
        cases found
        rfl
      | type declared => cases found
    · intro item _ isUnit subject needs
      cases item with
      | unit declared =>
        cases subject with
        | unit name => exact ⟨name, rfl⟩
        | type name => exact needs.elim
      | type declared => exact absurd rfl isUnit
    · rintro item _ isType ⟨name, isUnit⟩
      cases item with
      | unit declared => cases isType
      | type declared => cases isUnit
  refine (file.units_end registry).succeeds ?_ ?_ picked unitsFounded
  · exact fun entry _ later _ => unitIsReady_iff
  · intro entry member
    exact valid _ (same.mem_iff.mpr (List.mem_append_left _ (List.mem_map_of_mem member)))

theorem types_declared {middle : Registry} (same : order.Perm (file.items definitions))
    (valid : ∀ item ∈ order, item.Valid) (founded : Founded id registry.Has order)
    (taken : AllTaken .unit file.units registry middle) :
    ∃ later, declareInRounds typeIsReady TaggedType.name Registry.declareType definitions.length
      definitions middle = (.ok (), later) := by
  have picked : (order.filterMap Item.type?).Perm definitions := by
    rw [← filterMap_type? file definitions]
    exact same.filterMap Item.type?
  have typesFounded : Founded .type middle.Has (order.filterMap Item.type?) := by
    refine founded.filterMap ?_ (fun _ _ _ _ _ => trivial)
      (fun subject (_ : True) known => taken.keeps.has known) ?_ ?_
    · intro item definition found
      cases item with
      | unit declared => cases found
      | type declared =>
        cases found
        rfl
    · intro item member isUnit _
      cases item with
      | unit declared =>
        have inside : declared ∈ file.units := by
          simpa [items] using same.mem_iff.mp member
        exact (taken.has _).mpr (.inr ⟨declared, inside, rfl⟩)
      | type declared => cases isUnit
    · intro item member isType known
      cases item with
      | unit declared => exact isType rfl
      | type declared =>
        rcases (taken.has _).mp known with old | ⟨entry, _, impossible⟩
        · exact founded.fresh _ member old
        · cases impossible
  refine (types_end definitions middle).succeeds ?_ ?_ picked typesFounded
  · intro definition member later keeps
    rw [typeIsReady_iff]
    constructor
    · intro ready subject needs
      cases subject with
      | unit name =>
        have inside := picked.mem_iff.mpr member
        rcases typesFounded.needs inside needs with known | ⟨_, _, impossible⟩
        · exact keeps.has known
        · cases impossible
      | type name => exact ready name needs
    · exact fun supported name needs => supported (.type name) needs
  · intro definition member
    exact valid _ (same.mem_iff.mpr (List.mem_append_right _ (List.mem_map_of_mem member)))

theorem declared_of_order {order : List Entry} (same : order.Perm file.entries)
    (done : (order.forM Entry.declare : Declaring PUnit) registry = (.ok (), later)) :
    ∃ later, file.declare registry = (.ok (), later) := by
  obtain ⟨found, reads, declared⟩ := Entry.forM_declare_eq_ok.mp done
  obtain ⟨items, readsAll, sameItems⟩ := List.perm_comp_forall₂ same.symm reads
  obtain ⟨definitions, read, rfl⟩ := reads_entries.mp readsAll
  have run : (found.forM fun item => (id item).declare : Declaring PUnit) registry =
      (.ok (), later) := declared
  obtain ⟨valid, founded⟩ := forM_succeeds.mp ⟨later, run⟩
  obtain ⟨middle, unitsDone⟩ := units_declared sameItems.symm valid founded
  have taken : AllTaken .unit file.units registry middle :=
    Ends.taken (unitsDone ▸ file.units_end registry)
  obtain ⟨after, typesDone⟩ := types_declared sameItems.symm valid founded taken
  exact ⟨after, declare_eq_ok.mpr ⟨middle, definitions, unitsDone, read, typesDone⟩⟩

/-- A file is declared exactly if there is an order in which its entries can be declared one by one,
and then the registry answers as after any such order. Hence the order in which a file lists its
entries makes no difference. Neither of the loops runs out of rounds. -/
theorem declares_iff_order (file : RegistryFile) (registry : Registry) :
    ((∃ later, file.declare registry = (.ok (), later)) ↔
      ∃ (order : List Entry) (later : Registry), order.Perm file.entries ∧
        (order.forM Entry.declare : Declaring PUnit) registry = (.ok (), later)) ∧
    (∀ later, file.declare registry = (.ok (), later) →
      ∀ (order : List Entry) (other : Registry), order.Perm file.entries →
        (order.forM Entry.declare : Declaring PUnit) registry = (.ok (), other) →
          later.Alike other) ∧
    (∀ other : RegistryFile, other.entries.Perm file.entries →
      ((∃ later, other.declare registry = (.ok (), later)) ↔
        ∃ later, file.declare registry = (.ok (), later)) ∧
      ∀ later after, file.declare registry = (.ok (), later) →
        other.declare registry = (.ok (), after) → later.Alike after) ∧
    Ends unitIsReady UnitEntry.name UnitEntry.declare file.units registry
      (declareInRounds unitIsReady UnitEntry.name UnitEntry.declare file.units.length file.units
        registry) ∧
    ∀ definitions middle,
      Ends typeIsReady TaggedType.name Registry.declareType definitions middle
        (declareInRounds typeIsReady TaggedType.name Registry.declareType definitions.length
          definitions middle) := by
  have complete (file : RegistryFile) : (∃ later, file.declare registry = (.ok (), later)) ↔
      ∃ (order : List Entry) (later : Registry), order.Perm file.entries ∧
        (order.forM Entry.declare : Declaring PUnit) registry = (.ok (), later) := by
    constructor
    · rintro ⟨later, done⟩
      obtain ⟨order, same, run⟩ := order_of_declared done
      exact ⟨order, later, same, run⟩
    · rintro ⟨order, later, same, run⟩
      exact declared_of_order same run
  refine ⟨complete file, ?_, ?_, file.units_end registry, types_end⟩
  · intro later done order other same run
    obtain ⟨own, ownSame, ownRun⟩ := order_of_declared done
    exact Entry.alike_of_orders (ownSame.trans same.symm) ownRun run
  · intro other same
    refine ⟨?_, ?_⟩
    · rw [complete other, complete file]
      simp only [(same.congr_right _)]
    · intro later after done doneAgain
      obtain ⟨order, sameOrder, run⟩ := order_of_declared done
      obtain ⟨others, sameOthers, runAgain⟩ := order_of_declared doneAgain
      exact Entry.alike_of_orders (sameOrder.trans (same.symm.trans sameOthers.symm)) run runAgain

theorem declares_iff_order_backwards :
    ∃ later, declare ⟨[⟨"hour", some "3600", some "s"⟩, ⟨"s", none, none⟩], []⟩ ⟨[], []⟩ =
      (.ok (), later) ∧ later.unit? "hour" = some (.derived 3600 (.ofKey "s")) := by
  obtain ⟨complete, alike, _⟩ :=
    declares_iff_order ⟨[⟨"hour", some "3600", some "s"⟩, ⟨"s", none, none⟩], []⟩ ⟨[], []⟩
  have run : ([.unit ⟨"s", none, none⟩, .unit ⟨"hour", some "3600", some "s"⟩].forM
      Entry.declare : Declaring PUnit) ⟨[], []⟩ =
        (.ok (), ⟨[("s", .base), ("hour", .derived 3600 (.ofKey "s"))], []⟩) := rfl
  obtain ⟨later, done⟩ := complete.mpr ⟨_, _, .swap _ _ [], run⟩
  exact ⟨later, done, (alike later done _ _ (.swap _ _ []) run "hour").1⟩

end RegistryFile

end SheetTypes
