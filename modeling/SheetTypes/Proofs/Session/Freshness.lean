import SheetTypes.Proofs.Session.Frames
import SheetTypes.Proofs.Template.Mentions
import SheetTypes.Proofs.Template.Renaming

/-!
Instances of templates are renamings. The names of a template are numbered in the order in which
they are first mentioned, and with no name bound before, instantiating replaces each of them by the
variable of that number after those that exist. It fails only where a record names a field twice.
-/

set_option autoImplicit false

namespace SheetTypes

open Store

def Mention.typeVar? : Mention → Option String
  | .typeVar name => some name
  | _ => none

def Mention.unitVar? : Mention → Option String
  | .unitVar name => some name
  | _ => none

def extendNames (known names : List String) : List String :=
  names.foldl (fun known name => if name ∈ known then known else known ++ [name]) known

section Names

variable {known names : List String} {name : String}

theorem mem_extendNames : name ∈ extendNames known names ↔ name ∈ known ∨ name ∈ names := by
  unfold extendNames
  induction names generalizing known with
  | nil => simp
  | cons first names ih =>
    rw [List.foldl_cons, ih]
    split
    next old => grind
    next new => grind

theorem prefix_extendNames (known names : List String) : known <+: extendNames known names := by
  unfold extendNames
  induction names generalizing known with
  | nil => exact List.prefix_rfl
  | cons first names ih =>
    rw [List.foldl_cons]
    refine List.IsPrefix.trans ?_ (ih _)
    split
    next => exact List.prefix_rfl
    next => exact List.prefix_append known [first]

theorem extendNames_nodup (distinct : known.Nodup) : (extendNames known names).Nodup := by
  unfold extendNames
  induction names generalizing known with
  | nil => exact distinct
  | cons first names ih =>
    rw [List.foldl_cons]
    apply ih
    split
    next => exact distinct
    next new => exact List.nodup_append.mpr ⟨distinct, List.nodup_singleton first, by grind⟩

theorem idxOf_extendNames (old : name ∈ known) (names : List String) :
    (extendNames known names).idxOf name = known.idxOf name := by
  obtain ⟨added, extended⟩ := prefix_extendNames known names
  rw [← extended, List.idxOf_append_of_mem old]

theorem extendNames_of_mem (old : name ∈ known) : extendNames known [name] = known := if_pos old

theorem extendNames_of_new (new : name ∉ known) : extendNames known [name] = known ++ [name] :=
  if_neg new

end Names

structure Naming where
  types : List String
  units : List String

structure Renaming where
  types : String → TypeVar
  units : String → UnitVar

namespace Naming

def extend (naming : Naming) (mentions : List Mention) : Naming :=
  ⟨extendNames naming.types (mentions.filterMap Mention.typeVar?),
    extendNames naming.units (mentions.filterMap Mention.unitVar?)⟩

def vars (naming : Naming) (start : Store) : Renaming :=
  ⟨fun name => ⟨start.types.size + naming.types.idxOf name⟩,
    fun name => ⟨start.units.size + naming.units.idxOf name⟩⟩

theorem extend_append (naming : Naming) (mentions others : List Mention) :
    naming.extend (mentions ++ others) = (naming.extend mentions).extend others := by
  unfold extend extendNames
  simp only [List.filterMap_append, List.foldl_append]

end Naming

structure Renaming.AgreesOn (mentions : List Mention) (first second : Renaming) : Prop where
  types : ∀ name ∈ mentions.filterMap Mention.typeVar?, first.types name = second.types name
  units : ∀ name ∈ mentions.filterMap Mention.unitVar?, first.units name = second.units name

theorem Naming.extend_agrees (naming : Naming) (start : Store) (mentions others : List Mention) :
    ((naming.extend mentions).vars start).AgreesOn mentions
      (((naming.extend mentions).extend others).vars start) := by
  refine ⟨fun name mentioned => ?_, fun name mentioned => ?_⟩
  · exact congrArg (fun index => TypeVar.mk (start.types.size + index))
      (idxOf_extendNames (mem_extendNames.mpr (.inr mentioned)) _).symm
  · exact congrArg (fun index => UnitVar.mk (start.units.size + index))
      (idxOf_extendNames (mem_extendNames.mpr (.inr mentioned)) _).symm

/-- Whether names are bound to what their numbers stand for, where numbers go on from an array of
cells, which is followed by one blank cell for each name. -/
structure Counted {α β : Type} (value : Nat → α) (blank : β) (start : Array β) (names : List String)
    (entries : List (String × α)) (cells : Array β) : Prop where
  distinct : names.Nodup
  bound : ∀ name, entries.lookup name =
    if name ∈ names then some (value (start.size + names.idxOf name)) else none
  cells : cells = start ++ Array.replicate names.length blank

namespace Counted

variable {α β : Type} {value : Nat → α} {blank : β} {start cells : Array β} {names : List String}
  {entries : List (String × α)} {name : String}

theorem empty : Counted value blank start [] [] start where
  distinct := List.nodup_nil
  bound _ := rfl
  cells := Array.append_empty.symm

theorem next (counted : Counted value blank start names entries cells) (new : name ∉ names) :
    cells.size = start.size + (extendNames names [name]).idxOf name := by
  rw [counted.cells, Array.size_append, Array.size_replicate, extendNames_of_new new,
    List.idxOf_append_of_notMem new, List.idxOf_cons_self, Nat.add_zero]

theorem put (counted : Counted value blank start names entries cells) (new : name ∉ names) :
    Counted value blank start (extendNames names [name])
      ((name, value cells.size) :: entries.filter fun entry => entry.1 != name)
      (cells.push blank) where
  distinct := extendNames_nodup counted.distinct
  bound query := by
    have extended : query ∈ extendNames names [name] ↔ query ∈ names ∨ query = name := by
      rw [mem_extendNames, List.mem_singleton]
    rw [lookup_put, counted.bound]
    by_cases same : query = name
    · rw [if_pos same, if_pos (extended.mpr (.inr same)), same, counted.next new]
    · rw [if_neg same]
      by_cases old : query ∈ names
      · rw [if_pos old, if_pos (extended.mpr (.inl old)), idxOf_extendNames old]
      · rw [if_neg old, if_neg fun found => (extended.mp found).elim old same]
  cells := by
    rw [counted.cells, extendNames_of_new new, List.length_append, List.length_singleton,
      Array.replicate_succ, Array.append_push]

end Counted

structure Numbered (start : Store) (naming : Naming) (bindings : Bindings) (store : Store) :
    Prop where
  types : Counted (fun index => (.var ⟨index⟩ : InferredType)) (.unbound .none) start.types
    naming.types bindings.types store.types
  units : Counted (fun index => (.ofVar ⟨index⟩ : InferredUnit)) .unbound start.units naming.units
    bindings.units store.units

theorem numbered_start (store : Store) : Numbered store ⟨[], []⟩ .empty store := ⟨.empty, .empty⟩

/-- What an instantiating action does, whatever names have variables: it gives variables to the
names that it mentions, and succeeds on a condition with what the variables of these make. -/
structure Mints {α : Type} (start : Store) (action : Instantiating α) (mentions : List Mention)
    (good : Prop) (made : Renaming → α) : Prop where
  stable : ∀ ⦃first second : Renaming⦄, first.AgreesOn mentions second → made first = made second
  succeeds : ∀ ⦃naming bindings store⦄, Numbered start naming bindings store → good →
    ∃ later after, (action bindings : StateM Store _) store =
        ((.ok (made ((naming.extend mentions).vars start)), later), after) ∧
      Numbered start (naming.extend mentions) later after
  fails : ∀ ⦃naming bindings store⦄, Numbered start naming bindings store → ¬good →
    ∃ error later after, (action bindings : StateM Store _) store = ((.error error, later), after)

namespace Mints

variable {α β : Type} {start : Store} {action : Instantiating α} {mentions others : List Mention}
  {good goodAfter : Prop} {made : Renaming → α}

theorem ok (start : Store) (value : α) : Mints start (pure value) [] True fun _ => value where
  stable _ _ _ := rfl
  succeeds _ bindings store numbered _ := ⟨bindings, store, rfl, numbered⟩
  fails _ _ _ _ bad := absurd trivial bad

theorem throw (stable : ∀ ⦃first second : Renaming⦄, first.AgreesOn mentions second →
      made first = made second) (error : TypeError) :
    Mints start (throw error) mentions False made where
  stable := stable
  succeeds _ _ _ _ impossible := impossible.elim
  fails _ bindings store _ _ := ⟨error, bindings, store, rfl⟩

theorem congr (mints : Mints start action mentions good made) {madeAfter : Renaming → α}
    (iff : goodAfter ↔ good) (same : ∀ chosen, madeAfter chosen = made chosen) :
    Mints start action mentions goodAfter madeAfter := by
  rw [propext iff, funext same]
  exact mints

/-- Only the variables among the names mentioned matter. -/
theorem of_names (mints : Mints start action mentions good made)
    (types : others.filterMap Mention.typeVar? = mentions.filterMap Mention.typeVar?)
    (units : others.filterMap Mention.unitVar? = mentions.filterMap Mention.unitVar?) :
    Mints start action others good made := by
  have extended (naming : Naming) : naming.extend others = naming.extend mentions := by
    rw [Naming.extend, types, units, Naming.extend]
  refine ⟨fun first second agrees => mints.stable ⟨?_, ?_⟩, ?_, mints.fails⟩
  · rw [← types]
    exact agrees.types
  · rw [← units]
    exact agrees.units
  · intro naming bindings store numbered holds
    rw [extended]
    exact mints.succeeds numbered holds

theorem andThen {next : α → Instantiating β} {last : α → Renaming → β}
    (first : Mints start action mentions good made)
    (rest : ∀ value, Mints start (next value) others goodAfter (last value)) :
    Mints start (action >>= next) (mentions ++ others) (good ∧ goodAfter)
      fun chosen => last (made chosen) chosen := by
  refine ⟨fun one other agrees => ?_, ?_, ?_⟩
  · have sameFirst := first.stable ⟨fun name mentioned => agrees.types name (by simp [mentioned]),
      fun name mentioned => agrees.units name (by simp [mentioned])⟩
    have sameLast := (rest (made other)).stable
      ⟨fun name mentioned => agrees.types name (by simp [mentioned]),
        fun name mentioned => agrees.units name (by simp [mentioned])⟩
    rw [sameFirst, sameLast]
  · rintro naming bindings store numbered ⟨holds, holdsAfter⟩
    obtain ⟨between, middle, ran, numberedBetween⟩ := first.succeeds numbered holds
    obtain ⟨later, after, ranLast, numberedLater⟩ :=
      (rest _).succeeds numberedBetween holdsAfter
    rw [Naming.extend_append, ← first.stable (naming.extend_agrees start mentions others),
      instantiating_bind_apply, ran]
    exact ⟨later, after, ranLast, numberedLater⟩
  · intro naming bindings store numbered bad
    rw [instantiating_bind_apply]
    by_cases holds : good
    · obtain ⟨between, middle, ran, numberedBetween⟩ := first.succeeds numbered holds
      rw [ran]
      exact (rest _).fails numberedBetween fun holdsAfter => bad ⟨holds, holdsAfter⟩
    · obtain ⟨error, later, after, ran⟩ := first.fails numbered holds
      rw [ran]
      exact ⟨error, later, after, rfl⟩

theorem map (mints : Mints start action mentions good made) (change : α → β) :
    Mints start (action >>= fun value => pure (change value)) mentions good
      fun chosen => change (made chosen) := by
  have both := mints.andThen fun value => ok start (change value)
  rw [List.append_nil, and_true] at both
  exact both

end Mints

namespace Template

theorem instantiateTypeVar_mints (start : Store) (name : String) :
    Mints start (instantiateTypeVar name) [.typeVar name] True
      fun chosen => .var (chosen.types name) := by
  refine ⟨fun first second agrees => ?_, ?_, fun _ _ _ _ bad => absurd trivial bad⟩
  · rw [agrees.types name (List.mem_singleton_self name)]
  · rintro naming bindings store numbered -
    have bound := numbered.types.bound name
    by_cases old : name ∈ naming.types
    · have same : naming.extend [.typeVar name] = naming :=
        congrArg (Naming.mk · naming.units) (extendNames_of_mem old)
      rw [if_pos old] at bound
      rw [same]
      exact ⟨bindings, store, instantiateTypeVar_of_bound bound store, numbered⟩
    · rw [if_neg old] at bound
      have next : (⟨store.types.size⟩ : TypeVar) =
          ((naming.extend [.typeVar name]).vars start).types name :=
        congrArg TypeVar.mk (numbered.types.next old)
      rw [← next]
      exact ⟨_, _, instantiateTypeVar_of_unbound bound store, numbered.types.put old,
        numbered.units⟩

theorem instantiateUnitVar_mints (start : Store) (name : String) :
    Mints start (instantiateUnitVar name) [.unitVar name] True
      fun chosen => .ofVar (chosen.units name) := by
  refine ⟨fun first second agrees => ?_, ?_, fun _ _ _ _ bad => absurd trivial bad⟩
  · rw [agrees.units name (List.mem_singleton_self name)]
  · rintro naming bindings store numbered -
    have bound := numbered.units.bound name
    by_cases old : name ∈ naming.units
    · have same : naming.extend [.unitVar name] = naming :=
        congrArg (Naming.mk naming.types) (extendNames_of_mem old)
      rw [if_pos old] at bound
      rw [same]
      exact ⟨bindings, store, instantiateUnitVar_of_bound bound store, numbered⟩
    · rw [if_neg old] at bound
      have next : (⟨store.units.size⟩ : UnitVar) =
          ((naming.extend [.unitVar name]).vars start).units name :=
        congrArg UnitVar.mk (numbered.units.next old)
      rw [← next]
      exact ⟨_, _, instantiateUnitVar_of_unbound bound store, numbered.types,
        numbered.units.put old⟩

private theorem multiplyPower_mints (start : Store) (product unit : InferredUnit) (number : Int) :
    Mints start (liftM (multiplyPower product unit number)) [] True
      fun _ => product.multiply (unit.raise number) where
  stable _ _ _ := rfl
  succeeds _ bindings store numbered _ :=
    ⟨bindings, (multiplyPower product unit number store).2, rfl, numbered.types, numbered.units⟩
  fails _ _ _ _ bad := absurd trivial bad

private theorem instantiatePowers_mints (start : Store) {powers : List (String × Int)}
    (within : ∀ power ∈ powers, WithinLimit power.2) (product : InferredUnit) :
    Mints start (instantiatePowers product powers) (powers.map fun power => .unitVar power.1) True
      fun chosen => ⟨product.names, powers.foldl
        (fun vars power => vars.add (chosen.units power.1) power.2) product.vars⟩ := by
  induction powers generalizing product with
  | nil => exact .ok start product
  | cons power powers ih =>
    obtain ⟨here, others⟩ := List.forall_mem_cons.mp within
    have both := (instantiateUnitVar_mints start power.1).andThen fun unit =>
      (multiplyPower_mints start product unit power.2).andThen fun grown => ih others grown
    simp only [UnitTerm.multiply_ofVar_raise product _ here, and_true] at both
    exact both

theorem instantiateUnit_mints (start : Store) (unit : UnitTemplate) :
    Mints start (instantiateUnit unit) (UnitTemplate.mentions unit) True
      fun chosen => unit.rename chosen.units := by
  have within : ∀ power ∈ unit.vars.toList, WithinLimit power.2 := by
    rintro ⟨name, number⟩ member
    obtain ⟨rfl, -⟩ := PowerProduct.mem_toList.mp member
    exact unit.vars.exponent_within name
  have mints := instantiatePowers_mints start within (.ofGround unit.names)
  have same (chosen : Renaming) : unit.rename chosen.units = ⟨unit.names, unit.vars.toList.foldl
      (fun vars power => vars.add (chosen.units power.1) power.2) .one⟩ := by
    rw [UnitTerm.rename, PowerProduct.rename, PowerProduct.ofList_eq, List.foldl_map]
  simp only [same]
  refine mints.of_names ?_ ?_
  · simp [UnitTemplate.mentions, List.filterMap_map, Function.comp_def, Mention.typeVar?]
  · simp [UnitTemplate.mentions, List.filterMap_map, Function.comp_def, Mention.unitVar?,
      ← PowerProduct.toList_keys]

end Template

/-! ### Templates -/

def TypeTerm.NamesFieldsOnce {ν υ : Type} : TypeTerm ν υ → Prop
  | .record fields => (fields.map Prod.fst).Nodup
  | _ => True

namespace Template

open TypeTerm

/-- The template with variables for its names, and its records in order. -/
def renamed (template : Template) (chosen : Renaming) : InferredType :=
  (template.rename chosen.types chosen.units).ordered

private def Renames (start : Store) (label : String) (template : Template) : Prop :=
  ∀ node, Mints start (instantiateNode label node template) template.mentions
    (template.Everywhere NamesFieldsOnce) template.renamed

variable {start : Store} {label : String}

private theorem instantiateOperands_mints {operands : List (Operand Template UnitTemplate)}
    (each : ∀ value, .type value ∈ operands → Renames start label value) (node : Nat) :
    Mints start (instantiateOperands label node operands) (operandsMentions operands)
      (∀ value, .type value ∈ operands → value.Everywhere NamesFieldsOnce)
      fun chosen => orderedOperands (operands.map (Operand.map
        (TypeTerm.rename chosen.types chosen.units) (UnitTerm.rename chosen.units))) := by
  induction operands generalizing node with
  | nil => exact (Mints.ok start []).congr (by simp) fun _ => rfl
  | cons operand operands ih =>
    have rest (node : Nat) :=
      ih (fun value member => each value (List.mem_cons_of_mem _ member)) node
    cases operand with
    | type value =>
      rw [instantiateOperands]
      refine (((each value List.mem_cons_self) node).andThen fun made =>
        (rest _).map (.type made :: ·)).congr ?_ fun _ => rfl
      simp
    | unit value =>
      rw [instantiateOperands]
      refine ((instantiateUnit_mints start value).andThen fun made =>
        (rest _).map (.unit made :: ·)).congr ?_ fun _ => rfl
      simp

private theorem instantiateFields_mints {fields : List (String × Template)}
    (each : ∀ field ∈ fields, Renames start label field.2) (record node : Nat)
    (done : List (String × InferredType)) :
    Mints start (instantiateFields label record node done fields) (fieldsMentions fields)
      ((∀ field ∈ fields, field.2.Everywhere NamesFieldsOnce) ∧ (fields.map Prod.fst).Nodup ∧
        ∀ field ∈ fields, done.lookup field.1 = none)
      fun chosen => orderedFields done (fields.map fun field =>
        (field.1, field.2.rename chosen.types chosen.units)) := by
  induction fields generalizing node done with
  | nil => exact (Mints.ok start done).congr (by simp) fun _ => rfl
  | cons field fields ih =>
    obtain ⟨name, type⟩ := field
    obtain ⟨here, others⟩ := List.forall_mem_cons.mp each
    have rest (made : InferredType) :
        Mints start (if (done.lookup name).isSome then throw (duplicateField label record name)
            else instantiateFields label record (node + type.nodeCount)
              (insertField done name made) fields)
          (fieldsMentions fields)
          (done.lookup name = none ∧ (∀ field ∈ fields, field.2.Everywhere NamesFieldsOnce) ∧
            (fields.map Prod.fst).Nodup ∧
              ∀ field ∈ fields, field.1 ≠ name ∧ done.lookup field.1 = none)
          fun chosen => orderedFields (insertField done name made) (fields.map fun field =>
            (field.1, field.2.rename chosen.types chosen.units)) := by
      have mints := ih others (node + type.nodeCount) (insertField done name made)
      cases known : done.lookup name with
      | some earlier => exact (Mints.throw mints.stable _).congr (by simp) fun _ => rfl
      | none =>
        refine mints.congr ?_ fun _ => rfl
        simp only [lookup_insertField made known, true_and]
    rw [instantiateFields]
    refine ((here node).andThen rest).congr ?_ fun _ => rfl
    simp only [List.forall_mem_cons, List.map_cons, List.nodup_cons, List.mem_map]
    grind

private theorem instantiateNode_mints (start : Store) (label : String) (template : Template) :
    Renames start label template := by
  induction template using induction_plain with
  | var name =>
    intro node
    refine (instantiateTypeVar_mints start name).congr ?_ fun _ => rfl
    exact everywhere_iff.trans (by simp [NamesFieldsOnce, TypeTerm.children])
  | record fields ih =>
    intro node
    rw [instantiateNode]
    refine ((instantiateFields_mints ih node (node + 1) []).map TypeTerm.record).congr ?_
      fun chosen => ?_
    · refine everywhere_iff.trans ?_
      simp only [NamesFieldsOnce, TypeTerm.children, List.forall_mem_map, List.lookup_nil]
      grind
    · rw [renamed, TypeTerm.rename, substitute_record, ordered]
      rfl
  | plain template plain ih =>
    intro node
    have compound := compound_of_plain plain
    have once : template.NamesFieldsOnce := by
      cases template with
      | record fields => cases plain
      | _ => trivial
    have names (select : Mention → Option String)
        (untagged : ∀ name, select (.taggedType name) = none) :
        (mentions template).filterMap select =
          (operandsMentions template.parts).filterMap select := by
      rw [mentions_eq compound, List.filterMap_append]
      cases template <;> simp [tagMentions, untagged]
    rw [instantiateNode_eq plain]
    refine (((instantiateOperands_mints (fun value member => ih value (mem_children.mpr member))
      (node + 1)).map template.rebuild).congr ?_ fun chosen => ?_).of_names
      (names Mention.typeVar? fun _ => rfl) (names Mention.unitVar? fun _ => rfl)
    · refine everywhere_iff.trans ((and_iff_right once).trans ?_)
      simp only [mem_children]
    · rw [renamed, TypeTerm.rename, ordered_eq (isPlain_substitute plain),
        rebuild_substitute compound, parts_substitute _ _ compound, orderedOperands_eq]
      rfl

/-! ### Instances -/

/-- Whether instantiating a template, with no name bound before, gives a type and leaves a store. -/
def InstantiatesTo (template : Template) (label : String) (before : Store) (type : InferredType)
    (after : Store) : Prop :=
  ∃ bindings, (template.instantiate label .empty : StateM Store _) before =
    ((.ok type, bindings), after)

end Template

/-- Whether the names of a template have variables that are new, one for each, and no other variable
has been created. -/
structure Renaming.FreshFor (chosen : Renaming) (template : Template) (before after : Store) :
    Prop where
  typesInjective : Set.InjOn chosen.types {name | name ∈ template.typeVars}
  unitsInjective : Set.InjOn chosen.units {name | name ∈ template.unitVars}
  typesNew : ∀ name ∈ template.typeVars, before.types.size ≤ (chosen.types name).index ∧
    (chosen.types name).index < after.types.size
  unitsNew : ∀ name ∈ template.unitVars, before.units.size ≤ (chosen.units name).index ∧
    (chosen.units name).index < after.units.size
  typeCells : after.types =
    before.types ++ Array.replicate template.typeVars.length (.unbound .none)
  unitCells : after.units = before.units ++ Array.replicate template.unitVars.length .unbound

section Distinct

variable {α β : Type} {value : Nat → α} {blank : β} {start cells : Array β} {names : List String}
  {entries : List (String × α)}

theorem Counted.cells_eq
    (counted : Counted value blank start (extendNames [] names) entries cells) :
    cells = start ++ Array.replicate (orderedNames names).length blank := by
  have distinct : (orderedNames names).Nodup := OrderedMap.keys_nodup _
  have same : (extendNames [] names).Perm (orderedNames names) := by
    refine (List.perm_ext_iff_of_nodup counted.distinct distinct).mpr fun name => ?_
    rw [mem_extendNames, mem_orderedNames]
    simp
  rw [counted.cells, same.length_eq]

theorem Counted.bounds
    (counted : Counted value blank start (extendNames [] names) entries cells) {name : String}
    (member : name ∈ orderedNames names) :
    start.size ≤ start.size + (extendNames [] names).idxOf name ∧
      start.size + (extendNames [] names).idxOf name < cells.size := by
  have known : name ∈ extendNames [] names :=
    mem_extendNames.mpr (.inr (mem_orderedNames.mp member))
  have position := List.idxOf_lt_length_iff.mpr known
  rw [counted.cells, Array.size_append, Array.size_replicate]
  omega

theorem idxOf_injOn (start : Nat) (names : List String) :
    Set.InjOn (fun name => start + (extendNames [] names).idxOf name)
      {name | name ∈ orderedNames names} := by
  intro first member second _ same
  have known : first ∈ extendNames [] names :=
    mem_extendNames.mpr (.inr (mem_orderedNames.mp member))
  exact (List.idxOf_inj known).mp (Nat.add_left_cancel same)

end Distinct

namespace Template

open TypeTerm

variable {template : Template} {label : String} {before after : Store} {type : InferredType}

theorem exists_instantiatesTo_iff :
    (∃ type after, template.InstantiatesTo label before type after) ↔
      template.Everywhere NamesFieldsOnce := by
  have mints := instantiateNode_mints before label template 0
  constructor
  · rintro ⟨type, after, bindings, ran⟩
    by_contra bad
    obtain ⟨error, later, last, failed⟩ := mints.fails (numbered_start before) bad
    cases failed.symm.trans ran
  · intro good
    obtain ⟨later, after, ran, _⟩ := mints.succeeds (numbered_start before) good
    exact ⟨_, after, later, ran⟩

theorem InstantiatesTo.renamed (instantiates : template.InstantiatesTo label before type after) :
    ∃ chosen : Renaming, chosen.FreshFor template before after ∧
      type = template.renamed chosen := by
  have mints := instantiateNode_mints before label template 0
  have good := exists_instantiatesTo_iff.mp ⟨type, after, instantiates⟩
  obtain ⟨later, last, ran, numbered⟩ := mints.succeeds (numbered_start before) good
  obtain ⟨bindings, result⟩ := instantiates
  cases ran.symm.trans result
  refine ⟨_, ⟨?_, ?_, ?_, ?_, numbered.types.cells_eq, numbered.units.cells_eq⟩, rfl⟩
  · intro first member second other same
    exact idxOf_injOn before.types.size _ member other (congrArg TypeVar.index same)
  · intro first member second other same
    exact idxOf_injOn before.units.size _ member other (congrArg UnitVar.index same)
  · exact fun name member => numbered.types.bounds member
  · exact fun name member => numbered.units.bounds member

theorem hasVar_of_renamed {chosen : Renaming} {var : TypeVar}
    (has : (template.renamed chosen).HasVar var) :
    ∃ name ∈ template.typeVars, chosen.types name = var := by
  obtain ⟨name, own, same⟩ := hasVar_rename.mp (mem_leaves_of_ordered has)
  exact ⟨name, mem_typeVars.mpr own, same⟩

section Injective

variable {chosen : Renaming}
  (unitsInjective : Set.InjOn chosen.units {name | name ∈ template.unitVars})

include unitsInjective

private theorem injOn_keys {unit : UnitTemplate} (has : template.HasUnit unit) :
    Set.InjOn chosen.units {name | name ∈ unit.vars.keys} :=
  unitsInjective.mono fun _ member => mem_unitVars.mpr ⟨unit, has, member⟩

theorem hasUnitVar_of_renamed {var : UnitVar} (has : (template.renamed chosen).HasUnitVar var) :
    ∃ name ∈ template.unitVars, chosen.units name = var := by
  obtain ⟨unit, inside, member⟩ := has
  obtain ⟨before, own, rfl⟩ := hasUnit_rename.mp (mem_leaves_of_ordered inside)
  obtain ⟨name, key, same⟩ :=
    (PowerProduct.mem_keys_rename (injOn_keys unitsInjective own)).mp member
  exact ⟨name, mem_unitVars.mpr ⟨before, own, key⟩, same⟩

/-- Renaming an instance renames the template at once. -/
theorem rename_renamed {onTypes : TypeVar → TypeVar} {onUnits : UnitVar → UnitVar}
    {other : Renaming} (otherInjective : Set.InjOn other.units {name | name ∈ template.unitVars})
    (types : ∀ name ∈ template.typeVars, onTypes (chosen.types name) = other.types name)
    (units : ∀ name ∈ template.unitVars, onUnits (chosen.units name) = other.units name) :
    (template.renamed chosen).rename onTypes onUnits = template.renamed other := by
  have composed (unit : UnitTemplate) (has : template.HasUnit unit) :
      Set.InjOn (onUnits ∘ chosen.units) {name | name ∈ unit.vars.keys} :=
    (injOn_keys otherInjective has).congr fun name member =>
      (units name (mem_unitVars.mpr ⟨unit, has, member⟩)).symm
  calc (template.renamed chosen).rename onTypes onUnits
      = ((template.rename chosen.types chosen.units).rename onTypes onUnits).ordered :=
        substitute_ordered onTypes _ _
    _ = (template.rename (onTypes ∘ chosen.types) (onUnits ∘ chosen.units)).ordered := by
        rw [rename_rename (fun _ has => injOn_keys unitsInjective has) composed]
    _ = template.renamed other := by
        refine congrArg ordered (rename_congr (fun name has => ?_) fun unit has name member => ?_)
        · exact types name (mem_typeVars.mpr has)
        · exact units name (mem_unitVars.mpr ⟨unit, has, member⟩)

end Injective

end Template

namespace InferredType

open TypeTerm

/-- Whether a type becomes another when its variables are renamed, different variables to different
ones. -/
def Variant (first second : InferredType) : Prop :=
  ∃ (onTypes : TypeVar → TypeVar) (onUnits : UnitVar → UnitVar),
    Set.BijOn onTypes {var | first.HasVar var} {var | second.HasVar var} ∧
      Set.BijOn onUnits {var | first.HasUnitVar var} {var | second.HasUnitVar var} ∧
      second = first.rename onTypes onUnits

theorem variant_rename {type : InferredType} {onTypes : TypeVar → TypeVar}
    {onUnits : UnitVar → UnitVar} (types : Set.InjOn onTypes {var | type.HasVar var})
    (units : Set.InjOn onUnits {var | type.HasUnitVar var}) :
    type.Variant (type.rename onTypes onUnits) := by
  have keys {unit : InferredUnit} (has : type.HasUnit unit) :
      Set.InjOn onUnits {var | var ∈ unit.vars.keys} :=
    units.mono fun var (member : var ∈ unit.vars.keys) =>
      (⟨unit, has, member⟩ : type.HasUnitVar var)
  refine ⟨onTypes, onUnits, ⟨?_, types, ?_⟩, ⟨?_, units, ?_⟩, rfl⟩
  · exact fun var has => hasVar_rename.mpr ⟨var, has, rfl⟩
  · exact fun var has => hasVar_rename.mp has
  · rintro var ⟨unit, has, member⟩
    exact ⟨_, hasUnit_rename.mpr ⟨unit, has, rfl⟩,
      (PowerProduct.mem_keys_rename (keys has)).mpr ⟨var, member, rfl⟩⟩
  · rintro var ⟨_, has, member⟩
    obtain ⟨unit, own, rfl⟩ := hasUnit_rename.mp has
    obtain ⟨before, key, same⟩ := (PowerProduct.mem_keys_rename (keys own)).mp member
    exact ⟨before, ⟨unit, own, key⟩, same⟩

end InferredType

namespace Renaming.FreshFor

open Template

variable {template : Template} {chosen other : Renaming} {before after later last : Store}

theorem apart (fresh : chosen.FreshFor template before after)
    (freshLater : other.FreshFor template later last) (types : after.types.size ≤ later.types.size)
    (units : after.units.size ≤ later.units.size) :
    (template.renamed chosen).Apart (template.renamed other) := by
  constructor
  · intro var has hasLater
    obtain ⟨name, member, rfl⟩ := hasVar_of_renamed has
    obtain ⟨again, laterMember, same⟩ := hasVar_of_renamed hasLater
    have old := (fresh.typesNew name member).2
    have new := (freshLater.typesNew again laterMember).1
    rw [same] at new
    omega
  · intro var has hasLater
    obtain ⟨name, member, rfl⟩ := hasUnitVar_of_renamed fresh.unitsInjective has
    obtain ⟨again, laterMember, same⟩ := hasUnitVar_of_renamed freshLater.unitsInjective hasLater
    have old := (fresh.unitsNew name member).2
    have new := (freshLater.unitsNew again laterMember).1
    rw [same] at new
    omega

theorem variant (fresh : chosen.FreshFor template before after)
    (freshLater : other.FreshFor template later last) :
    (template.renamed chosen).Variant (template.renamed other) := by
  let onTypes := other.types ∘ Function.invFunOn chosen.types {name | name ∈ template.typeVars}
  let onUnits := other.units ∘ Function.invFunOn chosen.units {name | name ∈ template.unitVars}
  have types (name : String) (member : name ∈ template.typeVars) :
      onTypes (chosen.types name) = other.types name :=
    congrArg other.types (fresh.typesInjective.leftInvOn_invFunOn member)
  have units (name : String) (member : name ∈ template.unitVars) :
      onUnits (chosen.units name) = other.units name :=
    congrArg other.units (fresh.unitsInjective.leftInvOn_invFunOn member)
  rw [← rename_renamed fresh.unitsInjective freshLater.unitsInjective types units]
  apply InferredType.variant_rename
  · intro var has next hasNext same
    obtain ⟨name, member, rfl⟩ := hasVar_of_renamed has
    obtain ⟨again, againMember, rfl⟩ := hasVar_of_renamed hasNext
    rw [types name member, types again againMember] at same
    rw [freshLater.typesInjective member againMember same]
  · intro var has next hasNext same
    obtain ⟨name, member, rfl⟩ := hasUnitVar_of_renamed fresh.unitsInjective has
    obtain ⟨again, againMember, rfl⟩ := hasUnitVar_of_renamed fresh.unitsInjective hasNext
    rw [units name member, units again againMember] at same
    rw [freshLater.unitsInjective member againMember same]

end Renaming.FreshFor

namespace Template

open TypeTerm

/-- Instantiating a template with no name bound succeeds exactly if its records name no field twice,
and gives the template with new variables for its names. Whatever happens in between, a second
instance has no variable in common with the first and differs from it in its variables only. -/
theorem instantiation_renames (template : Template) (label : String) (before : Store) :
    ((∃ type after, template.InstantiatesTo label before type after) ↔
      template.Everywhere NamesFieldsOnce) ∧
    ∀ type after, template.InstantiatesTo label before type after →
      (∃ chosen : Renaming, chosen.FreshFor template before after ∧
        type = template.renamed chosen) ∧
      ∀ again later next last, after.types.size ≤ later.types.size →
        after.units.size ≤ later.units.size → template.InstantiatesTo again later next last →
          type.Apart next ∧ type.Variant next := by
  refine ⟨exists_instantiatesTo_iff, fun type after instantiates =>
    ⟨instantiates.renamed, fun again later next last types units instantiatesLater => ?_⟩⟩
  obtain ⟨chosen, fresh, rfl⟩ := instantiates.renamed
  obtain ⟨other, freshLater, rfl⟩ := instantiatesLater.renamed
  exact ⟨fresh.apart freshLater types units, fresh.variant freshLater⟩

/-- Two instances of a function, in a store that has a type variable already. -/
theorem instantiation_renames_function :
    let template : Template :=
      .function [.var "a", .number ⟨.ofKey "m", (PowerProduct.ofKey "w").add "u" (-2)⟩]
        (.record [("y", .var "b"), ("x", .var "a")])
    let start : Store := ⟨#[.unbound .none], #[], true⟩
    let first : InferredType :=
      .function [.var ⟨1⟩, .number ⟨.ofKey "m", (PowerProduct.ofKey ⟨1⟩).add ⟨0⟩ (-2)⟩]
        (.record [("x", .var ⟨1⟩), ("y", .var ⟨2⟩)])
    let second : InferredType :=
      .function [.var ⟨3⟩, .number ⟨.ofKey "m", (PowerProduct.ofKey ⟨3⟩).add ⟨2⟩ (-2)⟩]
        (.record [("x", .var ⟨3⟩), ("y", .var ⟨4⟩)])
    ∃ middle last, template.InstantiatesTo "f" start first middle ∧
      template.InstantiatesTo "f" middle second last ∧ first.Apart second ∧
      first.Variant second := by
  intro template start first second
  have ran : template.InstantiatesTo "f" start first
      ⟨#[.unbound .none, .unbound .none, .unbound .none], #[.unbound, .unbound], true⟩ := ⟨_, rfl⟩
  have ranAgain : template.InstantiatesTo "f"
      ⟨#[.unbound .none, .unbound .none, .unbound .none], #[.unbound, .unbound], true⟩ second
      ⟨#[.unbound .none, .unbound .none, .unbound .none, .unbound .none, .unbound .none],
        #[.unbound, .unbound, .unbound, .unbound], true⟩ := ⟨_, rfl⟩
  refine ⟨_, _, ran, ranAgain, ?_⟩
  exact ((instantiation_renames template "f" start).2 first _ ran).2 "f" _ second _ le_rfl le_rfl
    ranAgain

end Template

end SheetTypes
