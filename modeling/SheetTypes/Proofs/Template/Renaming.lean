import Mathlib.Data.List.Nodup
import Mathlib.Data.Set.Function
import SheetTypes.Proofs.Exponents
import SheetTypes.Proofs.Substitution
import SheetTypes.Template.Instantiation

/-!
Renaming the variables of types and units. A renaming that keeps apart the variables of a unit moves
every exponent to the new variable, so renamings compose. The records of a type can be put in order,
before or after a renaming.
-/

set_option autoImplicit false

namespace SheetTypes

namespace PowerProduct

variable {κ ι ξ : Type} [Ord κ] {product : PowerProduct κ} {onKey : κ → ι}

private theorem renamed_nodup [Std.LawfulEqOrd κ]
    (distinct : Set.InjOn onKey {key | key ∈ product.keys}) :
    ((product.toList.map fun power => (onKey power.1, power.2)).map Prod.fst).Nodup := by
  have keys : (product.toList.map fun power => (onKey power.1, power.2)).map Prod.fst =
      product.keys.map onKey := by
    rw [← toList_keys, List.map_map, List.map_map]
    rfl
  rw [keys, ← toList_keys]
  refine product.toList_nodup.map_on fun key member other otherMember same => ?_
  rw [toList_keys] at member otherMember
  exact distinct member otherMember same

variable [Ord ι] [Std.TransOrd ι]

def rename (onKey : κ → ι) (product : PowerProduct κ) : PowerProduct ι :=
  ofList (product.toList.map fun power => (onKey power.1, power.2))

theorem rename_congr {other : κ → ι} (same : ∀ key ∈ product.keys, onKey key = other key) :
    product.rename onKey = product.rename other := by
  unfold rename
  congr 1
  refine List.map_congr_left fun power member => ?_
  rw [same power.1 (mem_keys_of_toList member)]

variable [Std.LawfulEqOrd κ] [Std.LawfulEqOrd ι] {query : ι}

theorem exponent_rename (distinct : Set.InjOn onKey {key | key ∈ product.keys}) {key : κ}
    (member : key ∈ product.keys) :
    (product.rename onKey).exponent (onKey key) = product.exponent key := by
  have own : (key, product.exponent key) ∈ product.toList :=
    mem_toList.mpr ⟨rfl, mem_keys.mp member⟩
  obtain ⟨present, _⟩ := exponent_ofList (renamed_nodup distinct) (onKey key)
  have moved := present _ (List.mem_map.mpr ⟨_, own, rfl⟩)
  rwa [clampToLimit_exponent] at moved

theorem exponent_rename_of_absent (distinct : Set.InjOn onKey {key | key ∈ product.keys})
    (absent : ∀ key ∈ product.keys, onKey key ≠ query) :
    (product.rename onKey).exponent query = 0 := by
  obtain ⟨_, missing⟩ := exponent_ofList (renamed_nodup distinct) query
  refine missing fun member => ?_
  obtain ⟨_, inside, rfl⟩ := List.mem_map.mp member
  obtain ⟨power, own, rfl⟩ := List.mem_map.mp inside
  exact absent power.1 (mem_keys_of_toList own) rfl

theorem mem_keys_rename (distinct : Set.InjOn onKey {key | key ∈ product.keys}) :
    query ∈ (product.rename onKey).keys ↔ ∃ key ∈ product.keys, onKey key = query := by
  rw [mem_keys]
  constructor
  · intro nonzero
    by_contra none
    push Not at none
    exact nonzero (exponent_rename_of_absent distinct none)
  · rintro ⟨key, member, rfl⟩
    rw [exponent_rename distinct member]
    exact mem_keys.mp member

theorem rename_rename [Ord ξ] [Std.TransOrd ξ] [Std.LawfulEqOrd ξ] {onKey' : ι → ξ}
    (distinct : Set.InjOn onKey {key | key ∈ product.keys})
    (further : Set.InjOn (onKey' ∘ onKey) {key | key ∈ product.keys}) :
    (product.rename onKey).rename onKey' = product.rename (onKey' ∘ onKey) := by
  have next : Set.InjOn onKey' {key | key ∈ (product.rename onKey).keys} := by
    rintro _ first _ second same
    obtain ⟨key, member, rfl⟩ := (mem_keys_rename distinct).mp first
    obtain ⟨other, otherMember, rfl⟩ := (mem_keys_rename distinct).mp second
    rw [further member otherMember same]
  apply ext_exponent
  intro query
  by_cases known : ∃ key ∈ product.keys, onKey' (onKey key) = query
  · obtain ⟨key, member, rfl⟩ := known
    rw [exponent_rename next ((mem_keys_rename distinct).mpr ⟨key, member, rfl⟩),
      exponent_rename distinct member]
    exact (exponent_rename further member).symm
  · push Not at known
    rw [exponent_rename_of_absent further known]
    refine exponent_rename_of_absent next fun key member => ?_
    obtain ⟨before, own, rfl⟩ := (mem_keys_rename distinct).mp member
    exact known before own

end PowerProduct

namespace TypeTerm

variable {ν μ υ ω : Type}

mutual

def ordered : TypeTerm ν υ → TypeTerm ν υ
  | .var name => .var name
  | .number unit => .number unit
  | .text => .text
  | .boolean => .boolean
  | .date kind => .date kind
  | .tuple items => .tuple (orderedItems items)
  | .array item => .array (ordered item)
  | .function params result => .function (orderedItems params) (ordered result)
  | .record fields => .record (orderedFields [] fields)
  | .tagged name operands => .tagged name (orderedOperands operands)

def orderedItems : List (TypeTerm ν υ) → List (TypeTerm ν υ)
  | [] => []
  | item :: items => ordered item :: orderedItems items

def orderedFields : List (String × TypeTerm ν υ) → List (String × TypeTerm ν υ) →
    List (String × TypeTerm ν υ)
  | done, [] => done
  | done, (name, type) :: fields => orderedFields (insertField done name (ordered type)) fields

def orderedOperands : List (Operand (TypeTerm ν υ) υ) → List (Operand (TypeTerm ν υ) υ)
  | [] => []
  | .type value :: operands => .type (ordered value) :: orderedOperands operands
  | .unit value :: operands => .unit value :: orderedOperands operands

end

section Fields

variable {τ σ : Type}

theorem of_mem_insertField {fields : List (String × τ)} {name : String} {type : τ}
    {field : String × τ} (member : field ∈ insertField fields name type) :
    field = (name, type) ∨ field ∈ fields := by
  unfold insertField at member
  induction fields with
  | nil => exact .inl (List.mem_singleton.mp member)
  | cons first fields ih =>
    rw [OrderedMap.alterEntry] at member
    cases order : compare name first.1 with
    | lt =>
      rw [order] at member
      exact List.mem_cons.mp member
    | eq =>
      rw [order, ← Std.compare_eq_iff_eq.mp order] at member
      exact (List.mem_cons.mp member).imp_right (List.mem_cons_of_mem _)
    | gt =>
      rw [order] at member
      rcases List.mem_cons.mp member with here | later
      · exact .inr (here ▸ List.mem_cons_self)
      · exact (ih later).imp_right (List.mem_cons_of_mem _)

theorem map_insertField (change : τ → σ) (fields : List (String × τ)) (name : String) (type : τ) :
    (insertField fields name type).map (fun field => (field.1, change field.2)) =
      insertField (fields.map fun field => (field.1, change field.2)) name (change type) := by
  unfold insertField
  induction fields with
  | nil => rfl
  | cons first fields ih =>
    rw [List.map_cons, OrderedMap.alterEntry, OrderedMap.alterEntry]
    cases compare name first.1 with
    | lt => rfl
    | eq => rfl
    | gt => exact congrArg (List.cons _) ih

end Fields

theorem orderedItems_eq (items : List (TypeTerm ν υ)) : orderedItems items = items.map ordered := by
  induction items with
  | nil => rfl
  | cons item items ih => rw [orderedItems, ih, List.map_cons]

theorem orderedOperands_eq (operands : List (Operand (TypeTerm ν υ) υ)) :
    orderedOperands operands = operands.map (Operand.map ordered id) := by
  induction operands with
  | nil => rfl
  | cons operand operands ih =>
    cases operand with
    | type value => rw [orderedOperands, ih, List.map_cons, Operand.map]
    | unit value => rw [orderedOperands, ih, List.map_cons, Operand.map, id]

theorem of_mem_orderedFields {done fields : List (String × TypeTerm ν υ)}
    {field : String × TypeTerm ν υ} (member : field ∈ orderedFields done fields) :
    field ∈ done ∨ ∃ before ∈ fields, before.2.ordered = field.2 := by
  induction fields generalizing done with
  | nil => exact .inl member
  | cons first fields ih =>
    rcases ih member with put | ⟨before, later, same⟩
    · rcases of_mem_insertField put with rfl | old
      · exact .inr ⟨first, List.mem_cons_self, rfl⟩
      · exact .inl old
    · exact .inr ⟨before, List.mem_cons_of_mem _ later, same⟩

/-- A type that is neither a variable nor a record is put in order part by part. -/
theorem ordered_eq {type : TypeTerm ν υ} (plain : type.isPlain = true) :
    type.ordered = type.rebuild (type.parts.map (Operand.map ordered id)) := by
  cases type with
  | var name => cases plain
  | record fields => cases plain
  | _ => simp [ordered, parts, rebuild, orderedItems_eq, orderedOperands_eq, Operand.map,
      Function.comp_def]

theorem isVar_ordered {type : TypeTerm ν υ} (compound : type.isVar = false) :
    type.ordered.isVar = false := by
  cases type with
  | var name => cases compound
  | _ => rfl

theorem parts_ordered {type : TypeTerm ν υ} (plain : type.isPlain = true) :
    type.ordered.parts = type.parts.map (Operand.map ordered id) ∧
      ∀ {κ ξ : Type} (others : List (Operand (TypeTerm κ ξ) ξ)),
        type.ordered.rebuild others = type.rebuild others := by
  rw [ordered_eq plain]
  exact (parts_rebuild (compound_of_plain plain) (by rw [List.map_map, Operand.isType_map])).2

theorem mem_parts_ordered {type : TypeTerm ν υ} {operand : Operand (TypeTerm ν υ) υ}
    (member : operand ∈ type.ordered.parts) : ∃ source ∈ type.parts,
      source.map ordered id = operand := by
  induction type using induction_plain with
  | var name => cases member
  | record fields _ =>
    obtain ⟨field, inside, rfl⟩ := List.mem_map.mp member
    obtain ⟨before, own, same⟩ := (of_mem_orderedFields inside).resolve_left List.not_mem_nil
    exact ⟨.type before.2, List.mem_map.mpr ⟨before, own, rfl⟩, congrArg Operand.type same⟩
  | plain type plain _ =>
    rw [(parts_ordered plain).1] at member
    exact List.mem_map.mp member

/-- Ordering the fields of records brings in no leaf. -/
theorem mem_leaves_of_ordered {type : TypeTerm ν υ} {leaf : ν ⊕ υ}
    (member : leaf ∈ type.ordered.leaves) : leaf ∈ type.leaves := by
  induction type using induction_children with
  | step type ih =>
    rcases type.var_or_compound with ⟨name, rfl⟩ | compound
    · exact member
    rw [leaves_eq (isVar_ordered compound)] at member
    rw [leaves_eq compound, mem_operandsLeaves]
    rcases mem_operandsLeaves.mp member with ⟨value, inside, found⟩ | ⟨unit, inside, rfl⟩
    · obtain ⟨source | source, own, same⟩ := mem_parts_ordered inside
      · cases same
        exact .inl ⟨source, own, ih source (mem_children.mpr own) found⟩
      · cases same
    · obtain ⟨source | source, own, same⟩ := mem_parts_ordered inside
      · cases same
      · cases same
        exact .inr ⟨source, own, rfl⟩

theorem substitute_ordered_eq {type : TypeTerm ν υ} (plain : type.isPlain = true)
    (onVar : ν → TypeTerm μ ω) (onUnit : υ → ω) :
    type.ordered.substitute onVar onUnit = type.rebuild (type.parts.map
      (Operand.map (fun child => child.ordered.substitute onVar onUnit) onUnit)) := by
  obtain ⟨own, again⟩ := parts_ordered plain
  rw [substitute_eq _ _ (isVar_ordered (compound_of_plain plain)), own, again, List.map_map,
    Operand.map_comp_map]
  rfl

section Renaming

variable {onVar : ν → μ} {onUnit : υ → ω}

private theorem orderedFields_substitute {done fields : List (String × TypeTerm ν υ)}
    (each : ∀ field ∈ fields,
      field.2.ordered.substitute (fun name => .var (onVar name)) onUnit =
        (field.2.substitute (fun name => .var (onVar name)) onUnit).ordered) :
    (orderedFields done fields).map
        (fun field => (field.1, field.2.substitute (fun name => .var (onVar name)) onUnit)) =
      orderedFields
        (done.map fun field => (field.1, field.2.substitute (fun name => .var (onVar name)) onUnit))
        (fields.map fun field =>
          (field.1, field.2.substitute (fun name => .var (onVar name)) onUnit)) := by
  induction fields generalizing done with
  | nil => rfl
  | cons field fields ih =>
    obtain ⟨here, others⟩ := List.forall_mem_cons.mp each
    rw [orderedFields, ih others, map_insertField, here, List.map_cons, orderedFields]

/-- Fields may be put in order before or after variables are replaced by variables. -/
theorem substitute_ordered (onVar : ν → μ) (onUnit : υ → ω) (type : TypeTerm ν υ) :
    type.ordered.substitute (fun name => .var (onVar name)) onUnit =
      (type.substitute (fun name => .var (onVar name)) onUnit).ordered := by
  induction type using induction_plain with
  | var name => rfl
  | record fields ih =>
    rw [ordered, substitute_record, substitute_record, ordered, orderedFields_substitute ih]
    rfl
  | plain type plain ih =>
    have compound := compound_of_plain plain
    rw [substitute_ordered_eq plain, ordered_eq (isPlain_substitute plain),
      rebuild_substitute compound, parts_substitute _ _ compound, List.map_map,
      Operand.map_comp_map]
    exact congrArg type.rebuild (map_parts_congr ih fun _ _ => rfl)

end Renaming

end TypeTerm

section Rename

variable {ν μ κ ι : Type} [Ord κ] [Ord ι] [Std.TransOrd ι] {onVar onVar' : ν → μ}
  {onUnitVar onUnitVar' : κ → ι}

def UnitTerm.rename (onVar : κ → ι) (unit : UnitTerm κ) : UnitTerm ι :=
  ⟨unit.names, unit.vars.rename onVar⟩

def TypeTerm.rename (onVar : ν → μ) (onUnitVar : κ → ι) (type : TypeTerm ν (UnitTerm κ)) :
    TypeTerm μ (UnitTerm ι) :=
  type.substitute (fun name => .var (onVar name)) (UnitTerm.rename onUnitVar)

theorem UnitTerm.rename_congr {unit : UnitTerm κ}
    (same : ∀ var ∈ unit.vars.keys, onUnitVar var = onUnitVar' var) :
    unit.rename onUnitVar = unit.rename onUnitVar' := by
  unfold rename
  rw [PowerProduct.rename_congr same]

namespace TypeTerm

variable {type : TypeTerm ν (UnitTerm κ)}

theorem rename_congr (types : ∀ name, type.HasVar name → onVar name = onVar' name)
    (units : ∀ unit, type.HasUnit unit → ∀ var ∈ unit.vars.keys, onUnitVar var = onUnitVar' var) :
    type.rename onVar onUnitVar = type.rename onVar' onUnitVar' := by
  refine type.substitute_congr (fun name has => ?_) fun unit has => ?_
  · rw [types name has]
  · exact UnitTerm.rename_congr (units unit has)

theorem hasVar_rename {var : μ} :
    (type.rename onVar onUnitVar).HasVar var ↔ ∃ name, type.HasVar name ∧ onVar name = var := by
  unfold rename
  simp only [hasVar_substitute, hasVar_var, eq_comm]

theorem hasUnit_rename {unit : UnitTerm ι} :
    (type.rename onVar onUnitVar).HasUnit unit ↔
      ∃ before, type.HasUnit before ∧ before.rename onUnitVar = unit := by
  unfold rename
  rw [hasUnit_substitute]
  simp [HasUnit, leaves]

theorem rename_rename [Std.LawfulEqOrd κ] [Std.LawfulEqOrd ι] {σ ξ : Type} [Ord ξ]
    [Std.TransOrd ξ] [Std.LawfulEqOrd ξ] {further : μ → σ} {furtherUnits : ι → ξ}
    (distinct : ∀ unit, type.HasUnit unit → Set.InjOn onUnitVar {var | var ∈ unit.vars.keys})
    (distinctAfter : ∀ unit, type.HasUnit unit →
      Set.InjOn (furtherUnits ∘ onUnitVar) {var | var ∈ unit.vars.keys}) :
    (type.rename onVar onUnitVar).rename further furtherUnits =
      type.rename (further ∘ onVar) (furtherUnits ∘ onUnitVar) := by
  unfold rename
  rw [substitute_substitute]
  refine type.substitute_congr (fun name _ => rfl) fun unit has => ?_
  exact congrArg (UnitTerm.mk unit.names)
    (PowerProduct.rename_rename (distinct unit has) (distinctAfter unit has))

end TypeTerm

end Rename

end SheetTypes
