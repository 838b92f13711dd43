import Mathlib.Logic.Function.Basic
import SheetTypes.TypeTerm.Traversal

/-!
Substitution in types, without effects. A type that is no variable is built from parts, which are
types and units, and what is computed from left to right is computed from the parts. A type is
determined by its shape and its leaves, which are its variables and its units; substitution replaces
the leaves and keeps the shape.
-/

set_option autoImplicit false

namespace SheetTypes

def Operand.map {τ υ τ' υ' : Type} (onType : τ → τ') (onUnit : υ → υ') :
    Operand τ υ → Operand τ' υ'
  | .type value => .type (onType value)
  | .unit value => .unit (onUnit value)

theorem Operand.map_comp_map {τ υ τ' υ' τ'' υ'' : Type} (onType : τ → τ') (onUnit : υ → υ')
    (further : τ' → τ'') (furtherUnit : υ' → υ'') :
    Operand.map further furtherUnit ∘ Operand.map onType onUnit =
      Operand.map (fun value => further (onType value)) fun unit => furtherUnit (onUnit unit) := by
  funext operand
  cases operand <;> rfl

theorem Operand.map_id {τ υ : Type} : Operand.map (fun value : τ => value) (id : υ → υ) = id := by
  funext operand
  cases operand <;> rfl

def Operand.isType {τ υ : Type} : Operand τ υ → Bool
  | .type _ => true
  | .unit _ => false

@[simp]
theorem Operand.isType_map {τ υ τ' υ' : Type} (onType : τ → τ') (onUnit : υ → υ') :
    Operand.isType ∘ Operand.map onType onUnit = Operand.isType := by
  funext operand
  cases operand <;> rfl

namespace TypeTerm

variable {ν υ μ ω κ ξ : Type} {bound : Nat} {child type value : TypeTerm ν υ}
  {fields : List (String × TypeTerm ν υ)} {items : List (TypeTerm ν υ)} {leaf : ν ⊕ υ}
  {motive : TypeTerm ν υ → Prop} {name : ν} {onUnit : υ → ω} {onVar : ν → TypeTerm μ ω}
  {operands : List (Operand (TypeTerm ν υ) υ)}

theorem var_or_compound (type : TypeTerm ν υ) :
    (∃ name, type = .var name) ∨ type.isVar = false := by
  cases type with
  | var name => exact .inl ⟨name, rfl⟩
  | _ => exact .inr rfl

theorem ne_var (compound : type.isVar = false) (name : ν) : type ≠ .var name := by
  rintro rfl
  cases compound

/-- The types and units that a type is built from, from left to right. -/
def parts : TypeTerm ν υ → List (Operand (TypeTerm ν υ) υ)
  | .var _ | .text | .boolean | .date _ => []
  | .number unit => [.unit unit]
  | .tuple items => items.map .type
  | .array item => [.type item]
  | .function params result => params.map .type ++ [.type result]
  | .record fields => fields.map fun field => .type field.2
  | .tagged _ operands => operands

/-- A type that is no variable, with other parts in the places of its own. -/
def rebuild : TypeTerm ν υ → List (Operand (TypeTerm μ ω) ω) → TypeTerm μ ω
  | .number _, parts =>
      match parts with
      | [.unit unit] => .number unit
      | _ => .text
  | .var _, _ | .text, _ => .text
  | .boolean, _ => .boolean
  | .date kind, _ => .date kind
  | .tuple _, parts => .tuple (operandTypes parts)
  | .array _, parts => .array ((operandTypes parts).headD .text)
  | .function _ _, parts =>
      .function (operandTypes parts).dropLast ((operandTypes parts).getLastD .text)
  | .record fields, parts => .record ((fields.map Prod.fst).zip (operandTypes parts))
  | .tagged name _, parts => .tagged name parts

@[simp]
theorem operandTypes_items (items : List (TypeTerm ν υ)) :
    operandTypes (items.map .type) = items := by
  rw [operandTypes, List.filterMap_map]
  exact List.filterMap_some

@[simp]
theorem operandTypes_map {α : Type} (list : List α) (types : α → TypeTerm ν υ) :
    operandTypes (list.map fun value => .type (types value)) = list.map types := by
  rw [operandTypes, List.filterMap_map]
  exact congrFun List.filterMap_eq_map list

@[simp]
theorem operandTypes_append (front back : List (Operand (TypeTerm ν υ) υ)) :
    operandTypes (front ++ back) = operandTypes front ++ operandTypes back :=
  List.filterMap_append

@[simp]
theorem operandTypes_nil : operandTypes ([] : List (Operand (TypeTerm ν υ) υ)) = [] := rfl

@[simp]
theorem operandTypes_type :
    operandTypes (.type value :: operands) = value :: operandTypes operands := rfl

theorem mem_operandTypes : value ∈ operandTypes operands ↔ .type value ∈ operands := by
  unfold operandTypes
  rw [List.mem_filterMap]
  constructor
  · rintro ⟨operand, member, same⟩
    cases operand with
    | type other =>
      cases same
      exact member
    | unit other => cases same
  · intro member
    exact ⟨_, member, rfl⟩

theorem children_eq (type : TypeTerm ν υ) : type.children = operandTypes type.parts := by
  cases type with
  | number unit => rfl
  | _ => simp [children, parts]

theorem mem_children : child ∈ type.children ↔ .type child ∈ type.parts := by
  rw [children_eq, mem_operandTypes]

theorem map_parts_congr {τ τ' : Type} {onType onType' : TypeTerm ν υ → τ} {onUnit onUnit' : υ → τ'}
    (types : ∀ child ∈ type.children, onType child = onType' child)
    (units : ∀ unit, .unit unit ∈ type.parts → onUnit unit = onUnit' unit) :
    type.parts.map (Operand.map onType onUnit) = type.parts.map (Operand.map onType' onUnit') := by
  refine List.map_congr_left fun operand member => ?_
  cases operand with
  | type value => exact congrArg Operand.type (types value (mem_children.mpr member))
  | unit unit => exact congrArg Operand.unit (units unit member)

theorem rebuild_parts (compound : type.isVar = false) : type.rebuild type.parts = type := by
  cases type with
  | var name => cases compound
  | record fields => simp [rebuild, parts, List.zip_map']
  | _ => simp [rebuild, parts]

/-- What is built from as many parts of the same kinds has these parts. -/
theorem parts_rebuild {made : List (Operand (TypeTerm μ ω) ω)} (compound : type.isVar = false)
    (same : made.map Operand.isType = type.parts.map Operand.isType) :
    (type.rebuild made).isVar = false ∧ (type.rebuild made).parts = made ∧
      ∀ {κ ξ : Type} (others : List (Operand (TypeTerm κ ξ) ξ)),
        (type.rebuild made).rebuild others = type.rebuild others := by
  have typed (made : List (Operand (TypeTerm μ ω) ω)) (count : Nat)
      (same : made.map Operand.isType = List.replicate count true) :
      ∃ types : List (TypeTerm μ ω), made = types.map .type ∧ types.length = count := by
    refine ⟨operandTypes made, ?_⟩
    induction made generalizing count with
    | nil => cases count <;> simp_all
    | cons operand made ih =>
      cases count with
      | zero => cases same
      | succ count =>
        obtain ⟨here, others⟩ := List.cons.inj same
        obtain ⟨all, enough⟩ := ih count others
        cases operand with
        | type value => exact ⟨congrArg (.type value :: ·) all, congrArg (· + 1) enough⟩
        | unit unit => cases here
  cases type with
  | var name => cases compound
  | tagged name operands => exact ⟨rfl, rfl, fun _ => rfl⟩
  | tuple items =>
    obtain ⟨types, rfl, _⟩ := typed made items.length
      (by simpa [parts, Function.comp_def, Operand.isType, List.map_const'] using same)
    simp [rebuild, parts, isVar, asVar?]
  | function params result =>
    obtain ⟨types, rfl, enough⟩ := typed made (params.length + 1)
      (by simpa [parts, Function.comp_def, Operand.isType, List.map_const', List.replicate_succ']
        using same)
    rcases List.eq_nil_or_concat types with rfl | ⟨front, last, rfl⟩
    · cases enough
    · simp [rebuild, parts, isVar, asVar?]
  | record fields =>
    obtain ⟨types, rfl, enough⟩ := typed made fields.length
      (by simpa [parts, Function.comp_def, Operand.isType, List.map_const'] using same)
    have second : ((fields.map Prod.fst).zip types).map Prod.snd = types :=
      List.map_snd_zip (by simp [enough])
    refine ⟨rfl, ?_, fun others => by simp [rebuild, List.map_fst_zip, enough]⟩
    rw [rebuild, operandTypes_items]
    exact List.map_map.symm.trans (congrArg (List.map Operand.type) second)
  | number unit =>
    obtain ⟨operand, rfl, own⟩ := List.map_eq_singleton_iff.mp same
    cases operand with
    | unit value => exact ⟨rfl, rfl, fun _ => rfl⟩
    | type value => cases own
  | array item =>
    obtain ⟨types, rfl, enough⟩ := typed made 1 same
    obtain ⟨type, rfl⟩ := List.length_eq_one_iff.mp enough
    exact ⟨rfl, rfl, fun _ => rfl⟩
  | _ =>
    cases List.map_eq_nil_iff.mp same
    exact ⟨rfl, rfl, fun _ => rfl⟩

theorem operandsDepth_append (front back : List (Operand (TypeTerm ν υ) υ)) :
    operandsDepth (front ++ back) = max (operandsDepth front) (operandsDepth back) := by
  induction front with
  | nil => simp [operandsDepth]
  | cons operand front ih => cases operand <;> simp [operandsDepth, ih, Nat.max_assoc]

theorem depth_eq (type : TypeTerm ν υ) : type.depth = 1 + operandsDepth type.parts := by
  have ofItems (items : List (TypeTerm ν υ)) :
      operandsDepth (items.map .type) = itemsDepth items := by
    induction items <;> simp_all [operandsDepth, itemsDepth]
  have ofFields (fields : List (String × TypeTerm ν υ)) :
      operandsDepth (fields.map fun field => .type field.2) = fieldsDepth fields := by
    induction fields <;> simp_all [operandsDepth, fieldsDepth]
  cases type <;> simp [depth, parts, operandsDepth, operandsDepth_append, ofItems, ofFields]

theorem depth_pos (type : TypeTerm ν υ) : 0 < type.depth := by
  rw [depth_eq]
  omega

private theorem operandsDepth_le :
    operandsDepth operands ≤ bound ↔ ∀ value, .type value ∈ operands → value.depth ≤ bound := by
  induction operands with
  | nil => simp [operandsDepth]
  | cons operand operands ih =>
    cases operand with
    | type value =>
      rw [operandsDepth, Nat.max_le, ih]
      simp [or_imp, forall_and]
    | unit value => simp [operandsDepth, ih]

theorem depth_le_iff : type.depth ≤ bound + 1 ↔ ∀ child ∈ type.children, child.depth ≤ bound := by
  rw [depth_eq, Nat.add_comm, Nat.add_le_add_iff_right, operandsDepth_le]
  simp only [mem_children]

theorem depth_lt_of_child (member : child ∈ type.children) : child.depth < type.depth := by
  have positive := type.depth_pos
  have below := depth_le_iff.mp (Nat.le_of_eq (Nat.sub_add_cancel positive).symm) child member
  omega

/-- Induction over types with one case, whose hypothesis is about the children. -/
theorem induction_children (step : ∀ type, (∀ child ∈ type.children, motive child) → motive type)
    (type : TypeTerm ν υ) : motive type := by
  induction deep : type.depth using Nat.strongRecOn generalizing type with
  | ind depth ih =>
    refine step type fun child member => ih child.depth ?_ child rfl
    rw [← deep]
    exact depth_lt_of_child member

/-- Induction over types, with a hypothesis for every part of a list of parts. -/
@[elab_as_elim, induction_eliminator]
theorem induction (var : ∀ name, motive (.var name)) (number : ∀ unit, motive (.number unit))
    (text : motive .text) (boolean : motive .boolean) (date : ∀ kind, motive (.date kind))
    (tuple : ∀ items, (∀ item ∈ items, motive item) → motive (.tuple items))
    (array : ∀ item, motive item → motive (.array item))
    (function : ∀ params result, (∀ param ∈ params, motive param) → motive result →
      motive (.function params result))
    (record : ∀ fields, (∀ field ∈ fields, motive field.2) → motive (.record fields))
    (tagged : ∀ name operands, (∀ value, .type value ∈ operands → motive value) →
      motive (.tagged name operands)) (type : TypeTerm ν υ) : motive type := by
  induction type using induction_children with
  | step type ih =>
    cases type with
    | var name => exact var name
    | number unit => exact number unit
    | text => exact text
    | boolean => exact boolean
    | date kind => exact date kind
    | tuple items => exact tuple items ih
    | array item => exact array item (ih item (List.mem_singleton_self _))
    | function params result =>
      exact function params result (fun param member => ih param (List.mem_append_left _ member))
        (ih result (List.mem_append_right _ (List.mem_singleton_self _)))
    | record fields =>
      exact record fields fun field member => ih field.2 (List.mem_map_of_mem member)
    | tagged name operands =>
      exact tagged name operands fun value member => ih value (mem_operandTypes.mpr member)

def isPlain : TypeTerm ν υ → Bool
  | .var _ | .record _ => false
  | _ => true

theorem compound_of_plain (plain : type.isPlain = true) : type.isVar = false := by
  cases type with
  | var name => cases plain
  | _ => rfl

/-- Induction over types with a case for records, and one for all other types with parts. -/
theorem induction_plain (var : ∀ name, motive (.var name))
    (record : ∀ fields, (∀ field ∈ fields, motive field.2) → motive (.record fields))
    (plain : ∀ type, type.isPlain = true → (∀ child ∈ type.children, motive child) → motive type)
    (type : TypeTerm ν υ) : motive type := by
  induction type using induction_children with
  | step type ih =>
    cases type with
    | var name => exact var name
    | record fields => exact record fields fun field member => ih _ (List.mem_map_of_mem member)
    | _ => exact plain _ rfl ih

/-! ### Leaves -/

mutual

def leaves : TypeTerm ν υ → List (ν ⊕ υ)
  | .var name => [.inl name]
  | .number unit => [.inr unit]
  | .text | .boolean | .date _ => []
  | .tuple items => itemsLeaves items
  | .array item => leaves item
  | .function params result => itemsLeaves params ++ leaves result
  | .record fields => fieldsLeaves fields
  | .tagged _ operands => operandsLeaves operands

def itemsLeaves : List (TypeTerm ν υ) → List (ν ⊕ υ)
  | [] => []
  | item :: items => leaves item ++ itemsLeaves items

def fieldsLeaves : List (String × TypeTerm ν υ) → List (ν ⊕ υ)
  | [] => []
  | (_, type) :: fields => leaves type ++ fieldsLeaves fields

def operandsLeaves : List (Operand (TypeTerm ν υ) υ) → List (ν ⊕ υ)
  | [] => []
  | .type value :: operands => leaves value ++ operandsLeaves operands
  | .unit value :: operands => .inr value :: operandsLeaves operands

end

def HasVar (type : TypeTerm ν υ) (name : ν) : Prop := .inl name ∈ type.leaves

def HasUnit (type : TypeTerm ν υ) (unit : υ) : Prop := .inr unit ∈ type.leaves

theorem operandsLeaves_append (front back : List (Operand (TypeTerm ν υ) υ)) :
    operandsLeaves (front ++ back) = operandsLeaves front ++ operandsLeaves back := by
  induction front with
  | nil => rfl
  | cons operand front ih => cases operand <;> simp [operandsLeaves, ih]

theorem leaves_eq (compound : type.isVar = false) : type.leaves = operandsLeaves type.parts := by
  have ofItems (items : List (TypeTerm ν υ)) :
      operandsLeaves (items.map .type) = itemsLeaves items := by
    induction items <;> simp_all [operandsLeaves, itemsLeaves]
  have ofFields (fields : List (String × TypeTerm ν υ)) :
      operandsLeaves (fields.map fun field => .type field.2) = fieldsLeaves fields := by
    induction fields <;> simp_all [operandsLeaves, fieldsLeaves]
  cases type with
  | var name => cases compound
  | _ => simp [leaves, parts, operandsLeaves, operandsLeaves_append, ofItems, ofFields]

@[simp]
theorem mem_itemsLeaves : leaf ∈ itemsLeaves items ↔ ∃ item ∈ items, leaf ∈ item.leaves := by
  induction items with
  | nil => simp [itemsLeaves]
  | cons item items ih => simp [itemsLeaves, ih]

@[simp]
theorem mem_fieldsLeaves :
    leaf ∈ fieldsLeaves fields ↔ ∃ field ∈ fields, leaf ∈ field.2.leaves := by
  induction fields with
  | nil => simp [fieldsLeaves]
  | cons field fields ih =>
    obtain ⟨name, type⟩ := field
    simp only [fieldsLeaves, List.mem_append, ih, List.mem_cons, or_and_right, exists_or,
      exists_eq_left]

@[simp]
theorem mem_operandsLeaves :
    leaf ∈ operandsLeaves operands ↔
      (∃ value, .type value ∈ operands ∧ leaf ∈ value.leaves) ∨
        ∃ unit, .unit unit ∈ operands ∧ leaf = .inr unit := by
  induction operands with
  | nil => simp [operandsLeaves]
  | cons operand operands ih =>
    cases operand with
    | type value => simp [operandsLeaves, ih, or_and_right, exists_or, or_assoc]
    | unit value =>
      simp only [operandsLeaves, List.mem_cons, ih, reduceCtorEq, false_or,
        Operand.unit.injEq, or_and_right, exists_or, exists_eq_left]
      exact or_left_comm

theorem mem_leaves_of_child (member : child ∈ type.children) (inside : leaf ∈ child.leaves) :
    leaf ∈ type.leaves := by
  rcases type.var_or_compound with ⟨name, rfl⟩ | compound
  · cases member
  · rw [leaves_eq compound, mem_operandsLeaves]
    exact .inl ⟨child, mem_children.mp member, inside⟩

theorem mem_leaves_iff (compound : type.isVar = false) :
    leaf ∈ type.leaves ↔ (∃ child ∈ type.children, leaf ∈ child.leaves) ∨
      ∃ unit, .unit unit ∈ type.parts ∧ leaf = .inr unit := by
  simp only [leaves_eq compound, mem_operandsLeaves, mem_children]

theorem hasVar_iff_child (compound : type.isVar = false) :
    type.HasVar name ↔ ∃ child ∈ type.children, child.HasVar name := by
  simp [HasVar, mem_leaves_iff compound]

theorem hasUnit_iff (compound : type.isVar = false) {unit : υ} :
    type.HasUnit unit ↔
      (∃ child ∈ type.children, child.HasUnit unit) ∨ .unit unit ∈ type.parts := by
  simp [HasUnit, mem_leaves_iff compound]

/-- What is built from parts has no leaves but theirs. -/
theorem mem_leaves_rebuild {made : List (Operand (TypeTerm μ ω) ω)} {leaf : μ ⊕ ω}
    (member : leaf ∈ (type.rebuild made).leaves) : leaf ∈ operandsLeaves made := by
  have typed {child : TypeTerm μ ω} (inside : child ∈ operandTypes made)
      (own : leaf ∈ child.leaves) : leaf ∈ operandsLeaves made :=
    mem_operandsLeaves.mpr (.inl ⟨child, mem_operandTypes.mp inside, own⟩)
  cases type with
  | number unit =>
    rcases made with _ | ⟨value | unit, _ | ⟨second, rest⟩⟩
    · cases member
    · cases member
    · cases member
    · exact member
    · cases member
  | tuple items =>
    obtain ⟨item, inside, own⟩ := mem_itemsLeaves.mp member
    exact typed inside own
  | array item =>
    rw [rebuild, leaves, List.headD_eq_head?_getD] at member
    cases found : (operandTypes made).head? with
    | none => simp [found, leaves] at member
    | some child => exact typed (List.mem_of_head? found) (by simpa [found] using member)
  | function params result =>
    rcases List.mem_append.mp member with early | late
    · obtain ⟨param, inside, own⟩ := mem_itemsLeaves.mp early
      exact typed (List.dropLast_subset _ inside) own
    · rw [List.getLastD_eq_getLast?] at late
      cases found : (operandTypes made).getLast? with
      | none => simp [found, leaves] at late
      | some child => exact typed (List.mem_of_getLast? found) (by simpa [found] using late)
  | record fields =>
    obtain ⟨field, inside, own⟩ := mem_fieldsLeaves.mp member
    exact typed (List.of_mem_zip inside).2 own
  | tagged name operands => exact member
  | _ => cases member

/-! ### Substitution -/

def substitute (onVar : ν → TypeTerm μ ω) (onUnit : υ → ω) (type : TypeTerm ν υ) :
    TypeTerm μ ω :=
  Id.run (type.substituteM (fun name => pure (onVar name)) fun unit => pure (onUnit unit))

section Effects

variable {m : Type → Type} [Monad m] [LawfulMonad m] {onVar : ν → m (TypeTerm μ ω)}
  {onUnit : υ → m ω}

theorem substituteOperandsM_append (front back : List (Operand (TypeTerm ν υ) υ)) :
    substituteOperandsM onVar onUnit (front ++ back) = do
      let made ← substituteOperandsM onVar onUnit front
      let others ← substituteOperandsM onVar onUnit back
      return made ++ others := by
  induction front with
  | nil => simp [substituteOperandsM]
  | cons operand front ih => cases operand <;> simp [substituteOperandsM, ih]

/-- Substituting in a type that is no variable is substituting in its parts. -/
theorem substituteM_eq (compound : type.isVar = false) :
    type.substituteM onVar onUnit = do
      return type.rebuild (← substituteOperandsM onVar onUnit type.parts) := by
  have ofItems (items : List (TypeTerm ν υ)) :
      substituteOperandsM onVar onUnit (items.map .type) =
        List.map .type <$> substituteItemsM onVar onUnit items := by
    induction items <;> simp_all [substituteItemsM, substituteOperandsM]
  have ofFields (fields : List (String × TypeTerm ν υ)) :
      substituteFieldsM onVar onUnit fields =
        (fun parts => (fields.map Prod.fst).zip (operandTypes parts)) <$>
          substituteOperandsM onVar onUnit (fields.map fun field => .type field.2) := by
    induction fields <;> simp_all [substituteFieldsM, substituteOperandsM]
  cases type with
  | var name => cases compound
  | function params result =>
    simp [substituteM, parts, rebuild, ofItems, substituteOperandsM_append, substituteOperandsM]
  | _ => simp [substituteM, parts, rebuild, ofItems, ofFields, substituteOperandsM]

end Effects

section Equations

variable (onVar : ν → TypeTerm μ ω) (onUnit : υ → ω)

private theorem substituteOperands_eq (operands : List (Operand (TypeTerm ν υ) υ)) :
    Id.run (substituteOperandsM (fun name => pure (onVar name)) (fun unit => pure (onUnit unit))
      operands) = operands.map (Operand.map (substitute onVar onUnit) onUnit) := by
  induction operands with
  | nil => rfl
  | cons operand operands ih =>
    rw [List.map_cons, ← ih]
    cases operand with
    | type value => rfl
    | unit value => rfl

theorem substitute_eq (compound : type.isVar = false) :
    type.substitute onVar onUnit =
      type.rebuild (type.parts.map (Operand.map (substitute onVar onUnit) onUnit)) := by
  rw [← substituteOperands_eq]
  exact congrArg Id.run (substituteM_eq compound)

@[simp]
theorem substitute_var (name : ν) : (var name).substitute onVar onUnit = onVar name := rfl

@[simp]
theorem substitute_number (unit : υ) :
    (number unit : TypeTerm ν υ).substitute onVar onUnit = .number (onUnit unit) := rfl

@[simp]
theorem substitute_text : (text : TypeTerm ν υ).substitute onVar onUnit = .text := rfl

@[simp]
theorem substitute_boolean : (boolean : TypeTerm ν υ).substitute onVar onUnit = .boolean := rfl

@[simp]
theorem substitute_date (kind : DateKind) :
    (date kind : TypeTerm ν υ).substitute onVar onUnit = .date kind := rfl

@[simp]
theorem substitute_tuple (items : List (TypeTerm ν υ)) :
    (tuple items).substitute onVar onUnit = .tuple (items.map (substitute onVar onUnit)) := by
  rw [substitute_eq _ _ rfl]
  simp [parts, rebuild, Operand.map, Function.comp_def]

@[simp]
theorem substitute_array (item : TypeTerm ν υ) :
    (array item).substitute onVar onUnit = .array (item.substitute onVar onUnit) := rfl

@[simp]
theorem substitute_function (params : List (TypeTerm ν υ)) (result : TypeTerm ν υ) :
    (function params result).substitute onVar onUnit =
      .function (params.map (substitute onVar onUnit)) (result.substitute onVar onUnit) := by
  rw [substitute_eq _ _ rfl]
  simp [parts, rebuild, Operand.map, Function.comp_def]

@[simp]
theorem substitute_record (fields : List (String × TypeTerm ν υ)) :
    (record fields).substitute onVar onUnit =
      .record (fields.map fun field => (field.1, field.2.substitute onVar onUnit)) := by
  rw [substitute_eq _ _ rfl]
  simp [parts, rebuild, Operand.map, Function.comp_def, List.zip_map']

@[simp]
theorem substitute_tagged (name : String) (operands : List (Operand (TypeTerm ν υ) υ)) :
    (tagged name operands).substitute onVar onUnit =
      .tagged name (operands.map (Operand.map (substitute onVar onUnit) onUnit)) := by
  rw [substitute_eq _ _ rfl]
  rfl

end Equations

theorem isVar_substitute (compound : type.isVar = false) :
    (type.substitute onVar onUnit).isVar = false := by
  cases type with
  | var name => cases compound
  | _ => simp [isVar, asVar?]

theorem isPlain_substitute (plain : type.isPlain = true) :
    (type.substitute onVar onUnit).isPlain = true := by
  cases type with
  | var name => cases plain
  | record fields => cases plain
  | _ => simp [isPlain]

theorem parts_substitute (onVar : ν → TypeTerm μ ω) (onUnit : υ → ω)
    (compound : type.isVar = false) :
    (type.substitute onVar onUnit).parts =
      type.parts.map (Operand.map (substitute onVar onUnit) onUnit) := by
  cases type with
  | var name => cases compound
  | _ => simp [parts, Operand.map, Function.comp_def]

theorem rebuild_substitute (compound : type.isVar = false)
    (parts : List (Operand (TypeTerm κ ξ) ξ)) :
    (type.substitute onVar onUnit).rebuild parts = type.rebuild parts := by
  cases type with
  | var name => cases compound
  | number unit => rfl
  | array item => rfl
  | _ => simp [rebuild, Function.comp_def]

theorem children_substitute (onVar : ν → TypeTerm μ ω) (onUnit : υ → ω)
    (compound : type.isVar = false) :
    (type.substitute onVar onUnit).children = type.children.map (substitute onVar onUnit) := by
  rw [children_eq, children_eq, parts_substitute onVar onUnit compound]
  simp only [operandTypes, List.filterMap_map, List.map_filterMap]
  congr 1
  funext operand
  cases operand with
  | type value => rfl
  | unit value => rfl

/-- Substitution looks at nothing but the leaves of a type. -/
theorem substitute_congr {onVar' : ν → TypeTerm μ ω} {onUnit' : υ → ω} (type : TypeTerm ν υ)
    (sameVar : ∀ name, type.HasVar name → onVar name = onVar' name)
    (sameUnit : ∀ unit, type.HasUnit unit → onUnit unit = onUnit' unit) :
    type.substitute onVar onUnit = type.substitute onVar' onUnit' := by
  induction type using induction_children with
  | step type ih =>
    rcases type.var_or_compound with ⟨name, rfl⟩ | compound
    · exact sameVar name (List.mem_singleton_self _)
    · rw [substitute_eq _ _ compound, substitute_eq _ _ compound]
      refine congrArg type.rebuild (map_parts_congr (fun child member => ?_) fun unit member => ?_)
      · exact ih child member (fun name has => sameVar name (mem_leaves_of_child member has))
          fun unit has => sameUnit unit (mem_leaves_of_child member has)
      · exact sameUnit unit ((hasUnit_iff compound).mpr (.inr member))

theorem substitute_substitute (onVar : ν → TypeTerm μ ω) (onUnit : υ → ω)
    (onVar' : μ → TypeTerm κ ξ) (onUnit' : ω → ξ) (type : TypeTerm ν υ) :
    (type.substitute onVar onUnit).substitute onVar' onUnit' =
      type.substitute (fun name => (onVar name).substitute onVar' onUnit')
        (fun unit => onUnit' (onUnit unit)) := by
  induction type using induction_children with
  | step type ih =>
    rcases type.var_or_compound with ⟨name, rfl⟩ | compound
    · rfl
    · rw [substitute_eq _ _ (isVar_substitute compound), rebuild_substitute compound,
        parts_substitute _ _ compound, List.map_map, Operand.map_comp_map,
        substitute_eq _ _ compound]
      exact congrArg type.rebuild (map_parts_congr ih fun _ _ => rfl)

/-- Without an effect at any leaf, substituting with effects is substituting. -/
theorem substituteM_of_pure {m : Type → Type} [Monad m] [LawfulMonad m]
    {onVar : ν → m (TypeTerm μ ω)} {onUnit : υ → m ω} {types : ν → TypeTerm μ ω} {units : υ → ω}
    (vars : ∀ name, type.HasVar name → onVar name = pure (types name))
    (grounds : ∀ unit, type.HasUnit unit → onUnit unit = pure (units unit)) :
    type.substituteM onVar onUnit = pure (type.substitute types units) := by
  induction type using induction_children with
  | step type ih =>
    rcases type.var_or_compound with ⟨name, rfl⟩ | compound
    · exact vars name (List.mem_singleton_self _)
    · have made (operands : List (Operand (TypeTerm ν υ) υ)) (among : operands ⊆ type.parts) :
          substituteOperandsM onVar onUnit operands =
            pure (operands.map (Operand.map (substitute types units) units)) := by
        induction operands with
        | nil => rfl
        | cons operand operands ihOperands =>
          obtain ⟨here, others⟩ := List.cons_subset.mp among
          cases operand with
          | type value =>
            have child := mem_children.mpr here
            have own := ih value child
              (fun name has => vars name (mem_leaves_of_child child has))
              fun unit has => grounds unit (mem_leaves_of_child child has)
            rw [substituteOperandsM, own, ihOperands others, pure_bind, pure_bind, List.map_cons,
              Operand.map]
          | unit unit =>
            have own := grounds unit ((hasUnit_iff compound).mpr (.inr here))
            rw [substituteOperandsM, own, ihOperands others, pure_bind, pure_bind, List.map_cons,
              Operand.map]
      rw [substituteM_eq compound, made type.parts (List.Subset.refl _), pure_bind,
        substitute_eq _ _ compound]

theorem substitute_self (type : TypeTerm ν υ) : type.substitute .var id = type := by
  induction type using induction_children with
  | step type ih =>
    rcases type.var_or_compound with ⟨name, rfl⟩ | compound
    · rfl
    · rw [substitute_eq _ _ compound]
      rw [map_parts_congr ih fun _ _ => rfl, Operand.map_id, List.map_id, rebuild_parts compound]

/-- Types with different units stay different when the units are told apart. -/
theorem substitute_injective [Nonempty υ] {change : υ → ω} (injective : Function.Injective change) :
    Function.Injective (substitute (.var : ν → TypeTerm ν ω) change) := by
  have restored : Function.LeftInverse (substitute .var (Function.invFun change))
      (substitute (.var : ν → TypeTerm ν ω) change) := by
    intro type
    rw [substitute_substitute]
    refine (substitute_congr type (fun _ _ => rfl) fun unit _ => ?_).trans type.substitute_self
    exact Function.leftInverse_invFun injective unit
  exact restored.injective

theorem hasVar_var {other : ν} : (var name : TypeTerm ν υ).HasVar other ↔ other = name := by
  simp [HasVar, leaves]

/-- The leaves of a substitution are those of the types and units put in. -/
theorem mem_leaves_substitute (onVar : ν → TypeTerm μ ω) (onUnit : υ → ω)
    (type : TypeTerm ν υ) (leaf : μ ⊕ ω) :
    leaf ∈ (type.substitute onVar onUnit).leaves ↔
      (∃ name, type.HasVar name ∧ leaf ∈ (onVar name).leaves) ∨
        ∃ unit, type.HasUnit unit ∧ leaf = .inr (onUnit unit) := by
  induction type using induction_children with
  | step type ih =>
    rcases type.var_or_compound with ⟨name, rfl⟩ | compound
    · simp [HasVar, HasUnit, leaves]
    · rw [mem_leaves_iff (isVar_substitute compound), children_substitute _ _ compound,
        parts_substitute _ _ compound]
      simp only [hasVar_iff_child compound, hasUnit_iff compound, List.mem_map]
      have units (unit : ω) : (∃ part ∈ type.parts, part.map (substitute onVar onUnit) onUnit =
          .unit unit) ↔ ∃ before, .unit before ∈ type.parts ∧ onUnit before = unit := by
        constructor
        · rintro ⟨part, member, same⟩
          cases part with
          | type value => cases same
          | unit before =>
            cases same
            exact ⟨before, member, rfl⟩
        · rintro ⟨before, member, rfl⟩
          exact ⟨_, member, rfl⟩
      simp only [units]
      grind

theorem hasVar_substitute {name : μ} :
    (type.substitute onVar onUnit).HasVar name ↔
      ∃ before, type.HasVar before ∧ (onVar before).HasVar name := by
  unfold HasVar
  rw [mem_leaves_substitute]
  simp [HasVar]

theorem hasUnit_substitute {unit : ω} :
    (type.substitute onVar onUnit).HasUnit unit ↔
      (∃ name, type.HasVar name ∧ (onVar name).HasUnit unit) ∨
        ∃ before, type.HasUnit before ∧ onUnit before = unit := by
  unfold HasUnit
  rw [mem_leaves_substitute]
  simp [HasVar, HasUnit, eq_comm]

/-- What stands for a variable is no deeper than the type around it. -/
theorem depth_le_of_hasVar (onVar : ν → TypeTerm μ ω) (onUnit : υ → ω) (type : TypeTerm ν υ)
    (has : type.HasVar name) : (onVar name).depth ≤ (type.substitute onVar onUnit).depth := by
  induction type using induction_children with
  | step type ih =>
    cases compound : type.isVar with
    | true =>
      cases type with
      | var other =>
        simp only [HasVar, leaves, List.mem_singleton, Sum.inl.injEq] at has
        rw [has]
        exact Nat.le_refl _
      | _ => cases compound
    | false =>
      obtain ⟨child, member, inside⟩ := (hasVar_iff_child compound).mp has
      have part : child.substitute onVar onUnit ∈ (type.substitute onVar onUnit).children := by
        rw [children_substitute onVar onUnit compound]
        exact List.mem_map_of_mem member
      exact Nat.le_trans (ih child member inside) (Nat.le_of_lt (depth_lt_of_child part))

theorem depth_lt_of_hasVar (onVar : ν → TypeTerm μ ω) (onUnit : υ → ω)
    (compound : type.isVar = false) (has : type.HasVar name) :
    (onVar name).depth < (type.substitute onVar onUnit).depth := by
  obtain ⟨child, member, inside⟩ := (hasVar_iff_child compound).mp has
  have part : child.substitute onVar onUnit ∈ (type.substitute onVar onUnit).children := by
    rw [children_substitute onVar onUnit compound]
    exact List.mem_map_of_mem member
  exact Nat.lt_of_le_of_lt (depth_le_of_hasVar onVar onUnit child inside)
    (depth_lt_of_child part)

/-- A substitution is deeper than the type by no more than what is put in. -/
theorem depth_substitute_le (onVar : ν → TypeTerm μ ω) (onUnit : υ → ω) (type : TypeTerm ν υ)
    {extra : Nat} (within : ∀ name, type.HasVar name → (onVar name).depth ≤ extra + 1) :
    (type.substitute onVar onUnit).depth ≤ type.depth + extra := by
  induction type using induction_children with
  | step type ih =>
    rcases type.var_or_compound with ⟨name, rfl⟩ | compound
    · have here := within name (List.mem_singleton_self _)
      rw [substitute_var, depth]
      omega
    · have positive := type.depth_pos
      have below : (type.substitute onVar onUnit).depth ≤ type.depth - 1 + extra + 1 := by
        rw [depth_le_iff, children_substitute onVar onUnit compound]
        intro made member
        obtain ⟨child, inside, rfl⟩ := List.mem_map.mp member
        have part := ih child inside fun name has => within name (mem_leaves_of_child inside has)
        have own := depth_lt_of_child inside
        omega
      omega

end TypeTerm

end SheetTypes
