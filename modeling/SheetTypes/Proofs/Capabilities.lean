import SheetTypes.Proofs.Exponents
import SheetTypes.Proofs.Substitution
import SheetTypes.Requirements

/-!
What requirements ask for, and which types offer it. A type of values offers a capability if no
function is anywhere in it, because each shape offers all capabilities or none.
-/

set_option autoImplicit false

namespace SheetTypes

namespace Requirements

variable {capability origin query : String} {left requirements right : Requirements}
  {origins : List String}

theorem mem_names :
    capability ∈ requirements.names ↔ (requirements.origins.find? capability).isSome = true :=
  OrderedMap.mem_keys

theorem mem_names_of_origin (member : origin ∈ requirements.originsOf capability) :
    capability ∈ requirements.names := by
  rw [mem_names]
  unfold originsOf at member
  cases found : requirements.origins.find? capability with
  | none =>
    rw [found] at member
    cases member
  | some origins => rfl

theorem mem_originsOf_single (capability origin : String) :
    origin ∈ (single capability origin).originsOf capability := by
  unfold single originsOf OrderedMap.insert
  rw [OrderedMap.find?_alter]
  simp

private theorem find?_add (requirements : Requirements) (capability query : String)
    (origins : List String) :
    (requirements.add capability origins).origins.find? query =
      if query = capability then some (requirements.originsOf capability ++ origins)
      else requirements.origins.find? query := by
  unfold add originsOf
  rw [OrderedMap.find?_alter]
  simp only [Std.compare_eq_iff_eq]

private theorem mem_originsOf_add :
    origin ∈ (requirements.add capability origins).originsOf query ↔
      origin ∈ requirements.originsOf query ∨ query = capability ∧ origin ∈ origins := by
  unfold originsOf
  rw [find?_add]
  split
  next same =>
    subst same
    simp [originsOf]
  next different => simp [different]

private theorem mem_originsOf_foldl (entries : List (String × List String)) (left : Requirements)
    (capability origin : String) :
    origin ∈ (entries.foldl (fun merged entry => merged.add entry.1 entry.2) left).originsOf
        capability ↔
      origin ∈ left.originsOf capability ∨
        ∃ origins, (capability, origins) ∈ entries ∧ origin ∈ origins := by
  induction entries generalizing left with
  | nil => simp
  | cons head rest ih =>
    obtain ⟨name, origins⟩ := head
    rw [List.foldl_cons, ih, mem_originsOf_add, or_assoc]
    apply or_congr_right
    constructor
    · rintro (⟨same, among⟩ | ⟨found, later, among⟩)
      · exact ⟨origins, by rw [same]; exact List.mem_cons_self .., among⟩
      · exact ⟨found, List.mem_cons_of_mem _ later, among⟩
    · rintro ⟨found, inside, among⟩
      rcases List.mem_cons.mp inside with same | later
      · cases same
        exact .inl ⟨rfl, among⟩
      · exact .inr ⟨found, later, among⟩

theorem mem_originsOf_union :
    origin ∈ (left.union right).originsOf capability ↔
      origin ∈ left.originsOf capability ∨ origin ∈ right.originsOf capability := by
  unfold union
  rw [mem_originsOf_foldl]
  apply or_congr_right
  unfold originsOf
  constructor
  · rintro ⟨origins, inside, among⟩
    rw [OrderedMap.mem_entries.mp inside]
    exact among
  · intro among
    cases found : right.origins.find? capability with
    | none =>
      rw [found] at among
      cases among
    | some origins =>
      rw [found] at among
      exact ⟨origins, OrderedMap.mem_entries.mpr found, among⟩

private theorem mem_names_add :
    query ∈ (requirements.add capability origins).names ↔
      query ∈ requirements.names ∨ query = capability := by
  rw [mem_names, mem_names, find?_add]
  split
  next same => simp [same]
  next different => simp [different]

theorem mem_names_union :
    capability ∈ (left.union right).names ↔
      capability ∈ left.names ∨ capability ∈ right.names := by
  have keys : capability ∈ right.names ↔ capability ∈ right.origins.entries.map Prod.fst := Iff.rfl
  unfold union
  rw [keys]
  generalize right.origins.entries = entries
  induction entries generalizing left with
  | nil => simp
  | cons head rest ih =>
    apply ih.trans
    rw [mem_names_add, List.map_cons, List.mem_cons, or_assoc]

theorem names_of_isEmpty (empty : requirements.isEmpty = true) : requirements.names = [] := by
  unfold names OrderedMap.keys
  rw [List.isEmpty_iff.mp empty]
  rfl

theorem shortfall?_eq_none {offered : List String} :
    requirements.shortfall? offered = Option.none ↔
      ∀ capability ∈ requirements.names, capability ∈ offered := by
  unfold shortfall?
  simp

end Requirements

namespace TypeTerm

variable {ν υ : Type} {name : ν} {μ ω : Type}

/-- In a type of values, functions come with the children. -/
theorem hasFunction_iff_child {type : TypeTerm ν υ} (offers : type.offered ≠ []) :
    type.hasFunction = true ↔ ∃ child ∈ type.children, child.hasFunction = true := by
  have ofItems (items : List (TypeTerm ν υ)) :
      itemsHaveFunction items = operandsHaveFunction (items.map .type) := by
    induction items <;> simp_all [itemsHaveFunction, operandsHaveFunction]
  have ofFields (fields : List (String × TypeTerm ν υ)) :
      fieldsHaveFunction fields = operandsHaveFunction (fields.map fun field => .type field.2) := by
    induction fields <;> simp_all [fieldsHaveFunction, operandsHaveFunction]
  have ofParts : type.hasFunction = operandsHaveFunction type.parts := by
    cases type with
    | function params result => exact absurd rfl offers
    | _ => simp [hasFunction, parts, operandsHaveFunction, ofItems, ofFields]
  have among (operands : List (Operand (TypeTerm ν υ) υ)) : operandsHaveFunction operands = true ↔
      ∃ value, .type value ∈ operands ∧ value.hasFunction = true := by
    induction operands with
    | nil => simp [operandsHaveFunction]
    | cons operand operands ih =>
      cases operand <;> simp [operandsHaveFunction, ih, or_and_right, exists_or]
  simp only [ofParts, among, mem_children]

theorem compound_of_offered {type : TypeTerm ν υ} (offers : type.offered ≠ []) :
    type.isVar = false := by
  rcases type.var_or_compound with ⟨name, rfl⟩ | compound
  · exact absurd rfl offers
  · exact compound

theorem children_of_offered {type : TypeTerm ν υ} (offers : type.offered ≠ [])
    (alone : type.offersThroughChildren = false) : type.children = [] := by
  cases type with
  | function params result => exact absurd rfl offers
  | tuple items => cases alone
  | array item => cases alone
  | record fields => cases alone
  | tagged name operands => cases alone
  | _ => rfl

/-- What a shape offers does not depend on what is put in. -/
theorem offered_substitute (onVar : ν → TypeTerm μ ω) (onUnit : υ → ω) {type : TypeTerm ν υ}
    (compound : type.isVar = false) : (type.substitute onVar onUnit).offered = type.offered := by
  cases type with
  | var name => cases compound
  | _ => simp [offered]

/-- Functions come into a substitution with the type itself or with a type put in. -/
theorem hasFunction_substitute (onVar : ν → TypeTerm μ ω) (onUnit : υ → ω) (type : TypeTerm ν υ) :
    (type.substitute onVar onUnit).hasFunction = true ↔
      type.hasFunction = true ∨ ∃ name, type.HasVar name ∧ (onVar name).hasFunction = true := by
  induction type using induction_children with
  | step type ih =>
    rcases type.var_or_compound with ⟨name, rfl⟩ | compound
    · simp [HasVar, leaves, hasFunction]
    · by_cases offers : type.offered = []
      · cases type with
        | function params result => simp [hasFunction]
        | var name => cases compound
        | _ => cases offers
      · rw [hasFunction_iff_child offers, hasFunction_iff_child
          (by rwa [offered_substitute _ _ compound]), children_substitute _ _ compound]
        simp only [List.mem_map, hasVar_iff_child compound]
        grind

/-- Whether a type offers a capability: its shape does, and so do all of its children. `vars` tells
which variables do. -/
inductive Offers (vars : ν → Prop) (capability : String) : TypeTerm ν υ → Prop where
  | var {name : ν} (offers : vars name) : Offers vars capability (.var name)
  | shape {type : TypeTerm ν υ} (offered : capability ∈ type.offered)
      (children : ∀ child ∈ type.children, Offers vars capability child) :
      Offers vars capability type

variable {vars : ν → Prop} {capability : String} {type : TypeTerm ν υ}

theorem offers_var : (.var name : TypeTerm ν υ).Offers vars capability ↔ vars name := by
  constructor
  · intro offers
    cases offers with
    | var offers => exact offers
    | shape offered _ => cases offered
  · exact .var

theorem offers_iff_children (compound : type.isVar = false) :
    type.Offers vars capability ↔
      capability ∈ type.offered ∧ ∀ child ∈ type.children, child.Offers vars capability := by
  constructor
  · intro offers
    cases offers with
    | var => cases compound
    | shape offered children => exact ⟨offered, children⟩
  · rintro ⟨offered, children⟩
    exact .shape offered children

theorem offers_substitute {onVar : ν → TypeTerm μ ω} {onUnit : υ → ω} {vars : μ → Prop} :
    (type.substitute onVar onUnit).Offers vars capability ↔
      type.Offers (fun name => (onVar name).Offers vars capability) capability := by
  induction type using induction_children with
  | step type ih =>
    rcases type.var_or_compound with ⟨name, rfl⟩ | compound
    · rw [offers_var]
      exact Iff.rfl
    · rw [offers_iff_children compound, offers_iff_children (isVar_substitute compound),
        offered_substitute _ _ compound, children_substitute _ _ compound]
      refine and_congr_right fun _ => ?_
      constructor
      · intro children child member
        exact (ih child member).mp (children _ (List.mem_map_of_mem member))
      · intro children image member
        obtain ⟨child, inside, rfl⟩ := List.mem_map.mp member
        exact (ih child inside).mpr (children child inside)

theorem Offers.mono {others : ν → Prop} (weaker : ∀ name, vars name → others name)
    (offers : type.Offers vars capability) : type.Offers others capability := by
  induction offers with
  | var offers => exact .var (weaker _ offers)
  | shape offered _ ih => exact .shape offered ih

theorem Offers.hasFunction_eq_false (offers : type.Offers vars capability) :
    type.hasFunction = false := by
  induction offers with
  | var _ => rfl
  | shape offered _ ih =>
    rw [Bool.eq_false_iff, ne_eq, hasFunction_iff_child (List.ne_nil_of_mem offered)]
    rintro ⟨child, member, found⟩
    rw [ih child member] at found
    cases found

theorem Offers.of_hasVar (offers : type.Offers vars capability) (has : type.HasVar name) :
    vars name := by
  induction offers with
  | var offers =>
    simp only [HasVar, leaves, List.mem_singleton, Sum.inl.injEq] at has
    rw [has]
    exact offers
  | shape offered _ ih =>
    obtain ⟨child, member, inside⟩ :=
      (hasVar_iff_child (compound_of_offered (List.ne_nil_of_mem offered))).mp has
    exact ih child member inside

end TypeTerm

end SheetTypes
