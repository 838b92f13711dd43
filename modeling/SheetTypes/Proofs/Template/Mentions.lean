import Mathlib.Logic.Relation
import SheetTypes.Proofs.Exponents
import SheetTypes.Proofs.Substitution
import SheetTypes.Template

/-!
The parts of a type, and the names that a template mentions. A template mentions the variables and
units at its leaves and the tagged types among its parts, and nothing else.
-/

set_option autoImplicit false

namespace SheetTypes

namespace TypeTerm

variable {ν υ : Type} {type part child : TypeTerm ν υ}

def Contains (type part : TypeTerm ν υ) : Prop :=
  Relation.ReflTransGen (fun whole child => child ∈ whole.children) type part

theorem Contains.refl (type : TypeTerm ν υ) : type.Contains type := Relation.ReflTransGen.refl

theorem Contains.of_child (member : child ∈ type.children) (contains : child.Contains part) :
    type.Contains part :=
  Relation.ReflTransGen.head member contains

theorem Contains.trans {inner : TypeTerm ν υ} (outer : type.Contains part)
    (contains : part.Contains inner) : type.Contains inner :=
  Relation.ReflTransGen.trans outer contains

theorem contains_iff :
    type.Contains part ↔ part = type ∨ ∃ child ∈ type.children, child.Contains part := by
  unfold Contains
  rw [Relation.ReflTransGen.cases_head_iff, eq_comm]

def Everywhere (good : TypeTerm ν υ → Prop) (type : TypeTerm ν υ) : Prop :=
  ∀ part, type.Contains part → good part

theorem everywhere_iff {good : TypeTerm ν υ → Prop} :
    type.Everywhere good ↔ good type ∧ ∀ child ∈ type.children, child.Everywhere good := by
  constructor
  · intro everywhere
    exact ⟨everywhere type (.refl type), fun child member part contains =>
      everywhere part (.of_child member contains)⟩
  · rintro ⟨here, children⟩ part contains
    rcases contains_iff.mp contains with same | ⟨child, member, inside⟩
    · rw [same]
      exact here
    · exact children child member part inside

/-- Whether conditions hold of the variables, of the units and of all parts of a type. -/
structure Meets (onVar : ν → Prop) (onUnit : υ → Prop) (good : TypeTerm ν υ → Prop)
    (type : TypeTerm ν υ) : Prop where
  vars : ∀ name, type.HasVar name → onVar name
  units : ∀ unit, type.HasUnit unit → onUnit unit
  everywhere : type.Everywhere good

section Meets

variable {onVar : ν → Prop} {onUnit : υ → Prop} {good : TypeTerm ν υ → Prop}

theorem meets_var {name : ν} :
    (var name).Meets onVar onUnit good ↔ onVar name ∧ good (.var name) := by
  constructor
  · intro meets
    exact ⟨meets.vars name (List.mem_singleton_self _), meets.everywhere _ (.refl _)⟩
  · rintro ⟨own, here⟩
    refine ⟨fun other has => ?_, fun unit has => ?_, everywhere_iff.mpr ⟨here, by simp [children]⟩⟩
    · cases List.mem_singleton.mp has
      exact own
    · cases List.mem_singleton.mp has

/-- What is asked of a type that is no variable, and of its children. -/
theorem meets_iff (compound : type.isVar = false) :
    type.Meets onVar onUnit good ↔
      good type ∧ (∀ unit, .unit unit ∈ type.parts → onUnit unit) ∧
        ∀ child ∈ type.children, child.Meets onVar onUnit good := by
  constructor
  · rintro ⟨vars, units, everywhere⟩
    obtain ⟨here, below⟩ := everywhere_iff.mp everywhere
    exact ⟨here, fun unit member => units unit ((hasUnit_iff compound).mpr (.inr member)),
      fun child member => ⟨fun name has => vars name (mem_leaves_of_child member has),
        fun unit has => units unit (mem_leaves_of_child member has), below child member⟩⟩
  · rintro ⟨here, units, below⟩
    refine ⟨fun name has => ?_, fun unit has => ?_,
      everywhere_iff.mpr ⟨here, fun child member => (below child member).everywhere⟩⟩
    · obtain ⟨child, member, inside⟩ := (hasVar_iff_child compound).mp has
      exact (below child member).vars name inside
    · rcases (hasUnit_iff compound).mp has with ⟨child, member, inside⟩ | member
      · exact (below child member).units unit inside
      · exact units unit member

theorem Meets.below (meets : type.Meets onVar onUnit good) (member : child ∈ type.children) :
    child.Meets onVar onUnit good := by
  rcases type.var_or_compound with ⟨name, rfl⟩ | compound
  · cases member
  · exact ((meets_iff compound).mp meets).2.2 child member

end Meets

end TypeTerm

theorem mem_orderedNames {names : List String} {name : String} :
    name ∈ orderedNames names ↔ name ∈ names := by
  have found (map : OrderedMap String Unit) :
      ((names.map fun name => (name, ())).foldl
          (fun map entry => map.insert entry.1 entry.2) map).find? name =
        if name ∈ names then some () else map.find? name := by
    induction names generalizing map with
    | nil => simp
    | cons first names ih =>
      rw [List.map_cons, List.foldl_cons, ih, OrderedMap.insert, OrderedMap.find?_alter]
      by_cases later : name ∈ names
      · simp [later]
      · simp [later]
  unfold orderedNames
  rw [OrderedMap.mem_keys, OrderedMap.ofList, found]
  by_cases member : name ∈ names
  · simp [member]
  · simp [member]

namespace Template

open TypeTerm

def leafMentions : String ⊕ UnitTemplate → List Mention
  | .inl name => [.typeVar name]
  | .inr unit => UnitTemplate.mentions unit

def Mentions (template : Template) (mention : Mention) : Prop :=
  (∃ leaf ∈ template.leaves, mention ∈ leafMentions leaf) ∨
    ∃ name operands, template.Contains (.tagged name operands) ∧ mention = .taggedType name

variable {child template : Template} {mention : Mention} {name : String}

private theorem Mentions.of_child (member : child ∈ template.children)
    (mentions : child.Mentions mention) : template.Mentions mention := by
  rcases mentions with ⟨leaf, inside, found⟩ | ⟨name, operands, inside, found⟩
  · exact .inl ⟨leaf, mem_leaves_of_child member inside, found⟩
  · exact .inr ⟨name, operands, .of_child member inside, found⟩

def tagMentions : Template → List Mention
  | .tagged name _ => [.taggedType name]
  | _ => []

private theorem operandsMentions_append (front back : List (Operand Template UnitTemplate)) :
    operandsMentions (front ++ back) = operandsMentions front ++ operandsMentions back := by
  induction front with
  | nil => rfl
  | cons operand front ih => cases operand <;> simp [operandsMentions, ih]

/-- The mentions of a type with parts are those of the parts, after its own tag. -/
theorem mentions_eq (compound : template.isVar = false) :
    template.mentions = template.tagMentions ++ operandsMentions template.parts := by
  have ofItems (items : List Template) :
      operandsMentions (items.map .type) = itemsMentions items := by
    induction items <;> simp_all [operandsMentions, itemsMentions]
  have ofFields (fields : List (String × Template)) :
      operandsMentions (fields.map fun field => .type field.2) = fieldsMentions fields := by
    induction fields <;> simp_all [operandsMentions, fieldsMentions]
  cases template with
  | var name => cases compound
  | _ => simp [mentions, tagMentions, parts, operandsMentions, operandsMentions_append, ofItems,
      ofFields]

private theorem mem_operandsMentions {operands : List (Operand Template UnitTemplate)} :
    mention ∈ operandsMentions operands ↔
      (∃ value, .type value ∈ operands ∧ mention ∈ value.mentions) ∨
        ∃ unit, .unit unit ∈ operands ∧ mention ∈ UnitTemplate.mentions unit := by
  induction operands with
  | nil => simp [operandsMentions]
  | cons operand operands ih =>
    cases operand with
    | type value => simp [operandsMentions, ih, or_and_right, exists_or, or_assoc]
    | unit value =>
      simp only [operandsMentions, List.mem_append, ih, List.mem_cons, reduceCtorEq, false_or,
        Operand.unit.injEq, or_and_right, exists_or, exists_eq_left]
      exact or_left_comm

theorem mem_mentions : mention ∈ template.mentions ↔ template.Mentions mention := by
  induction template using induction_children with
  | step template ih =>
    rcases var_or_compound template with ⟨name, rfl⟩ | compound
    · refine ⟨fun member => .inl ⟨.inl name, List.mem_singleton_self _, member⟩, ?_⟩
      rintro (⟨leaf, member, found⟩ | ⟨tag, operands, contains, _⟩)
      · rw [List.mem_singleton.mp member] at found
        exact found
      · rcases contains_iff.mp contains with same | ⟨child, member, _⟩
        · cases same
        · cases member
    have ofPart (inside : mention ∈ operandsMentions template.parts) :
        mention ∈ mentions template := by
      rw [mentions_eq compound]
      exact List.mem_append_right _ inside
    have ofChild {child : Template} (member : child ∈ template.children)
        (found : child.Mentions mention) : mention ∈ mentions template :=
      ofPart (mem_operandsMentions.mpr
        (.inl ⟨child, mem_children.mp member, (ih child member).mpr found⟩))
    constructor
    · intro member
      rw [mentions_eq compound] at member
      rcases List.mem_append.mp member with own | inside
      · cases template with
        | tagged name operands =>
          exact .inr ⟨name, operands, .refl _, List.mem_singleton.mp own⟩
        | _ => cases own
      · rcases mem_operandsMentions.mp inside with ⟨value, part, found⟩ | ⟨unit, part, found⟩
        · have own := mem_children.mpr part
          exact ((ih value own).mp found).of_child own
        · refine .inl ⟨.inr unit, ?_, found⟩
          rw [leaves_eq compound]
          exact mem_operandsLeaves.mpr (.inr ⟨unit, part, rfl⟩)
    · rintro (⟨leaf, member, found⟩ | ⟨name, operands, contains, rfl⟩)
      · rw [leaves_eq compound] at member
        rcases mem_operandsLeaves.mp member with ⟨value, part, inside⟩ | ⟨unit, part, rfl⟩
        · exact ofChild (mem_children.mpr part) (.inl ⟨leaf, inside, found⟩)
        · exact ofPart (mem_operandsMentions.mpr (.inr ⟨unit, part, found⟩))
      · rcases contains_iff.mp contains with rfl | ⟨child, member, inside⟩
        · exact List.mem_cons_self
        · exact ofChild member (.inr ⟨name, operands, inside, rfl⟩)

private theorem mem_selected {select : Mention → Option String} (mention : Mention)
    (selects : ∀ other, select other = some name ↔ other = mention) :
    name ∈ orderedNames (template.mentions.filterMap select) ↔ template.Mentions mention := by
  rw [mem_orderedNames, List.mem_filterMap]
  simp only [selects, exists_eq_right, mem_mentions]

theorem mem_typeVars : name ∈ template.typeVars ↔ template.HasVar name := by
  unfold typeVars
  rw [mem_selected (.typeVar name) (fun other => by cases other <;> simp)]
  simp [Mentions, Sum.exists, leafMentions, UnitTemplate.mentions, HasVar]

theorem mem_unitVars :
    name ∈ template.unitVars ↔ ∃ unit, template.HasUnit unit ∧ name ∈ unit.vars.keys := by
  unfold unitVars
  rw [mem_selected (.unitVar name) (fun other => by cases other <;> simp)]
  simp [Mentions, Sum.exists, leafMentions, UnitTemplate.mentions, HasUnit]

theorem mem_units :
    name ∈ template.units ↔ ∃ unit, template.HasUnit unit ∧ name ∈ unit.names.keys := by
  unfold units
  rw [mem_selected (.unit name) (fun other => by cases other <;> simp)]
  simp [Mentions, Sum.exists, leafMentions, UnitTemplate.mentions, HasUnit]

theorem mem_taggedTypes :
    name ∈ template.taggedTypes ↔ ∃ operands, template.Contains (.tagged name operands) := by
  unfold taggedTypes
  rw [mem_selected (.taggedType name) (fun other => by cases other <;> simp)]
  simp [Mentions, Sum.exists, leafMentions, UnitTemplate.mentions]

end Template

end SheetTypes
