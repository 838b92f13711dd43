import Mathlib.Data.List.Forall2
import SheetTypes.Proofs.Concrete.Comparison
import SheetTypes.Proofs.Template.Renaming

/-!
Making types concrete, part by part. The parts of a concrete type are parts of what stands for the
variables, or are made from parts of the same kind. A template whose leaves can be made concrete is
made concrete exactly if its records name no field twice and its tagged types are declared and
applied to operands of the kinds of their parameters.
-/

set_option autoImplicit false

namespace SheetTypes

open TypeTerm

def Registry.Fits {ν υ : Type} (registry : Registry) : TypeTerm ν υ → Prop
  | .record fields => (fields.map Prod.fst).Nodup
  | .tagged name operands => registry.Takes name operands
  | _ => True

section Origins

variable {ν υ : Type} {registry : Registry} {made : TypeTerm ν υ → ConcreteType → Prop}

/-- How a type that is no variable is made concrete: its children are made from its children, a
function from a function, and a tagged type is applied as declared. -/
structure MadeFrom (registry : Registry) (made : TypeTerm ν υ → ConcreteType → Prop)
    (type : TypeTerm ν υ) (result : ConcreteType) : Prop where
  children : ∀ child ∈ result.children, ∃ source ∈ type.children, made source child
  function : ∀ params last, result = .function params last → type.hasFunction = true
  tagged : ∀ name operands, result = .tagged name operands → registry.Takes name operands

/-- What holds of all that stands for variables and of all that is made from a part holds of every
part of a concrete type. -/
theorem everywhere_of_made (step : ∀ type result, type.isVar = false → made type result →
      MadeFrom registry made type result)
    {good : ConcreteType → Prop} {type : TypeTerm ν υ}
    (vars : ∀ name, type.HasVar name → ∀ result, made (.var name) result → result.Everywhere good)
    (parts : ∀ source, type.Contains source → ∀ result,
      MadeFrom registry made source result → good result)
    {result : ConcreteType} (done : made type result) : result.Everywhere good := by
  induction type using induction_children generalizing result with
  | step type ih =>
    rcases type.var_or_compound with ⟨name, rfl⟩ | compound
    · exact vars name (List.mem_singleton_self _) result done
    · have here := step type result compound done
      refine everywhere_iff.mpr ⟨parts type (.refl type) result here, fun child member => ?_⟩
      obtain ⟨source, inside, own⟩ := here.children child member
      refine ih source inside (fun name has => ?_) (fun inner contains => ?_) own
      · exact vars name (mem_leaves_of_child inside has)
      · exact parts inner (.of_child inside contains)

end Origins

theorem TypeTerm.hasFunction_eq_false_iff {ν υ : Type} {type : TypeTerm ν υ} :
    type.hasFunction = false ↔
      type.Everywhere fun part => ∀ params result, part ≠ .function params result := by
  induction type using induction_children with
  | step type ih =>
    rw [everywhere_iff]
    have value (offers : type.offered ≠ [])
        (other : ∀ params result, type ≠ .function params result) : type.hasFunction = false ↔
          (∀ params result, type ≠ .function params result) ∧ ∀ child ∈ type.children,
            child.Everywhere fun part => ∀ params result, part ≠ .function params result := by
      rw [Bool.eq_false_iff, ne_eq, hasFunction_iff_child offers]
      constructor
      · intro none
        refine ⟨other, fun child member => (ih child member).mp ?_⟩
        rw [Bool.eq_false_iff]
        exact fun found => none ⟨child, member, found⟩
      · rintro ⟨_, children⟩ ⟨child, member, found⟩
        rw [(ih child member).mpr (children child member)] at found
        cases found
    cases type with
    | var name => simp [hasFunction, children]
    | function params result => simp [hasFunction]
    | _ => exact value (List.cons_ne_nil _ _) (by simp)

namespace Template

variable {registry : Registry} {bindings : ConcreteBindings} {label : String}
  {fields : List (String × Template)} {node : Nat} {params : List Parameter}
  {operands : List (Operand Template UnitTemplate)} {result : ConcreteType} {template : Template}

def TagsOnce (registry : Registry) (template : Template) : Prop :=
  ∀ name operands definition, template = .tagged name operands →
    registry.type? name = some definition → Registry.firstRepeated [] definition.tagNames = none

def Ready (registry : Registry) (bindings : ConcreteBindings) (template : Template) : Prop :=
  template.Meets (fun name => ∃ made, bindings.types.lookup name = some made)
    (fun unit => ∃ ground, concreteUnit registry bindings unit = .ok ground)
    fun part => registry.Fits part ∧ TagsOnce registry part

def groundOf (registry : Registry) (bindings : ConcreteBindings) (unit : UnitTemplate) :
    GroundUnit :=
  (concreteUnit registry bindings unit).toOption.getD .one

def formed (registry : Registry) (bindings : ConcreteBindings) (template : Template) :
    ConcreteType :=
  template.ordered.substitute (fun name => (bindings.types.lookup name).getD .void)
    (groundOf registry bindings)

private def placesOf (registry : Registry) (label : String) (node : Nat) :
    Template → Except TypeError (List Parameter)
  | .tagged name operands => do
      let definition ← registry.definitionFor name operands.length
      match Registry.firstRepeated [] definition.tagNames with
      | some tag => throw (duplicateField label node tag)
      | none => return definition.params
  | template => .ok (template.parts.map Operand.parameter)

private theorem placesOf_eq_ok :
    placesOf registry label node template = .ok params ↔
      registry.parametersOf template = .ok params ∧ TagsOnce registry template := by
  cases template with
  | tagged name operands =>
    simp only [placesOf, Registry.parametersOf, except_map_eq_ok]
    rw [except_bind_eq_ok]
    constructor
    · rintro ⟨definition, found, done⟩
      split at done
      · cases done
      next once =>
        refine ⟨⟨definition, found, Except.ok.inj done⟩, fun _ _ other same declared => ?_⟩
        cases same
        cases declared.symm.trans (Registry.definitionFor_eq_ok.mp found).1
        exact once
    · rintro ⟨⟨definition, found, rfl⟩, once⟩
      refine ⟨definition, found, ?_⟩
      rw [once name operands definition rfl (Registry.definitionFor_eq_ok.mp found).1]
      rfl
  | _ => simp [placesOf, Registry.parametersOf, TagsOnce]

private def concreteParts (registry : Registry) (bindings : ConcreteBindings) (label : String)
    (node : Nat) (parts : List (Operand Template UnitTemplate)) :
    Except TypeError (List ConcreteOperand) :=
  concreteOperands registry bindings label node (parts.map Operand.parameter) parts

private theorem concreteParts_type (value : Template) :
    concreteParts registry bindings label node (.type value :: operands) = do
      let made ← concreteNode registry bindings label node value
      let others ← concreteParts registry bindings label (node + value.nodeCount) operands
      return .type made :: others := rfl

private theorem concreteParts_unit (unit : UnitTemplate) :
    concreteParts registry bindings label node (.unit unit :: operands) = do
      let made ← concreteUnit registry bindings unit
      let others ← concreteParts registry bindings label node operands
      return .unit made :: others := rfl

private theorem concreteNode_eq (plain : template.isPlain = true) :
    concreteNode registry bindings label node template = do
      let params ← placesOf registry label node template
      let made ← concreteOperands registry bindings label (node + 1) params template.parts
      return template.rebuild made := by
  have none (node : Nat) : concreteParts registry bindings label node [] = pure [] := rfl
  have ofItems (items : List Template) (last : List (Operand Template UnitTemplate)) (node : Nat) :
      concreteParts registry bindings label node (items.map .type ++ last) = do
        let made ← concreteItems registry bindings label node items
        let others ← concreteParts registry bindings label (node + itemsCount items) last
        return made.map .type ++ others := by
    induction items generalizing node with
    | nil => exact (bind_pure _).symm
    | cons item items ih =>
      simp [concreteParts_type, concreteItems, itemsCount, ih, Nat.add_assoc]
  have untagged (places : placesOf registry label node template =
        .ok (template.parts.map Operand.parameter))
      (whole : concreteNode registry bindings label node template =
        concreteParts registry bindings label (node + 1) template.parts >>= fun made =>
          pure (template.rebuild made)) :
      concreteNode registry bindings label node template = do
        let params ← placesOf registry label node template
        let made ← concreteOperands registry bindings label (node + 1) params template.parts
        return template.rebuild made := by
    rw [places]
    exact whole
  cases template with
  | var name => cases plain
  | record fields => cases plain
  | tagged name operands =>
    simp only [concreteNode, placesOf, parts, rebuild, bind_assoc]
    congr 1
    funext definition
    cases Registry.firstRepeated [] definition.tagNames <;> rfl
  | tuple items =>
    have all := ofItems items [] (node + 1)
    rw [List.append_nil] at all
    exact untagged rfl (by simp [concreteNode, parts, rebuild, all, none])
  | text => rfl
  | boolean => rfl
  | date kind => rfl
  | _ =>
    refine untagged rfl ?_
    simp [concreteNode, parts, rebuild, ofItems, concreteParts_type, concreteParts_unit, none]

private def Decided (registry : Registry) (bindings : ConcreteBindings) (label : String)
    (template : Template) : Prop :=
  ∀ node result, concreteNode registry bindings label node template = .ok result ↔
    Ready registry bindings template ∧ formed registry bindings template = result

private theorem concreteFields_eq_ok
    (each : ∀ field ∈ fields, Decided registry bindings label field.2) (record node : Nat)
    (before : List (String × Template)) {done : List (String × ConcreteType)}
    (results : List (String × ConcreteType))
    (same : before.map (fun field => (field.1, field.2.substitute
      (fun name => (bindings.types.lookup name).getD .void) (groundOf registry bindings))) = done) :
    concreteFields registry bindings label record node done fields = .ok results ↔
      ((∀ field ∈ fields, Ready registry bindings field.2) ∧ (fields.map Prod.fst).Nodup ∧
        ∀ field ∈ fields, done.lookup field.1 = none) ∧
      (orderedFields before fields).map (fun field => (field.1, field.2.substitute
        (fun name => (bindings.types.lookup name).getD .void) (groundOf registry bindings))) =
          results := by
  induction fields generalizing node before done with
  | nil => simp [concreteFields, orderedFields, same]
  | cons field fields ih =>
    obtain ⟨name, type⟩ := field
    obtain ⟨here, others⟩ := List.forall_mem_cons.mp each
    rw [concreteFields, except_bind_eq_ok]
    cases known : done.lookup name with
    | some earlier =>
      constructor
      · rintro ⟨first, _, impossible⟩
        cases impossible
      · rintro ⟨⟨_, _, fresh⟩, _⟩
        cases known.symm.trans (fresh _ List.mem_cons_self)
    | none =>
      have rest := ih others (node + type.nodeCount) (insertField before name type.ordered)
        (map_insertField _ before name type.ordered)
      simp only [here node _, Option.isSome_none, Bool.false_eq_true, if_false, and_assoc,
        exists_and_left, exists_eq_left']
      rw [same] at rest
      simp only [formed, orderedFields, rest, lookup_insertField _ known, forall_and,
        List.forall_mem_cons, List.map_cons, List.nodup_cons, List.mem_map, known, true_and]
      grind

private theorem concreteOperands_eq_ok (enough : params.length = operands.length)
    (types : ∀ value, .type value ∈ operands → Decided registry bindings label value) (node : Nat)
    (results : List ConcreteOperand) :
    concreteOperands registry bindings label node params operands = .ok results ↔
      (List.Forall₂ Parameter.Accepts params operands ∧
        (∀ value, .type value ∈ operands → Ready registry bindings value) ∧
        ∀ unit, .unit unit ∈ operands →
          ∃ ground, concreteUnit registry bindings unit = .ok ground) ∧
      operands.map (Operand.map (formed registry bindings) (groundOf registry bindings)) =
        results := by
  induction operands generalizing params node results with
  | nil =>
    cases List.length_eq_zero_iff.mp enough
    simp [concreteOperands]
  | cons operand operands ih =>
    cases params with
    | nil => cases enough
    | cons param params =>
      have rest := ih (Nat.succ.inj enough) fun value member =>
        types value (List.mem_cons_of_mem _ member)
      rw [List.forall₂_cons]
      cases operand with
      | type value =>
        cases param with
        | unit name => simp [concreteOperands, Parameter.Accepts]
        | type name =>
          rw [concreteOperands, except_both_eq_ok]
          simp only [types value List.mem_cons_self node _, rest]
          simp [Parameter.Accepts, Operand.map, and_assoc, and_left_comm]
      | unit unit =>
        cases param with
        | type name => simp [concreteOperands, Parameter.Accepts]
        | unit name =>
          rw [concreteOperands, except_both_eq_ok]
          simp only [rest]
          cases made : concreteUnit registry bindings unit with
          | error error => simp [made]
          | ok ground => simp [Parameter.Accepts, Operand.map, groundOf, made, Except.toOption]

/-- A template is made concrete exactly if it is ready, and into itself in order, with other
leaves. -/
theorem concreteNode_eq_ok : concreteNode registry bindings label node template = .ok result ↔
    Ready registry bindings template ∧ formed registry bindings template = result := by
  induction template using induction_plain generalizing node result with
  | var name =>
    rw [Ready, meets_var]
    cases made : bindings.types.lookup name <;>
      simp [concreteNode, made, formed, ordered, Registry.Fits, TagsOnce]
  | record fields ih =>
    have decided (results : List (String × ConcreteType)) :
        concreteFields registry bindings label node (node + 1) [] fields = .ok results ↔ _ :=
      concreteFields_eq_ok (fun field member node result => @ih field member node result) node
        (node + 1) [] results rfl
    have fits : registry.Fits (.record fields) ∧ TagsOnce registry (.record fields) ↔
        (fields.map Prod.fst).Nodup := by
      simp [Registry.Fits, TagsOnce]
    rw [concreteNode, except_map_eq_ok, Ready, meets_iff rfl, fits, formed, ordered,
      substitute_record]
    simp only [decided, children, List.forall_mem_map]
    simp [Ready, parts, and_comm]
  | plain template plain ih =>
    have decided (value : Template) (member : .type value ∈ template.parts) :
        Decided registry bindings label value := fun _ _ => ih value (mem_children.mpr member)
    have compound := compound_of_plain plain
    have fits : registry.Fits template ↔ ∃ params, registry.parametersOf template = .ok params ∧
        List.Forall₂ Parameter.Accepts params template.parts := by
      rw [← Registry.takes_iff]
      cases template with
      | record fields => cases plain
      | _ => simp [Registry.Fits]
    rw [concreteNode_eq plain, except_both_eq_ok, Ready, meets_iff compound, fits]
    constructor
    · rintro ⟨params, found, made, here, rfl⟩
      obtain ⟨known, once⟩ := placesOf_eq_ok.mp found
      obtain ⟨⟨accepts, types, units⟩, rfl⟩ :=
        (concreteOperands_eq_ok (registry.length_parametersOf known) decided _ _).mp here
      exact ⟨⟨⟨⟨params, known, accepts⟩, once⟩, units, fun child member =>
        types child (mem_children.mp member)⟩, substitute_ordered_eq plain _ _⟩
    · rintro ⟨⟨⟨⟨params, known, accepts⟩, once⟩, units, types⟩, rfl⟩
      exact ⟨params, placesOf_eq_ok.mpr ⟨known, once⟩, _,
        (concreteOperands_eq_ok accepts.length_eq decided _ _).mpr
          ⟨⟨accepts, fun value member => types value (mem_children.mpr member), units⟩, rfl⟩,
        (substitute_ordered_eq plain _ _).symm⟩

/-- A template whose variables are bound and whose units can be made concrete is made concrete
exactly if all its parts fit. -/
theorem concreteNode_succeeds (distinct : registry.TagsDistinct)
    (vars : ∀ name, template.HasVar name → (bindings.types.lookup name).isSome = true)
    (units : ∀ unit, template.HasUnit unit →
      ∃ ground, concreteUnit registry bindings unit = .ok ground) (node : Nat) :
    (∃ made, concreteNode registry bindings label node template = .ok made) ↔
      template.Everywhere registry.Fits := by
  simp only [concreteNode_eq_ok, exists_and_left, exists_eq', and_true]
  constructor
  · exact fun ready part contains => (ready.everywhere part contains).1
  · intro fits
    refine ⟨fun name has => Option.isSome_iff_exists.mp (vars name has), units,
      fun part contains => ⟨fits part contains, fun _ _ definition _ declared => ?_⟩⟩
    exact distinct definition (List.mem_of_find?_eq_some declared)

def Makes (registry : Registry) (bindings : ConcreteBindings) (label : String)
    (template : Template) (result : ConcreteType) : Prop :=
  ∃ node, concreteNode registry bindings label node template = .ok result

theorem makes_step (compound : template.isVar = false)
    (makes : Makes registry bindings label template result) :
    MadeFrom registry (Makes registry bindings label) template result := by
  obtain ⟨node, done⟩ := makes
  obtain ⟨ready, rfl⟩ := concreteNode_eq_ok.mp done
  refine ⟨fun child member => ?_, fun params last same => ?_, fun name operands same => ?_⟩
  · rw [formed, children_substitute _ _ (isVar_ordered compound)] at member
    obtain ⟨inner, inside, rfl⟩ := List.mem_map.mp member
    obtain ⟨source | source, own, same⟩ := mem_parts_ordered (mem_children.mp inside)
    · cases same
      have below := mem_children.mpr own
      exact ⟨source, below, 0, concreteNode_eq_ok.mpr ⟨ready.below below, rfl⟩⟩
    · cases same
  · cases template with
    | function params last => rfl
    | var name => cases compound
    | _ => simp [formed, ordered] at same
  · cases template with
    | var name => cases compound
    | tagged name operands =>
      rw [formed, ordered, substitute_tagged, orderedOperands_eq] at same
      cases same
      have takes : registry.Takes name operands := (ready.everywhere _ (.refl _)).1
      exact (takes.map _ _).map _ _
    | _ => simp [formed, ordered] at same

end Template

namespace Store

variable {registry : Registry} {onVar : TypeVar → Except TypeError ConcreteType}
  {onUnit : InferredUnit → Except TypeError GroundUnit}

theorem concreteTerm_step {type : InferredType} {result : ConcreteType}
    (compound : type.isVar = false) (done : concreteTerm registry onVar onUnit type = .ok result) :
    MadeFrom registry (fun type result => concreteTerm registry onVar onUnit type = .ok result)
      type result := by
  obtain ⟨ready, rfl⟩ := (concreteTerm_eq_ok result).mp done
  refine ⟨fun child member => ?_, fun params last same => ?_, fun name operands same => ?_⟩
  · rw [formed, children_substitute _ _ compound] at member
    obtain ⟨source, inside, rfl⟩ := List.mem_map.mp member
    exact ⟨source, inside, (concreteTerm_eq_ok _).mpr ⟨ready.below inside, rfl⟩⟩
  · cases type with
    | function params last => rfl
    | var name => cases compound
    | _ => simp [formed] at same
  · cases type with
    | var name => cases compound
    | tagged name operands =>
      rw [formed, substitute_tagged] at same
      cases same
      exact (ready.everywhere _ (.refl _) name operands rfl).map _ _
    | _ => simp [formed] at same

end Store

end SheetTypes
