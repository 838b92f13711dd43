import SheetTypes.Proofs.Concrete.Leaves
import SheetTypes.Proofs.Concrete.Resolution
import SheetTypes.Proofs.Concrete.Unfolding
import SheetTypes.Proofs.Session.Freshness
import SheetTypes.Proofs.Template.RoundTrip

/-!
The texts of concrete types. A template that is checked becomes a type whose units are products of
words, whose tuples have several items and whose records are in order. The text of such a type can
be read, and if nothing in it is `VOID`, what is read checks to the type itself.
-/

set_option autoImplicit false

namespace SheetTypes

namespace TypeTerm

variable {ν υ μ ω : Type} {spelling : Spelling ν υ} {other : Spelling μ ω}
  {onVar : ν → TypeTerm μ ω} {onUnit : υ → ω}

private def Respelled (spelling : Spelling ν υ) (other : Spelling μ ω) (onVar : ν → TypeTerm μ ω)
    (onUnit : υ → ω) (type : TypeTerm ν υ) : Prop :=
  (type.substitute onVar onUnit).renderWith other = type.renderWith spelling

private theorem renderItems_respelled {items : List (TypeTerm ν υ)}
    (each : ∀ item ∈ items, Respelled spelling other onVar onUnit item) :
    renderItems other (items.map (substitute onVar onUnit)) = renderItems spelling items := by
  induction items with
  | nil => rfl
  | cons item items ih =>
    obtain ⟨here, others⟩ := List.forall_mem_cons.mp each
    cases items with
    | nil => exact here
    | cons next items =>
      rw [renderItems, ← here, ← ih others]
      rfl

private theorem renderFields_respelled {fields : List (String × TypeTerm ν υ)}
    (each : ∀ field ∈ fields, Respelled spelling other onVar onUnit field.2) :
    renderFields other (fields.map fun field => (field.1, field.2.substitute onVar onUnit)) =
      renderFields spelling fields := by
  induction fields with
  | nil => rfl
  | cons field fields ih =>
    obtain ⟨name, type⟩ := field
    obtain ⟨here, others⟩ := List.forall_mem_cons.mp each
    cases fields with
    | nil =>
      rw [renderFields, ← here]
      rfl
    | cons next fields =>
      rw [renderFields, ← here, ← ih others]
      rfl

private theorem renderOperands_respelled {operands : List (Operand (TypeTerm ν υ) υ)}
    (types : ∀ value, .type value ∈ operands → Respelled spelling other onVar onUnit value)
    (units : ∀ unit, .unit unit ∈ operands → other.unit (onUnit unit) = spelling.unit unit) :
    renderOperands other (operands.map (Operand.map (substitute onVar onUnit) onUnit)) =
      renderOperands spelling operands := by
  induction operands with
  | nil => rfl
  | cons operand operands ih =>
    have rest := ih (fun value member => types value (List.mem_cons_of_mem _ member))
      fun unit member => units unit (List.mem_cons_of_mem _ member)
    cases operand with
    | type value =>
      rw [renderOperands, ← types value List.mem_cons_self, ← rest]
      rfl
    | unit unit =>
      rw [renderOperands, ← units unit List.mem_cons_self, ← rest]
      rfl

/-- A type whose leaves are spelled like what replaces them has the text of what it becomes. -/
theorem renderWith_substitute {type : TypeTerm ν υ}
    (vars : ∀ name, type.HasVar name → (onVar name).renderWith other = spelling.typeVar name)
    (units : ∀ unit, other.unit (onUnit unit) = spelling.unit unit)
    (scalars : ∀ unit, other.isScalar (onUnit unit) = spelling.isScalar unit) :
    (type.substitute onVar onUnit).renderWith other = type.renderWith spelling := by
  unfold HasVar at vars
  induction type using TypeTerm.induction with
  | var name => exact vars name (List.mem_singleton_self _)
  | number unit =>
    rw [substitute_number, renderWith, renderWith, scalars, units]
  | text => rfl
  | boolean => rfl
  | date kind => rfl
  | tuple items ih =>
    rw [substitute_tuple, renderWith, renderWith, renderItems_respelled]
    exact fun item member =>
      ih item member fun name has => vars name (mem_itemsLeaves.mpr ⟨item, member, has⟩)
  | array item ih => rw [substitute_array, renderWith, renderWith, ih vars]
  | function params result ihParams ihResult =>
    rw [substitute_function, renderWith, renderWith, renderItems_respelled,
      ihResult fun name has => vars name (List.mem_append_right _ has)]
    exact fun param member => ihParams param member fun name has =>
      vars name (List.mem_append_left _ (mem_itemsLeaves.mpr ⟨param, member, has⟩))
  | record fields ih =>
    rw [substitute_record, renderWith, renderWith, renderFields_respelled]
    exact fun field member =>
      ih field member fun name has => vars name (mem_fieldsLeaves.mpr ⟨field, member, has⟩)
  | tagged name operands ih =>
    rw [substitute_tagged, renderWith, renderWith, renderOperands_respelled]
    · exact fun value member => ih value member fun name has =>
      vars name (mem_operandsLeaves.mpr (.inl ⟨value, member, has⟩))
    · exact fun unit _ => units unit

end TypeTerm

abbrev Ascending {τ : Type} (fields : List (String × τ)) : Prop :=
  fields.Pairwise fun first second => compare first.1 second.1 = .lt

/-- A type whose units are as required, whose tuples have several items, and whose records are in
order. -/
inductive TypeTerm.Legible {ν υ : Type} (good : υ → Prop) : TypeTerm ν υ → Prop
  | var (name : ν) : Legible good (.var name)
  | number {unit : υ} : good unit → Legible good (.number unit)
  | text : Legible good .text
  | boolean : Legible good .boolean
  | date (kind : DateKind) : Legible good (.date kind)
  | tuple {items : List (TypeTerm ν υ)} : 2 ≤ items.length →
      (∀ item ∈ items, Legible good item) → Legible good (.tuple items)
  | array {item : TypeTerm ν υ} : Legible good item → Legible good (.array item)
  | function {params : List (TypeTerm ν υ)} {result : TypeTerm ν υ} :
      (∀ param ∈ params, Legible good param) → Legible good result →
      Legible good (.function params result)
  | record {fields : List (String × TypeTerm ν υ)} : Ascending fields →
      (∀ field ∈ fields, Legible good field.2) → Legible good (.record fields)
  | tagged {name : String} {operands : List (Operand (TypeTerm ν υ) υ)} :
      (∀ value, .type value ∈ operands → Legible good value) →
      (∀ unit, .unit unit ∈ operands → good unit) → Legible good (.tagged name operands)

namespace TypeTerm

variable {ν υ μ κ : Type} [Ord κ] {good : υ → Prop} {ground : υ → GroundUnit}

def grounded (ground : υ → GroundUnit) (type : TypeTerm ν υ) : TypeTerm μ (UnitTerm κ) :=
  type.substitute (fun _ => .text) fun unit => .ofGround (ground unit)

theorem grounded_tuple (items : List (TypeTerm ν υ)) :
    ((tuple items).grounded ground : TypeTerm μ (UnitTerm κ)) =
      .tuple (items.map (grounded ground)) :=
  substitute_tuple ..

theorem grounded_function (params : List (TypeTerm ν υ)) (result : TypeTerm ν υ) :
    ((function params result).grounded ground : TypeTerm μ (UnitTerm κ)) =
      .function (params.map (grounded ground)) (result.grounded ground) :=
  substitute_function ..

theorem grounded_record (fields : List (String × TypeTerm ν υ)) :
    ((record fields).grounded ground : TypeTerm μ (UnitTerm κ)) =
      .record (fields.map fun field => (field.1, field.2.grounded ground)) :=
  substitute_record ..

theorem grounded_tagged (name : String) (operands : List (Operand (TypeTerm ν υ) υ)) :
    ((tagged name operands).grounded ground : TypeTerm μ (UnitTerm κ)) = .tagged name
      (operands.map (Operand.map (grounded ground) fun unit => .ofGround (ground unit))) :=
  substitute_tagged ..

/-- A legible type without variables can be written if its units can. -/
theorem Legible.wellFormed {type : TypeTerm ν υ} (legible : type.Legible good)
    (words : ∀ unit, good unit → ∀ name ∈ (ground unit).keys, Text.isWord name = true) :
    Template.WellFormed (type.grounded ground) := by
  have spellable {unit : υ} (holds : good unit) :
      UnitTemplate.Spellable (.ofGround (ground unit)) :=
    ⟨words unit holds, List.forall_mem_nil _⟩
  induction legible with
  | var => exact .text
  | number holds => exact .number (spellable holds)
  | text => exact .text
  | boolean => exact .boolean
  | date kind => exact .date kind
  | tuple several _ ih =>
    rw [grounded_tuple]
    refine .tuple ?_ (List.forall_mem_map.mpr ih)
    rw [List.length_map]
    exact several
  | array _ ih => exact .array ih
  | function _ _ ihParams ihResult =>
    rw [grounded_function]
    exact .function (List.forall_mem_map.mpr ihParams) ihResult
  | record _ _ ih =>
    rw [grounded_record]
    exact .record (List.forall_mem_map.mpr ih)
  | tagged _ units ih =>
    rw [grounded_tagged]
    refine .tagged (fun value member => ?_) fun unit member => ?_
    · obtain ⟨operand, inside, same⟩ := List.mem_map.mp member
      cases operand with
      | unit own => cases same
      | type own =>
        cases same
        exact ih own inside
    · obtain ⟨operand, inside, same⟩ := List.mem_map.mp member
      cases operand with
      | type own => cases same
      | unit own =>
        cases same
        exact spellable (units own inside)

end TypeTerm

namespace Template

open TypeTerm

variable {ν υ : Type} {good : υ → Prop} {ground : υ → GroundUnit} {label : String} {name : String}
  {τ : Type} {before : List (String × τ)}

private def Restates (label : String) (ground : υ → GroundUnit) (type : TypeTerm ν υ) : Prop :=
  ∀ node, instantiateNode label node (type.grounded ground) = pure (type.grounded ground)

private theorem lookup_of_ascending (lower : ∀ field ∈ before, compare field.1 name = .lt) :
    before.lookup name = none := by
  refine List.lookup_eq_none_iff.mpr fun field member => bne_iff_ne.mpr ?_
  rintro rfl
  have less := lower field member
  rw [Std.ReflOrd.compare_self] at less
  cases less

private theorem insertField_of_ascending (lower : ∀ field ∈ before, compare field.1 name = .lt)
    (type : τ) : insertField before name type = before ++ [(name, type)] := by
  unfold insertField
  induction before with
  | nil => rfl
  | cons field before ih =>
    obtain ⟨here, others⟩ := List.forall_mem_cons.mp lower
    rw [OrderedMap.alterEntry, Std.OrientedCmp.gt_of_lt here, ih others, List.cons_append]

private theorem instantiateFields_restates {fields : List (String × TypeTerm ν υ)}
    (each : ∀ field ∈ fields, Restates label ground field.2) (record node : Nat)
    {before : List (String × InferredType)} (ascending : Ascending fields)
    (lower : ∀ field ∈ before, ∀ later ∈ fields, compare field.1 later.1 = .lt) :
    instantiateFields label record node before
        (fields.map fun field => (field.1, field.2.grounded ground)) =
      pure (before ++ fields.map fun field => (field.1, field.2.grounded ground)) := by
  induction fields generalizing node before with
  | nil =>
    rw [List.map_nil, List.map_nil, List.append_nil]
    rfl
  | cons field fields ih =>
    obtain ⟨here, others⟩ := List.forall_mem_cons.mp each
    obtain ⟨first, rest⟩ := List.pairwise_cons.mp ascending
    have below (earlier : String × InferredType) (member : earlier ∈ before) :=
      lower earlier member field List.mem_cons_self
    rw [List.map_cons, List.map_cons, instantiateFields, here node, pure_bind,
      lookup_of_ascending below, insertField_of_ascending below]
    refine (ih others _ rest fun earlier member later inside => ?_).trans ?_
    · rcases List.mem_append.mp member with old | new
      · exact lower earlier old later (List.mem_cons_of_mem _ inside)
      · rw [List.mem_singleton.mp new]
        exact first later inside
    · rw [List.append_assoc, List.singleton_append]

private theorem instantiateOperands_restates {operands : List (Operand (TypeTerm ν υ) υ)}
    (each : ∀ value, .type value ∈ operands → Restates label ground value) (node : Nat) :
    instantiateOperands label node
        (operands.map (Operand.map (grounded ground) fun unit => .ofGround (ground unit))) =
      pure (operands.map (Operand.map (grounded ground) fun unit => .ofGround (ground unit))) := by
  induction operands generalizing node with
  | nil => rfl
  | cons operand operands ih =>
    have rest := ih fun value member => each value (List.mem_cons_of_mem _ member)
    cases operand with
    | type value =>
      rw [List.map_cons, List.map_cons, Operand.map, Operand.map, instantiateOperands,
        each value List.mem_cons_self node, pure_bind, rest, pure_bind]
    | unit unit =>
      rw [List.map_cons, List.map_cons, Operand.map, Operand.map, instantiateOperands,
        rest]
      rfl

private theorem restates_of_plain {type : TypeTerm ν υ} (plain : type.isPlain = true)
    (each : ∀ value, .type value ∈ type.parts → Restates label ground value) :
    Restates label ground type := by
  intro node
  have compound := compound_of_plain plain
  rw [grounded, grounded, instantiateNode_eq (isPlain_substitute plain),
    parts_substitute _ _ compound]
  refine (congrArg (· >>= _) (instantiateOperands_restates each (node + 1))).trans ?_
  rw [pure_bind, rebuild_substitute compound, substitute_eq _ _ compound]
  rfl

/-- Instantiating a legible template without variables creates no variable and cannot fail. -/
theorem instantiateNode_grounded {type : TypeTerm ν υ} (legible : type.Legible good)
    (ground : υ → GroundUnit) (label : String) (node : Nat) :
    instantiateNode label node (type.grounded ground) = pure (type.grounded ground) := by
  induction legible generalizing node with
  | record ascending _ ih =>
    rw [grounded_record, grounded_record, instantiateNode,
      instantiateFields_restates ih _ _ ascending (List.forall_mem_nil _), pure_bind,
      List.nil_append]
  | tuple _ _ ih => exact restates_of_plain rfl (by simpa [parts, Restates] using ih) node
  | array _ ih => exact restates_of_plain rfl (by simpa [parts, Restates] using ih) node
  | function _ _ ihParams ihResult =>
    refine restates_of_plain rfl ?_ node
    simpa [parts, Restates, or_imp, forall_and] using ⟨ihParams, ihResult⟩
  | tagged _ _ ih => exact restates_of_plain rfl ih node
  | _ => rfl

end Template

def NamesWords (unit : InferredUnit) : Prop := ∀ name ∈ unit.names.keys, Text.isWord name = true

namespace TypeTerm

theorem ascending_orderedFields {ν υ : Type} {done : List (String × TypeTerm ν υ)}
    (ascending : Ascending done) (fields : List (String × TypeTerm ν υ)) :
    Ascending (orderedFields done fields) := by
  induction fields generalizing done with
  | nil => exact ascending
  | cons field fields ih => exact ih (OrderedMap.alterEntry_ascending _ _ _ ascending)

end TypeTerm

namespace Template

open TypeTerm

/-- The instances of a template that can be written are legible. -/
theorem WellFormed.legible {template : Template} (wellFormed : template.WellFormed)
    (chosen : Renaming) : (template.renamed chosen).Legible NamesWords := by
  unfold renamed TypeTerm.rename
  induction wellFormed with
  | var _ => exact .var _
  | number spellable => exact .number spellable.1
  | text => exact .text
  | boolean => exact .boolean
  | date kind => exact .date kind
  | tuple several _ ih =>
    rw [substitute_tuple, ordered, orderedItems_eq, List.map_map]
    exact .tuple (by rwa [List.length_map]) (List.forall_mem_map.mpr ih)
  | array _ ih => exact .array ih
  | function _ _ ihParams ihResult =>
    rw [substitute_function, ordered, orderedItems_eq, List.map_map]
    exact .function (List.forall_mem_map.mpr ihParams) ihResult
  | record _ ih =>
    rw [substitute_record, ordered]
    refine .record (ascending_orderedFields .nil _) fun field member => ?_
    obtain ⟨_, inside, same⟩ := (of_mem_orderedFields member).resolve_left List.not_mem_nil
    obtain ⟨source, own, rfl⟩ := List.mem_map.mp inside
    rw [← same]
    exact ih source own
  | tagged _ units ih =>
    rw [substitute_tagged, ordered, orderedOperands_eq, List.map_map]
    refine .tagged (fun value member => ?_) fun unit member => ?_
    · obtain ⟨source | source, own, same⟩ := List.mem_map.mp member
      · cases same
        exact ih source own
      · cases same
    · obtain ⟨source | source, own, same⟩ := List.mem_map.mp member
      · cases same
      · cases same
        exact (units source own).1

/-- An instance of a template that can be written is legible, and no variable is linked. -/
theorem WellFormed.instances {template : Template} (wellFormed : template.WellFormed)
    {label : String} {type : InferredType} {after : Store}
    (instantiates : template.InstantiatesTo label .empty type after) :
    type.Legible NamesWords ∧ (∀ var, after.typeLink? var = none) ∧
      ∀ var, after.unitLink? var = none := by
  obtain ⟨chosen, fresh, rfl⟩ := instantiates.renamed
  refine ⟨wellFormed.legible chosen, fun var => ?_, fun var => ?_⟩
  · rw [Store.typeLink?, fresh.typeCells, Store.empty, Array.empty_append, Array.getElem?_replicate]
    split <;> simp_all
  · rw [Store.unitLink?, fresh.unitCells, Store.empty, Array.empty_append, Array.getElem?_replicate]
    split <;> simp_all

end Template

namespace Store

open TypeTerm

variable {store : Store} {registry : Registry} {allowDefaults : Bool}

theorem concreteVar_of_unlinked {links : Nat} {var : TypeVar} {made : ConcreteType}
    (unlinked : store.typeLink? var = none)
    (done : store.concreteVar registry allowDefaults links var = .ok made) :
    made = ConcreteType.void := by
  rw [concreteVar, unlinked] at done
  dsimp only at done
  split at done
  · cases done
    rfl
  · cases done

/-- Where no unit variable is linked, a unit is made ground by leaving its variables out. -/
theorem groundUnit_of_unlinked {unit : InferredUnit} {made : GroundUnit}
    (unlinked : ∀ var, store.unitLink? var = none)
    (done : store.groundUnit registry allowDefaults unit = .ok made) :
    made = unit.names ∧ registry.checkUnit unit.names = .ok () := by
  have ones (power : UnitVar × Int) (member : power ∈ unit.vars.toList) :
      store.groundUnitVar allowDefaults store.units.size power.1 = .ok .one := by
    cases allowDefaults with
    | true => rw [groundUnitVar, unlinked, if_pos rfl]
    | false =>
      have key := PowerProduct.mem_keys_of_toList member
      obtain ⟨_, linked⟩ := (unitDetermined_of_groundUnit done power.1 key).bound
      cases (unlinked power.1).symm.trans linked
  rw [groundUnit, multiplyGround_of_ones ones, except_ok_bind] at done
  obtain ⟨_, checked, same⟩ := except_bind_eq_ok.mp done
  cases same
  exact ⟨rfl, checked⟩

/-- A type without variables is made concrete like the same type with ground units, in any store. -/
theorem concretize_grounded {type : InferredType} {result : ConcreteType}
    (unlinked : ∀ var, store.unitLink? var = none) (closed : ∀ var, ¬type.HasVar var)
    (done : store.concretize registry allowDefaults type = .ok result) (other : Store)
    (otherDefaults : Bool) :
    other.concretize registry otherDefaults (type.grounded UnitTerm.names) = .ok result := by
  have paired : Paired (LeafMirrors registry (.internal "")
      (store.concreteVar registry allowDefaults store.types.size)
      (other.concreteVar registry otherDefaults other.types.size)
      (store.groundUnit registry allowDefaults) (other.groundUnit registry otherDefaults))
      type (type.grounded UnitTerm.names) := by
    refine ⟨type.substitute (fun var => .var (var, .text)) fun unit => (unit, .ofGround unit.names),
      (substitute_substitute ..).trans type.substitute_self, substitute_substitute .., ?_⟩
    intro leaf inside
    rcases (mem_leaves_substitute ..).mp inside with ⟨var, has, _⟩ | ⟨unit, has, rfl⟩
    · exact absurd has (closed var)
    · obtain ⟨made, here⟩ := ((concreteTerm_eq_ok _).mp done).1.units unit has
      obtain ⟨rfl, checked⟩ := groundUnit_of_unlinked unlinked here
      have again : other.groundUnit registry otherDefaults (.ofGround unit.names) =
          .ok unit.names := by
        change (registry.checkUnit unit.names >>= fun _ => pure unit.names) = _
        rw [checked]
        rfl
      change Mirrors _ _ (store.groundUnit registry allowDefaults unit) _
      rw [here, again]
      exact .ok rfl
  refine ((concreteTerm_mirrors paired).eq_ok_iff ?_ result).mp done
  intro complains
  cases complains.symm.trans done

end Store

open TypeTerm Store

/-- A concrete type without `VOID` has the text of the template that says the same. -/
theorem ConcreteType.render_ofGround {type : ConcreteType} (closed : ∀ var, ¬type.HasVar var) :
    Template.render (type.substitute (fun _ => .text) .ofGround) = type.render := by
  refine renderWith_substitute (fun var has => absurd has (closed var)) (fun unit => ?_)
    fun unit => ?_
  · exact congrArg productText (List.append_nil _)
  · exact Bool.and_true _

/-- The text of a concrete type without `VOID` that a text checks to can be read, and checks to that
concrete type, with defaults or without. -/
theorem checkTemplate_render {registry : Registry} {options : CheckOptions} {label text : String}
    {template : Template} {type : ConcreteType} (read : Template.parse text = .ok template)
    (checked : checkTemplate registry options label template = .ok type)
    (closed : ∀ var, ¬type.HasVar var) :
    ∃ again, Template.parse type.render = .ok again ∧
      ∀ options label, checkTemplate registry options label again = .ok type := by
  obtain ⟨inferred, made, done⟩ := (Registry.checkTemplate_eq_ok rfl).mp checked
  obtain ⟨legible, typeLinks, unitLinks⟩ := (Template.wellFormed_of_parse read).instances
    ⟨_, Prod.ext (Prod.ext made rfl) rfl⟩
  have form : type = inferred.substitute (fun _ => ConcreteType.void) UnitTerm.names := by
    refine type.substitute_self.symm.trans (substitute_of_concreteTerm done ?_ ?_)
    · intro var _ value own
      rw [concreteVar_of_unlinked (typeLinks var) own]
      rfl
    · intro unit _ value own
      exact (groundUnit_of_unlinked unitLinks own).1
  have same : (inferred.grounded UnitTerm.names : Template) =
      type.substitute (fun _ => .text) .ofGround := by
    rw [form, substitute_substitute]
    rfl
  refine ⟨inferred.grounded UnitTerm.names, ?_, fun options label => ?_⟩
  · rw [← ConcreteType.render_ofGround closed, ← same]
    exact (legible.wellFormed fun _ words => words).parse_render
  · have restated : (Template.instantiate label (inferred.grounded UnitTerm.names)).run.run
        .empty .empty = ((.ok (inferred.grounded UnitTerm.names), .empty), .empty) :=
      congrArg (fun action => action.run.run .empty .empty)
        (Template.instantiateNode_grounded legible UnitTerm.names label 0)
    refine (Registry.checkTemplate_eq_ok restated).mpr ⟨_, rfl, ?_⟩
    refine concretize_grounded unitLinks (fun var has => ?_) done .empty _
    refine closed .void ?_
    rw [form]
    exact hasVar_substitute.mpr ⟨var, has, List.mem_singleton_self _⟩

/-- Fields out of order, one of them quoted, and a unit variable that is left open. -/
theorem checkTemplate_render_record :
    let template : Template := .record
      [("speed", .number ⟨.ofList [("m", 1), ("s", -2)], .ofKey "u"⟩),
        ("TEXT", .tagged "Optional" [.type (.tuple [.text, .function [] .boolean])])]
    let type : ConcreteType := .record
      [("TEXT", .tagged "Optional" [.type (.tuple [.text, .function [] .boolean])]),
        ("speed", .number (.ofList [("m", 1), ("s", -2)]))]
    Template.parse template.render = .ok template ∧
      checkTemplate .builtin {} "type" template = .ok type ∧
      (∀ var, ¬type.HasVar var) ∧
      ∃ again, Template.parse type.render = .ok again ∧
        ∀ options label, checkTemplate .builtin options label again = .ok type := by
  intro template type
  have wellFormed : template.WellFormed := by
    refine .record fun field member => ?_
    rcases List.mem_cons.mp member with rfl | last
    · exact .number (by decide +kernel)
    · obtain rfl := List.mem_singleton.mp last
      refine .tagged (fun content member => ?_) (by simp)
      obtain rfl := Operand.type.inj (List.mem_singleton.mp member)
      refine .tuple (by decide) fun item member => ?_
      rcases List.mem_cons.mp member with rfl | last
      · exact .text
      · obtain rfl := List.mem_singleton.mp last
        exact .function (by simp) .boolean
  have checked : checkTemplate .builtin {} "type" template = .ok type := by decide +kernel
  have closed (var : Undetermined) : ¬type.HasVar var := by
    simp [type, HasVar, leaves, itemsLeaves, fieldsLeaves, operandsLeaves]
  exact ⟨wellFormed.parse_render, checked, closed,
    checkTemplate_render wellFormed.parse_render checked closed⟩

end SheetTypes
