import SheetTypes.Proofs.Store.Enforcement
import SheetTypes.Template.Instantiation

/-!
Instantiating templates. Whatever a template is instantiated to is a type over the variables of the
store, and so are the bindings that it leaves behind. All that happens to the store is that
variables are created; only a field that is declared twice makes it fail.
-/

set_option autoImplicit false

namespace SheetTypes

open Store

variable {α : Type}

theorem lookup_cons_ite (name query : String) (value : α) (entries : List (String × α)) :
    ((name, value) :: entries).lookup query =
      if query = name then some value else entries.lookup query := by
  by_cases same : query = name
  · rw [if_pos same, same, List.lookup_cons_self]
  · rw [if_neg same, List.lookup_cons, beq_eq_false_iff_ne.mpr same]

/-- Leaving out what a name was bound to before makes no difference once it is bound anew. -/
theorem lookup_put (name query : String) (value : α) (entries : List (String × α)) :
    ((name, value) :: entries.filter fun entry => entry.1 != name).lookup query =
      if query = name then some value else entries.lookup query := by
  rw [lookup_cons_ite]
  refine ite_congr rfl (fun _ => rfl) fun differ => ?_
  induction entries with
  | nil => rfl
  | cons entry entries ih =>
    obtain ⟨key, own⟩ := entry
    by_cases same : key = name
    · subst same
      simp [List.lookup_cons, beq_eq_false_iff_ne.mpr differ, ih]
    · simp [List.lookup_cons, same, ih]

structure Bindings.Covered (bindings : Bindings) (store : Store) : Prop where
  types : ∀ entry ∈ bindings.types, store.Covers entry.2
  units : ∀ entry ∈ bindings.units, store.CoversUnit entry.2

namespace Bindings

variable {bindings : Bindings} {store before after : Store} {name : String}

theorem Covered.later (covered : bindings.Covered before) (extended : before.Extends after) :
    bindings.Covered after :=
  ⟨fun entry member => extended.covers (covered.types entry member),
    fun entry member => extended.coversUnit (covered.units entry member)⟩

theorem covered_empty (store : Store) : Bindings.empty.Covered store := by
  constructor <;> intro entry member <;> cases member

theorem Covered.putType {type : InferredType} (covered : bindings.Covered store)
    (added : store.Covers type) : (bindings.putType name type).Covered store := by
  refine ⟨fun entry member => ?_, covered.units⟩
  rcases List.mem_cons.mp member with same | old
  · rw [same]
    exact added
  · exact covered.types entry (List.mem_filter.mp old).1

theorem Covered.putUnit {unit : InferredUnit} (covered : bindings.Covered store)
    (added : store.CoversUnit unit) : (bindings.putUnit name unit).Covered store := by
  refine ⟨covered.types, fun entry member => ?_⟩
  rcases List.mem_cons.mp member with same | old
  · rw [same]
    exact added
  · exact covered.units entry (List.mem_filter.mp old).1

end Bindings

/-- What an instantiating action does from given bindings and a given store: the bindings stay over
the variables of the store, and the result is as described. -/
def Instantiates {α : Type} (bindings : Bindings) (store : Store) (action : Instantiating α)
    (post : α → Store → Prop) : Prop :=
  Yields Step store (action bindings) fun result after =>
    result.2.Covered after ∧ Outcome Harmless post result.1 after

theorem instantiating_bind_apply {β : Type} (action : Instantiating α)
    (next : α → Instantiating β) (bindings : Bindings) (store : Store) :
    ((action >>= next : Instantiating β) bindings : StateM Store _) store =
      ExceptT.bindCont next ((action bindings : StateM Store _) store).1.1
        ((action bindings : StateM Store _) store).1.2
          ((action bindings : StateM Store _) store).2 :=
  rfl

namespace Instantiates

variable {α β : Type} {bindings : Bindings} {store : Store} {action : Instantiating α}
  {post post' : α → Store → Prop}

theorem ok {value : α} (covered : bindings.Covered store) (holds : post value store) :
    Instantiates bindings store (pure value) post :=
  ⟨rfl, .refl, covered, holds⟩

theorem throw {error : TypeError} (covered : bindings.Covered store) (harmless : Harmless error) :
    Instantiates bindings store (throw error) post :=
  ⟨rfl, .refl, covered, harmless⟩

theorem lift {action : StateM Store α} (covered : bindings.Covered store)
    (yields : Yields Step store action post) :
    Instantiates bindings store (liftM action) post :=
  ⟨rfl, yields.steps, covered.later (Evolves.extends yields.steps), yields.ends⟩

theorem andThen {next : α → Instantiating β} {last : β → Store → Prop}
    (first : Instantiates bindings store action post)
    (rest : ∀ value later after, store.Evolves after → later.Covered after → post value after →
      Instantiates later after (next value) last) :
    Instantiates bindings store (action >>= next) last := by
  obtain ⟨_, steps, covered, ends⟩ := first
  have whole := instantiating_bind_apply action next bindings store
  generalize (action bindings : StateM Store _) store = result at steps covered ends whole
  obtain ⟨⟨found, later⟩, after⟩ := result
  cases found with
  | error error => exact .of_apply whole steps ⟨covered, ends⟩
  | ok value =>
    have second := rest value later after steps covered ends
    refine ⟨rfl, ?_, ?_⟩
    · rw [whole]
      exact steps.trans second.steps
    · rw [whole]
      exact second.ends

end Instantiates

namespace Template

variable {bindings : Bindings} {store : Store} {label name : String} {τ : Type}
  {fields : List (String × τ)}

theorem coversUnit_ofVar {var : UnitVar} (within : var.index < store.units.size) :
    store.CoversUnit (.ofVar var) := by
  intro next member
  rw [mem_keys_ofVar member]
  exact within

private theorem bindings_bind_apply (next : Bindings → Instantiating α) :
    (((getThe Bindings : Instantiating Bindings) >>= next) bindings : StateM Store _) store =
      (next bindings bindings : StateM Store _) store := rfl

private theorem mem_of_lookup {entries : List (String × α)} {value : α}
    (found : entries.lookup name = some value) : ∃ entry ∈ entries, entry.2 = value := by
  obtain ⟨before, after, same, _⟩ := List.lookup_eq_some_iff.mp found
  exact ⟨(name, value), by simp [same], rfl⟩

theorem instantiateTypeVar_of_bound {type : InferredType}
    (found : bindings.types.lookup name = some type) (store : Store) :
    (instantiateTypeVar name bindings : StateM Store _) store =
      ((.ok type, bindings), store) := by
  rw [instantiateTypeVar, bindings_bind_apply, found]
  rfl

theorem instantiateTypeVar_of_unbound (missing : bindings.types.lookup name = none)
    (store : Store) :
    (instantiateTypeVar name bindings : StateM Store _) store =
      ((.ok (.var ⟨store.types.size⟩), bindings.putType name (.var ⟨store.types.size⟩)),
        store.withType .none) := by
  rw [instantiateTypeVar, bindings_bind_apply, missing]
  rfl

theorem instantiateUnitVar_of_bound {unit : InferredUnit}
    (found : bindings.units.lookup name = some unit) (store : Store) :
    (instantiateUnitVar name bindings : StateM Store _) store =
      ((.ok unit, bindings), store) := by
  rw [instantiateUnitVar, bindings_bind_apply, found]
  rfl

theorem instantiateUnitVar_of_unbound (missing : bindings.units.lookup name = none)
    (store : Store) :
    (instantiateUnitVar name bindings : StateM Store _) store =
      ((.ok (.ofVar ⟨store.units.size⟩), bindings.putUnit name (.ofVar ⟨store.units.size⟩)),
        store.withUnit) := by
  rw [instantiateUnitVar, bindings_bind_apply, missing]
  rfl

private theorem instantiateTypeVar_covers (covered : bindings.Covered store) (name : String) :
    Instantiates bindings store (instantiateTypeVar name) fun type after => after.Covers type := by
  cases found : bindings.types.lookup name with
  | some type =>
    obtain ⟨entry, member, same⟩ := mem_of_lookup found
    refine .of_apply (instantiateTypeVar_of_bound found store) .refl ⟨covered, ?_⟩
    rw [← same]
    exact covered.types entry member
  | none =>
    have step : Step store (store.withType .none) := .freshType store .none
    have fresh : (store.withType .none).Covers (.var ⟨store.types.size⟩) := by
      rw [covers_var, types_size_withType]
      exact Nat.lt_succ_self _
    exact .of_apply (instantiateTypeVar_of_unbound found store) (.single step)
      ⟨(covered.later step.extends).putType fresh, fresh⟩

private theorem instantiateUnitVar_covers (covered : bindings.Covered store) (name : String) :
    Instantiates bindings store (instantiateUnitVar name)
      fun unit after => after.CoversUnit unit := by
  cases found : bindings.units.lookup name with
  | some unit =>
    obtain ⟨entry, member, same⟩ := mem_of_lookup found
    refine .of_apply (instantiateUnitVar_of_bound found store) .refl ⟨covered, ?_⟩
    rw [← same]
    exact covered.units entry member
  | none =>
    have step : Step store store.withUnit := .solve (.freshUnit store : Solving 0 _ _)
    have fresh : store.withUnit.CoversUnit (.ofVar ⟨store.units.size⟩) := by
      apply coversUnit_ofVar
      rw [units_size_withUnit]
      exact Nat.lt_succ_self _
    exact .of_apply (instantiateUnitVar_of_unbound found store) (.single step)
      ⟨(covered.later step.extends).putUnit fresh, fresh⟩

private theorem instantiatePowers_covers {product : InferredUnit} {powers : List (String × Int)}
    (covered : bindings.Covered store) (productCovered : store.CoversUnit product) :
    Instantiates bindings store (instantiatePowers product powers)
      fun unit after => after.CoversUnit unit := by
  induction powers generalizing bindings store product with
  | nil => exact .ok covered productCovered
  | cons power powers ih =>
    obtain ⟨name, number⟩ := power
    rw [instantiatePowers]
    apply (instantiateUnitVar_covers covered name).andThen
    intro unit later middle steps laterCovered unitCovered
    have extended := Evolves.extends steps
    have multiply : Yields Step middle (multiplyPower product unit number)
        fun result after => after.CoversUnit result := by
      have yields := (multiplyPower_yields product unit number).mono
        fun result after steps made =>
          (⟨Shortens.settled steps, made.1⟩ : middle.Settled after ∧ _)
      refine (yields.mono_step fun _ _ step => .solve (.adjust (.shorten step) :
        Solving 0 _ _)).mono ?_
      rintro _ after _ ⟨settled, rfl⟩ var member
      rw [settled.unitCount]
      exact (UnitTerm.mem_keys_multiply_raise member).elim
        (extended.coversUnit productCovered var) (unitCovered var)
    exact (Instantiates.lift laterCovered multiply).andThen
      fun _ _ _ _ lastCovered resultCovered => ih lastCovered resultCovered

private theorem instantiateUnit_covers (covered : bindings.Covered store) (unit : UnitTemplate) :
    Instantiates bindings store (instantiateUnit unit) fun unit after => after.CoversUnit unit := by
  refine instantiatePowers_covers covered fun var member => ?_
  cases member

open TypeTerm

/-- A template that is neither a variable nor a record is instantiated part by part. -/
theorem instantiateNode_eq {template : Template} (plain : template.isPlain = true) (node : Nat) :
    instantiateNode label node template = do
      return template.rebuild (← instantiateOperands label (node + 1) template.parts) := by
  have ofItems (items : List Template) (last : List (Operand Template UnitTemplate)) (node : Nat) :
      instantiateOperands label node (items.map .type ++ last) = do
        let made ← instantiateItems label node items
        let others ← instantiateOperands label (node + itemsCount items) last
        return made.map .type ++ others := by
    induction items generalizing node with
    | nil => simp [instantiateItems, itemsCount]
    | cons item items ih =>
      simp [instantiateOperands, instantiateItems, ih, itemsCount, Nat.add_assoc]
  cases template with
  | var name => cases plain
  | record fields => cases plain
  | tuple items =>
    have all := ofItems items [] (node + 1)
    rw [List.append_nil] at all
    simp [instantiateNode, parts, rebuild, all, instantiateOperands]
  | _ => simp [instantiateNode, parts, rebuild, ofItems, instantiateOperands]

private def Instantiable (label : String) (template : Template) : Prop :=
  ∀ ⦃bindings : Bindings⦄ ⦃store : Store⦄ (node : Nat), bindings.Covered store →
    Instantiates bindings store (instantiateNode label node template)
      fun type after => after.Covers type

theorem mem_insertField (type : τ) (fresh : fields.lookup name = none) {field : String × τ} :
    field ∈ insertField fields name type ↔ field = (name, type) ∨ field ∈ fields := by
  refine OrderedMap.mem_alterEntry_of_fresh type fun entry member => ?_
  have different := List.lookup_eq_none_iff.mp fresh entry member
  exact Ne.symm (bne_iff_ne.mp different)

theorem lookup_insertField (type : τ) (fresh : fields.lookup name = none) {query : String} :
    (insertField fields name type).lookup query = none ↔
      query ≠ name ∧ fields.lookup query = none := by
  simp only [List.lookup_eq_none_iff, mem_insertField type fresh, or_imp, forall_and, forall_eq,
    bne_iff_ne]

private theorem instantiateFields_covers {fields : List (String × Template)}
    (each : ∀ field ∈ fields, Instantiable label field.2) (record node : Nat)
    {done : List (String × InferredType)} (covered : bindings.Covered store)
    (doneCovered : ∀ field ∈ done, store.Covers field.2) :
    Instantiates bindings store (instantiateFields label record node done fields)
      fun fields after => ∀ field ∈ fields, after.Covers field.2 := by
  induction fields generalizing bindings store node done with
  | nil => exact .ok covered doneCovered
  | cons field fields ih =>
    obtain ⟨name, type⟩ := field
    obtain ⟨here, others⟩ := List.forall_mem_cons.mp each
    rw [instantiateFields]
    refine (here node covered).andThen fun made later middle steps laterCovered madeCovered => ?_
    split
    next => exact .throw laterCovered (TypeError.not_blamesStore rfl)
    next new =>
      have fresh : done.lookup name = none := Option.not_isSome_iff_eq_none.mp new
      refine ih others _ laterCovered fun other member => ?_
      rcases (mem_insertField made fresh).mp member with same | old
      · rw [same]
        exact madeCovered
      · exact (Evolves.extends steps).covers (doneCovered other old)

private theorem instantiateOperands_covers {operands : List (Operand Template UnitTemplate)}
    (each : ∀ value, .type value ∈ operands → Instantiable label value) (node : Nat)
    (covered : bindings.Covered store) :
    Instantiates bindings store (instantiateOperands label node operands)
      fun operands after => ∀ operand ∈ operands, after.CoversOperand operand := by
  induction operands generalizing bindings store node with
  | nil => exact .ok covered (by simp)
  | cons operand operands ih =>
    have others := fun node later middle =>
      @ih later middle (fun value member => each value (List.mem_cons_of_mem _ member)) node
    cases operand with
    | type value =>
      rw [instantiateOperands]
      refine (each value (List.mem_cons_self ..) node covered).andThen
        fun made later middle _ laterCovered madeCovered => ?_
      refine (others _ later middle laterCovered).andThen
        fun types last after steps lastCovered rest => ?_
      exact .ok lastCovered
        (List.forall_mem_cons.mpr ⟨(Evolves.extends steps).covers madeCovered, rest⟩)
    | unit value =>
      rw [instantiateOperands]
      refine (instantiateUnit_covers covered value).andThen
        fun made later middle _ laterCovered madeCovered => ?_
      refine (others _ later middle laterCovered).andThen
        fun types last after steps lastCovered rest => ?_
      exact .ok lastCovered
        (List.forall_mem_cons.mpr ⟨(Evolves.extends steps).coversUnit madeCovered, rest⟩)

private theorem instantiable (label : String) (template : Template) :
    Instantiable label template := by
  induction template using induction_plain with
  | var name => exact fun _ _ _ covered => instantiateTypeVar_covers covered name
  | record fields ih =>
    intro bindings store node covered
    rw [instantiateNode]
    exact (instantiateFields_covers ih node _ covered (by simp)).andThen
      fun _ _ _ _ laterCovered made => .ok laterCovered (covers_record.mpr made)
  | plain template plain ih =>
    intro bindings store node covered
    rw [instantiateNode_eq plain]
    exact (instantiateOperands_covers (fun value member => ih value (mem_children.mpr member)) _
      covered).andThen fun _ _ _ _ laterCovered made => .ok laterCovered (covers_rebuild made)

theorem instantiate_covers (label : String) (template : Template)
    (covered : bindings.Covered store) :
    Instantiates bindings store (template.instantiate label)
      fun type after => after.Covers type :=
  instantiable label template 0 covered

end Template

end SheetTypes
