import SheetTypes.Proofs.Concrete.Parts
import SheetTypes.Proofs.Registry.Invariants
import SheetTypes.Session

/-!
Opening tagged types. The tags of a concrete tagged type carry types that may have tagged types in
them, which can be opened in turn. No function comes up on the way if none is among the operands.
A type that has been checked is applied as declared throughout, and so is all that comes up when it
is opened; it can be opened exactly if the payloads of its definition are in order.
-/

set_option autoImplicit false

namespace SheetTypes

open TypeTerm

def Registry.Opens (registry : Registry) (definition : TaggedType) : Prop :=
  ∀ tag ∈ definition.tags, ∀ payload, tag.payload = some payload →
    payload.Everywhere registry.Fits

namespace ConcreteType

variable {registry : Registry} {declared : List Tag} {good : ConcreteType → Prop} {index : Nat}
  {made : List ConcreteTag} {name : String} {operands : List ConcreteOperand}
  {params : List Parameter} {seen : List String} {α β ε : Type} {change : α → Except ε β}
  {found : Option α} {lefts : List α} {related : α → β → Prop} {rights : List β}

structure Binds (params : List Parameter) (operands : List ConcreteOperand)
    (before after : ConcreteBindings) : Prop where
  kinds : List.Forall₂ Parameter.Accepts params operands
  types : ∀ entry ∈ after.types, entry ∈ before.types ∨ .type entry.2 ∈ operands
  typeVars : ∀ name, .type name ∈ params ∨ (before.types.lookup name).isSome = true →
    (after.types.lookup name).isSome = true
  unitVars : ∀ name, .unit name ∈ params ∨ (before.units.lookup name).isSome = true →
    (after.units.lookup name).isSome = true

private theorem isSome_lookup_cons {entries : List (String × α)} {query : String} {value : α} :
    (((name, value) :: entries).lookup query).isSome = true ↔
      query = name ∨ (entries.lookup query).isSome = true := by
  by_cases same : query = name
  · simp [same]
  · simp [List.lookup_cons, same, beq_eq_false_iff_ne.mpr same]

theorem binds_of_bindOperands {before after : ConcreteBindings}
    (enough : params.length = operands.length)
    (bound : bindOperands params operands before = .ok after) :
    Binds params operands before after := by
  induction operands generalizing params before with
  | nil =>
    cases List.length_eq_zero_iff.mp enough
    cases bound
    exact ⟨.nil, fun _ member => .inl member, by simp, by simp⟩
  | cons operand operands ih =>
    cases params with
    | nil => cases enough
    | cons param params =>
      have others : params.length = operands.length := Nat.succ.inj enough
      cases operand with
      | type value =>
        cases param with
        | unit name => cases bound
        | type name =>
          have rest := ih others bound
          refine ⟨.cons trivial rest.kinds, fun entry member => ?_, fun query known => ?_,
            fun query known => ?_⟩
          · rcases rest.types entry member with old | later
            · rcases List.mem_cons.mp old with same | earlier
              · rw [same]
                exact .inr List.mem_cons_self
              · exact .inl earlier
            · exact .inr (List.mem_cons_of_mem _ later)
          · refine rest.typeVars query ?_
            rw [ConcreteBindings.putType, isSome_lookup_cons]
            simpa [or_assoc, or_left_comm] using known
          · refine rest.unitVars query ?_
            simpa [ConcreteBindings.putType] using known
      | unit value =>
        cases param with
        | type name => cases bound
        | unit name =>
          have rest := ih others bound
          refine ⟨.cons trivial rest.kinds, fun entry member => ?_, fun query known => ?_,
            fun query known => ?_⟩
          · exact (rest.types entry member).imp_right (List.mem_cons_of_mem _)
          · refine rest.typeVars query ?_
            simpa [ConcreteBindings.putUnit] using known
          · refine rest.unitVars query ?_
            rw [ConcreteBindings.putUnit, isSome_lookup_cons]
            simpa [or_assoc, or_left_comm] using known

theorem exists_bindOperands (kinds : List.Forall₂ Parameter.Accepts params operands)
    (before : ConcreteBindings) : ∃ after, bindOperands params operands before = .ok after := by
  induction kinds generalizing before with
  | nil => exact ⟨before, rfl⟩
  | @cons param operand params operands accepts _ ih =>
    cases param with
    | type name =>
      cases operand with
      | type value => exact ih _
      | unit value => cases accepts
    | unit name =>
      cases operand with
      | type value => cases accepts
      | unit value => exact ih _

structure TagsOf (definition : TaggedType) (tags : List ConcreteTag) : Prop where
  names : tags.map ConcreteTag.name = definition.tagNames
  indices : tags.map ConcreteTag.index = List.range definition.tags.length
  carried : tags.map (fun tag => tag.payload.isSome) =
    definition.tags.map fun tag => tag.payload.isSome

variable {definition : TaggedType} {bindings : ConcreteBindings}

theorem mapM_eq_ok {result : Option β} (done : found.mapM change = .ok result) :
    result.isSome = found.isSome ∧
      ∀ made, result = some made → ∃ value, found = some value ∧ change value = .ok made := by
  cases found with
  | none =>
    cases done
    exact ⟨rfl, by simp⟩
  | some value =>
    obtain ⟨made, here, same⟩ := except_bind_eq_ok.mp done
    cases same
    refine ⟨rfl, fun other same => ⟨value, rfl, ?_⟩⟩
    cases same
    exact here

private theorem mapM_succeeds :
    (∃ result, found.mapM change = .ok result) ↔
      ∀ value, found = some value → ∃ made, change value = .ok made := by
  cases found with
  | none => exact ⟨fun _ => by simp, fun _ => ⟨none, rfl⟩⟩
  | some value =>
    rw [Option.mapM_some, ← bind_pure_comp, except_map_succeeds]
    simp

structure TagMade (registry : Registry) (definition : TaggedType) (bindings : ConcreteBindings)
    (origin : Tag) (tag : ConcreteTag) : Prop where
  name : tag.name = origin.name
  payload : origin.payload.mapM
    (Template.concretize registry bindings (definition.payloadLabel origin)) = .ok tag.payload

private theorem tagsFrom_made {tags : List ConcreteTag}
    (done : tagsFrom registry definition bindings index seen declared = .ok tags) :
    tags.map ConcreteTag.index = List.range' index declared.length ∧
      List.Forall₂ (TagMade registry definition bindings) declared tags := by
  induction declared generalizing index seen tags with
  | nil =>
    cases done
    exact ⟨rfl, .nil⟩
  | cons tag declared ih =>
    rw [tagsFrom] at done
    cases repeated : seen.contains tag.name with
    | true =>
      rw [repeated] at done
      cases done
    | false =>
      rw [repeated] at done
      obtain ⟨payload, here, rest⟩ := except_bind_eq_ok.mp done
      obtain ⟨others, later, same⟩ := except_bind_eq_ok.mp rest
      cases same
      obtain ⟨indices, made⟩ := ih later
      exact ⟨by simp [indices, List.range'_succ], .cons ⟨rfl, here⟩ made⟩

private theorem tagsFrom_succeeds
    (fresh : Registry.firstRepeated seen (declared.map Tag.name) = none) :
    (∃ tags, tagsFrom registry definition bindings index seen declared = .ok tags) ↔
      ∀ tag ∈ declared, ∀ payload, tag.payload = some payload →
        ∃ made, Template.concretize registry bindings (definition.payloadLabel tag) payload =
          .ok made := by
  induction declared generalizing index seen with
  | nil => simp [tagsFrom]
  | cons tag declared ih =>
    rw [List.map_cons, Registry.firstRepeated] at fresh
    rw [tagsFrom]
    cases repeated : seen.contains tag.name with
    | true =>
      rw [repeated] at fresh
      cases fresh
    | false =>
      rw [repeated] at fresh
      simp only [Bool.false_eq_true, if_false] at fresh ⊢
      rw [except_both_succeed, mapM_succeeds, ih fresh, List.forall_mem_cons]

theorem tags_eq_ok (done : tags registry name operands = .ok made) :
    ∃ definition bindings, registry.type? name = some definition ∧
      definition.params.length = operands.length ∧
      bindOperands definition.params operands .empty = .ok bindings ∧
      made.map ConcreteTag.index = List.range definition.tags.length ∧
      List.Forall₂ (TagMade registry definition bindings) definition.tags made := by
  obtain ⟨definition, found, rest⟩ := except_bind_eq_ok.mp done
  obtain ⟨bindings, bound, all⟩ := except_bind_eq_ok.mp rest
  obtain ⟨declared, enough⟩ := Registry.definitionFor_eq_ok.mp found
  obtain ⟨indices, each⟩ := tagsFrom_made all
  rw [← List.range_eq_range'] at indices
  exact ⟨definition, bindings, declared, enough, bound, indices, each⟩

private theorem map_eq_of_forall₂ {γ : Type} {first : α → γ} {second : β → γ}
    (same : ∀ left right, related left right → second right = first left)
    (paired : List.Forall₂ related lefts rights) : rights.map second = lefts.map first := by
  induction paired with
  | nil => rfl
  | cons here _ ih => rw [List.map_cons, List.map_cons, same _ _ here, ih]

private theorem exists_of_mem_forall₂ (paired : List.Forall₂ related lefts rights) :
    ∀ right ∈ rights, ∃ left ∈ lefts, related left right := by
  induction paired with
  | nil => exact List.forall_mem_nil _
  | @cons left right _ _ here _ ih =>
    refine List.forall_mem_cons.mpr ⟨⟨left, List.mem_cons_self, here⟩, fun other member => ?_⟩
    obtain ⟨origin, inside, own⟩ := ih other member
    exact ⟨origin, List.mem_cons_of_mem _ inside, own⟩

theorem tags_made (done : tags registry name operands = .ok made) :
    ∃ definition bindings, registry.type? name = some definition ∧
      Binds definition.params operands .empty bindings ∧ TagsOf definition made ∧
      ∀ tag ∈ made, ∀ payload, tag.payload = some payload →
        ∃ origin ∈ definition.tags, ∃ template, origin.payload = some template ∧
          Template.Makes registry bindings (definition.payloadLabel origin) template payload := by
  obtain ⟨definition, bindings, declared, enough, bound, indices, each⟩ := tags_eq_ok done
  refine ⟨definition, bindings, declared, binds_of_bindOperands enough bound, ?_, ?_⟩
  · refine ⟨map_eq_of_forall₂ (fun _ _ own => own.name) each, indices,
      map_eq_of_forall₂ (fun _ _ own => ?_) each⟩
    exact (mapM_eq_ok own.payload).1
  · intro tag member payload carries
    obtain ⟨origin, inside, own⟩ := exists_of_mem_forall₂ each tag member
    obtain ⟨template, same, done⟩ := (mapM_eq_ok own.payload).2 payload carries
    exact ⟨origin, inside, template, same, 0, done⟩

private theorem exists_concretePowers {powers : List (String × Int)}
    (bound : ∀ power ∈ powers, (bindings.units.lookup power.1).isSome = true)
    (product : GroundUnit) :
    ∃ ground, Template.concretePowers bindings product powers = .ok ground := by
  induction powers generalizing product with
  | nil => exact ⟨product, rfl⟩
  | cons power powers ih =>
    obtain ⟨here, others⟩ := List.forall_mem_cons.mp bound
    obtain ⟨unit, found⟩ := Option.isSome_iff_exists.mp here
    simp only [Template.concretePowers, found]
    exact ih others _

private theorem exists_concreteUnit {unit : UnitTemplate}
    (names : ∀ name ∈ unit.names.keys, registry.hasUnit name = true)
    (vars : ∀ name ∈ unit.vars.keys, (bindings.units.lookup name).isSome = true) :
    ∃ ground, Template.concreteUnit registry bindings unit = .ok ground := by
  have checked := Registry.checkUnit_eq_ok.mpr names
  unfold Template.concreteUnit
  rw [checked, except_ok_bind]
  exact exists_concretePowers
    (fun power member => vars power.1 (PowerProduct.mem_keys_of_toList member)) _

/-- A tagged type that is applied as declared can be opened exactly if all parts of the payloads
of its definition fit. -/
theorem tags_succeeds (declared : registry.Reachable)
    (found : registry.type? name = some definition)
    (kinds : List.Forall₂ Parameter.Accepts definition.params operands) :
    (∃ made, tags registry name operands = .ok made) ↔ registry.Opens definition := by
  have enough := kinds.length_eq
  obtain ⟨bindings, bound⟩ := exists_bindOperands kinds .empty
  have binds := binds_of_bindOperands enough bound
  have distinct := declared.tagsDistinct definition (List.mem_of_find?_eq_some found)
  rw [tags, Registry.definitionFor_eq_ok.mpr ⟨found, enough⟩, except_ok_bind, bound,
    except_ok_bind, tagsFrom_succeeds distinct]
  refine forall₂_congr fun tag member => forall₂_congr fun payload carries => ?_
  have admits := declared.consistent.payloads name definition found tag member payload carries
  refine Template.concreteNode_succeeds declared.tagsDistinct (fun var has => ?_)
    (fun unit has => exists_concreteUnit (admits.units unit has) fun var inside => ?_) 0
  · exact binds.typeVars var (.inl (admits.typeVars var has))
  · exact binds.unitVars var (.inl (admits.unitVars unit has var inside))

/-- The types that come up when tagged types are opened, one after the other: the payloads of the
tags of any tagged type inside a type that has come up. -/
inductive Unfolds (registry : Registry) (start : ConcreteType) : ConcreteType → Prop where
  | start : Unfolds registry start start
  | payload {type payload : ConcreteType} {name : String} {operands : List ConcreteOperand}
      {made : List ConcreteTag} {tag : ConcreteTag} (reached : Unfolds registry start type)
      (inside : type.Contains (.tagged name operands))
      (opened : tags registry name operands = .ok made) (member : tag ∈ made)
      (carries : tag.payload = some payload) : Unfolds registry start payload

private theorem everywhere_payload {type payload : ConcreteType} {tag : ConcreteTag}
    (parts : ∀ name definition, registry.type? name = some definition →
      ∀ origin ∈ definition.tags, ∀ template, origin.payload = some template →
        ∀ source, template.Contains source → ∀ makes result,
          MadeFrom registry makes source result → good result) (here : type.Everywhere good)
    (inside : type.Contains (.tagged name operands))
    (opened : tags registry name operands = .ok made) (member : tag ∈ made)
    (carries : tag.payload = some payload) : payload.Everywhere good := by
  obtain ⟨definition, bindings, found, binds, _, origins⟩ := tags_made opened
  obtain ⟨origin, declared, template, own, makes⟩ := origins tag member payload carries
  refine everywhere_of_made (fun _ _ => Template.makes_step) (fun var has result done => ?_)
    (fun source contains => parts name definition found origin declared template own source contains
      _) makes
  obtain ⟨node, done⟩ := done
  rw [Template.concreteNode] at done
  cases known : bindings.types.lookup var with
  | none =>
    rw [known] at done
    cases done
  | some bound =>
    rw [known] at done
    cases done
    obtain ⟨before, after, same, _⟩ := List.lookup_eq_some_iff.mp known
    have entry : (var, result) ∈ bindings.types := by simp [same]
    have operand := (binds.types _ entry).resolve_left List.not_mem_nil
    intro part contains
    exact here part (inside.trans (.of_child (mem_operandTypes.mpr operand) contains))

theorem Unfolds.everywhere {start reached : ConcreteType}
    (parts : ∀ name definition, registry.type? name = some definition →
      ∀ origin ∈ definition.tags, ∀ template, origin.payload = some template →
        ∀ source, template.Contains source → ∀ makes result,
          MadeFrom registry makes source result → good result) (here : start.Everywhere good)
    (unfolds : Unfolds registry start reached) : reached.Everywhere good := by
  induction unfolds with
  | start => exact here
  | payload _ inside opened member carries ih =>
    exact everywhere_payload parts ih inside opened member carries

/-- No function comes up when a tagged type is opened whose operands have none in them. -/
theorem unfolds_functionFree (declared : registry.Reachable) {name : String}
    {operands : List ConcreteOperand}
    (plain : ∀ value, .type value ∈ operands → value.hasFunction = false)
    {reached : ConcreteType} (unfolds : Unfolds registry (.tagged name operands) reached) :
    reached.hasFunction = false := by
  rw [hasFunction_eq_false_iff]
  refine unfolds.everywhere ?_ ?_
  · intro name definition found origin member template carries source contains makes result made
    have admits :=
      declared.consistent.payloads name definition found origin member template carries
    intro params last same
    have function := made.function params last same
    have free := hasFunction_eq_false_iff.mp admits.functionFree
    have none : source.hasFunction = false :=
      hasFunction_eq_false_iff.mpr fun part inside => free part (contains.trans inside)
    rw [none] at function
    cases function
  · refine everywhere_iff.mpr ⟨by simp, fun child member => ?_⟩
    exact hasFunction_eq_false_iff.mp (plain child (mem_operandTypes.mp member))

/-- A list whose items grow: each tail is a list of arrays of what the list holds. -/
theorem unfolds_functionFree_nested :
    let definition : TaggedType := ⟨"Nested", [.type "t"], [⟨"Nil", none⟩,
      ⟨"Cons", some (.tuple [.var "t", .tagged "Nested" [.type (.array (.var "t"))]])⟩]⟩
    let registry := Registry.builtin.after (.type definition)
    let second : ConcreteType :=
      .tuple [.array .text, .tagged "Nested" [.type (.array (.array .text))]]
    Unfolds registry (.tagged "Nested" [.type .text]) second ∧ second.hasFunction = false := by
  intro definition registry second
  have first : tags registry "Nested" [.type .text] = .ok [⟨"Nil", 0, none⟩,
      ⟨"Cons", 1, some (.tuple [.text, .tagged "Nested" [.type (.array .text)]])⟩] := by rfl
  have again : tags registry "Nested" [.type (.array .text)] =
      .ok [⟨"Nil", 0, none⟩, ⟨"Cons", 1, some second⟩] := by rfl
  have twice : Unfolds registry (.tagged "Nested" [.type .text]) second := by
    refine .payload (.payload .start (.refl _) first (.tail _ (.head _)) rfl) ?_ again
      (.tail _ (.head _)) rfl
    exact .of_child (.tail _ (.head _)) (.refl _)
  exact ⟨twice, unfolds_functionFree (.after .builtin _) (by simp [hasFunction]) twice⟩

end ConcreteType

namespace Registry

variable {registry : Registry} {result type : ConcreteType} {store : Store}

/-- Concrete types that have been checked: those of templates and of inferred types. -/
inductive Checked (registry : Registry) : ConcreteType → Prop where
  | template {options : CheckOptions} {label : String} {template : Template} {type : ConcreteType}
      (done : checkTemplate registry options label template = .ok type) : Checked registry type
  | inferred {store : Store} {allowDefaults : Bool} {inferred : InferredType} {type : ConcreteType}
      (done : store.concretize registry allowDefaults inferred = .ok type) : Checked registry type

def Applied (registry : Registry) (type : ConcreteType) : Prop :=
  type.Everywhere fun part => ∀ name operands, part = .tagged name operands →
    registry.Takes name operands

private theorem applied_concreteTerm {onVar : TypeVar → Except TypeError ConcreteType}
    {onUnit : InferredUnit → Except TypeError GroundUnit} {type : InferredType}
    (vars : ∀ var result, onVar var = .ok result → registry.Applied result)
    (done : Store.concreteTerm registry onVar onUnit type = .ok result) :
    registry.Applied result := by
  refine everywhere_of_made (fun _ _ => Store.concreteTerm_step) (fun var _ result own => ?_)
    (fun _ _ _ made => made.tagged) done
  rw [Store.concreteTerm] at own
  exact vars var result own

private theorem applied_void : registry.Applied ConcreteType.void :=
  everywhere_iff.mpr ⟨by simp [ConcreteType.void], List.forall_mem_nil _⟩

private theorem applied_concreteVar {allowDefaults : Bool} {links : Nat} {var : TypeVar}
    (done : store.concreteVar registry allowDefaults links var = .ok result) :
    registry.Applied result := by
  induction links generalizing var result with
  | zero =>
    rw [Store.concreteVar] at done
    cases linked : store.typeLink? var with
    | none =>
      simp only [linked] at done
      split at done
      · cases done
        exact applied_void
      · cases done
    | some target =>
      simp only [linked] at done
      cases done
  | succ links ih =>
    rw [Store.concreteVar] at done
    cases linked : store.typeLink? var with
    | none =>
      simp only [linked] at done
      split at done
      · cases done
        exact applied_void
      · cases done
    | some target =>
      simp only [linked] at done
      exact applied_concreteTerm (fun _ _ => ih) done

theorem checkTemplate_eq_ok {options : CheckOptions} {label : String} {template : Template}
    {result : Except TypeError InferredType} {bindings : Bindings}
    (made : (template.instantiate label).run.run .empty .empty = ((result, bindings), store)) :
    checkTemplate registry options label template = .ok type ↔
      ∃ inferred, result = .ok inferred ∧
        store.concretize registry options.allowDefaults inferred = .ok type := by
  let session := Session.start registry options
  let later : Session := { session with store }
  have instantiated : (Session.instantiateWith label template).run.run .empty session =
      (((Session.escalate result later).1, bindings), later) := by
    simp only [Session.instantiateWith, Session.onStore, ExceptT.run_mk, StateT.run, modifyGet,
      MonadStateOf.modifyGet, bind, StateT.bind, StateT.modifyGet]
    have run : ExceptT.run (template.instantiate label) .empty session.store =
        ((result, bindings), store) := made
    rw [run]
    cases result <;> rfl
  change ((Session.concretizeTemplate label template).run.run .empty session).1.1 = .ok type ↔ _
  rw [Session.concretizeTemplate, ExceptT.run_mk]
  simp only [StateT.run, bind, StateT.bind] at instantiated ⊢
  rw [instantiated]
  cases result with
  | error error =>
    constructor
    · intro done
      cases done
    · rintro ⟨_, impossible, _⟩
      cases impossible
  | ok inferred =>
    have read : Session.escalate (.ok inferred) later = (.ok inferred, later) := rfl
    have ended : ExceptT.run (Session.concretize inferred) later =
        Session.escalate (store.concretize registry options.allowDefaults inferred) later := rfl
    rw [read]
    simp only [StateT.bind, ended, Except.ok.injEq, exists_eq_left']
    cases outcome : store.concretize registry options.allowDefaults inferred with
    | ok found =>
      have passed : Session.escalate (.ok found : Except TypeError ConcreteType) later =
          (.ok found, later) := rfl
      rw [passed, Except.ok.injEq]
      exact Iff.of_eq (Except.ok.injEq found type)
    | error error =>
      have failed : Session.escalate (.error error : Except TypeError ConcreteType) later =
          (.error (error.escalate options.abortOnInternal), later) := rfl
      rw [failed]
      cases error.escalate options.abortOnInternal with
      | error reason => exact iff_of_false except_error_ne_ok except_error_ne_ok
      | abort message => exact iff_of_false except_error_ne_ok except_error_ne_ok

theorem Checked.applied (checked : registry.Checked type) : registry.Applied type := by
  cases checked with
  | template done =>
    obtain ⟨inferred, _, done⟩ := (checkTemplate_eq_ok rfl).mp done
    exact applied_concreteTerm (fun _ _ => applied_concreteVar) done
  | inferred done => exact applied_concreteTerm (fun _ _ => applied_concreteVar) done

/-- A tagged type that comes up in opening a checked type can be opened exactly if all parts of the
payloads of its definition fit, and then it has the tags of the definition in their order. -/
theorem checked_opens_iff (declared : registry.Reachable) {type reached : ConcreteType}
    (checked : registry.Checked type) (unfolds : ConcreteType.Unfolds registry type reached)
    {name : String} {operands : List ConcreteOperand}
    (inside : reached.Contains (.tagged name operands)) :
    ∃ definition, registry.type? name = some definition ∧
      ((∃ made, ConcreteType.tags registry name operands = .ok made) ↔
        registry.Opens definition) ∧
      ∀ made, ConcreteType.tags registry name operands = .ok made →
        ConcreteType.TagsOf definition made := by
  have applied : registry.Applied reached :=
    unfolds.everywhere (fun _ _ _ _ _ _ _ _ _ _ _ made => made.tagged) checked.applied
  obtain ⟨definition, found, kinds⟩ := applied _ inside name operands rfl
  refine ⟨definition, found, ConcreteType.tags_succeeds declared found kinds, fun made done => ?_⟩
  obtain ⟨other, _, known, _, tagsOf, _⟩ := ConcreteType.tags_made done
  cases found.symm.trans known
  exact tagsOf

/-- An optional record with an optional field: what comes up in opening it can be opened. -/
theorem checked_opens_iff_optional :
    let inner : ConcreteType := .record [("x", .tagged "Optional" [.type .text])]
    let type : ConcreteType := .tagged "Optional" [.type inner]
    Registry.builtin.Checked type ∧ ConcreteType.Unfolds .builtin type inner ∧
      ∃ made, ConcreteType.tags .builtin "Optional" [.type .text] = .ok made := by
  intro inner type
  have done : checkTemplate .builtin {} "type"
      (.tagged "Optional" [.type (.record [("x", .tagged "Optional" [.type .text])])]) =
        .ok type := by rfl
  have opened : ConcreteType.tags .builtin "Optional" [.type inner] =
      .ok [⟨"None", 0, none⟩, ⟨"Is", 1, some inner⟩] := by rfl
  have unfolds : ConcreteType.Unfolds .builtin type inner :=
    .payload .start (.refl _) opened (.tail _ (.head _)) rfl
  have inside : inner.Contains (.tagged "Optional" [.type .text]) := .of_child (.head _) (.refl _)
  obtain ⟨definition, found, opens, _⟩ :=
    checked_opens_iff .builtin (.template done) unfolds inside
  cases found
  refine ⟨.template done, unfolds, opens.mpr fun tag member payload carries => ?_⟩
  rcases List.mem_cons.mp member with none | last
  · rw [none] at carries
    cases carries
  · rw [List.mem_singleton.mp last] at carries
    cases carries
    exact everywhere_iff.mpr ⟨trivial, List.forall_mem_nil _⟩

/-- A type whose payload applies another type to too few operands passes all checks, and cannot be
opened. -/
theorem checked_unopened :
    let definition : TaggedType := ⟨"Wrap", [], [⟨"A", some (.tagged "Optional" [])⟩]⟩
    let registry := Registry.builtin.after (.type definition)
    registry.Reachable ∧ registry.hasType "Wrap" = true ∧
      checkTemplate registry {} "type" (.tagged "Wrap" []) = .ok (.tagged "Wrap" []) ∧
      ConcreteType.tags registry "Wrap" [] =
        .error (.ofCause (.arityMismatch "Optional" 1 0)) :=
  ⟨.after .builtin _, by decide +kernel, by rfl, by rfl⟩

end Registry

end SheetTypes
