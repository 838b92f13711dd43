import SheetTypes.Proofs.Concrete.Checked
import SheetTypes.Proofs.Concrete.Form
import SheetTypes.Proofs.Registry.Reachability
import SheetTypes.Proofs.Session.Instantiation

/-!
Two ways to a concrete type. A template whose variables are all bound is instantiated and the
instance is made concrete, or it is made concrete at once. If the two ways agree on its variables
and its units, they agree on the whole template.
-/

set_option autoImplicit false

namespace SheetTypes

open Store

/-- What an action does that finds all variables bound: nothing but to note, whatever the store,
whether an exponent has stopped at the limit. Unless one has, its result is as described. -/
def Evaluates {α : Type} (bindings : Bindings) (action : Instantiating α)
    (post : Except TypeError α → Prop) : Prop :=
  ∃ result within,
    (∀ store : Store, (action bindings : StateM Store _) store =
      ((result, bindings), ⟨store.types, store.units, store.exact && within⟩)) ∧
    (within = true → post result)

namespace Evaluates

variable {α β : Type} {bindings : Bindings} {action : Instantiating α}
  {post post' : Except TypeError α → Prop}

theorem of_result {result : Except TypeError α}
    (done : ∀ store : Store, (action bindings : StateM Store _) store = ((result, bindings), store))
    (holds : post result) : Evaluates bindings action post := by
  refine ⟨result, true, fun store => ?_, fun _ => holds⟩
  rw [done, Bool.and_true]

theorem ok {value : α} (holds : post (.ok value)) : Evaluates bindings (pure value) post :=
  .of_result (fun _ => rfl) holds

theorem mono (evaluates : Evaluates bindings action post)
    (weaker : ∀ result, post result → post' result) : Evaluates bindings action post' := by
  obtain ⟨result, within, runs, holds⟩ := evaluates
  exact ⟨result, within, runs, fun exact => weaker result (holds exact)⟩

theorem andThen {next : α → Instantiating β} {last : Except TypeError β → Prop}
    (first : Evaluates bindings action post)
    (stops : ∀ error, post (.error error) → last (.error error))
    (rest : ∀ value, Evaluates bindings (next value) fun result =>
      post (.ok value) → last result) :
    Evaluates bindings (action >>= next) last := by
  obtain ⟨result, within, runs, holds⟩ := first
  have whole (store : Store) :
      ((action >>= next : Instantiating β) bindings : StateM Store _) store =
        ExceptT.bindCont next result bindings
          ⟨store.types, store.units, store.exact && within⟩ := by
    change ExceptT.bindCont next ((action bindings : StateM Store _) store).1.1
      ((action bindings : StateM Store _) store).1.2
      ((action bindings : StateM Store _) store).2 = _
    rw [runs]
  cases result with
  | error error => exact ⟨.error error, within, whole, fun exact => stops error (holds exact)⟩
  | ok value =>
    obtain ⟨found, later, continues, holdsLater⟩ := rest value
    refine ⟨found, within && later, fun store => ?_, fun exact => ?_⟩
    · rw [whole]
      refine (continues _).trans ?_
      rw [Bool.and_assoc]
    · obtain ⟨before, after⟩ := Bool.and_eq_true_iff.mp exact
      exact holdsLater after (holds before)

end Evaluates

section Agreement

variable {α β γ δ α' β' : Type} {complaint : TypeError} {assumed : Prop} {bindings : Bindings}
  {action : Instantiating α} {direct : Except TypeError β} {walk : α → Except TypeError β}
  {walkWhole : α' → Except TypeError β'}

/-- Whether making the instance concrete agrees with making the template concrete at once. The two
results need only be equal under the given assumption. -/
def Agrees (complaint : TypeError) (assumed : Prop) (walk : α → Except TypeError β)
    (direct : Except TypeError β) (result : Except TypeError α) : Prop :=
  Results (fun _ => ∀ made, direct ≠ .ok made)
    (fun value => Mirrors complaint (fun made found => assumed → made = found) (walk value) direct)
    result

theorem not_bind_ok {next : β → Except TypeError δ} (fails : ∀ made, direct ≠ .ok made)
    (result : δ) : (direct >>= next) ≠ .ok result := by
  intro done
  obtain ⟨made, first, _⟩ := except_bind_eq_ok.mp done
  exact fails made first

/-- One part makes the whole, on both sides alike. -/
theorem Evaluates.map {make : α → α'} {build : β → β'}
    (part : Evaluates bindings action (Agrees complaint assumed walk direct))
    (walks : ∀ value, walkWhole (make value) = walk value >>= fun made => pure (build made)) :
    Evaluates bindings (action >>= fun value => pure (make value))
      (Agrees complaint assumed walkWhole (direct >>= fun made => pure (build made))) := by
  refine part.andThen (fun _ fails => not_bind_ok fails) fun value => .ok fun mirrors => ?_
  change Mirrors complaint _ (walkWhole (make value)) _
  rw [walks]
  exact mirrors.bind fun made found same => .ok fun holds => congrArg build (same holds)

/-- Two parts make the whole, on both sides alike. -/
theorem Evaluates.pair {other : Instantiating γ} {otherWalk : γ → Except TypeError δ}
    {otherDirect : Except TypeError δ} {make : α → γ → α'} {build : β → δ → β'}
    (part : Evaluates bindings action (Agrees complaint assumed walk direct))
    (otherPart : Evaluates bindings other (Agrees complaint assumed otherWalk otherDirect))
    (walks : ∀ value rest, walkWhole (make value rest) =
      walk value >>= fun made => otherWalk rest >>= fun more => pure (build made more)) :
    Evaluates bindings (action >>= fun value => other >>= fun rest => pure (make value rest))
      (Agrees complaint assumed walkWhole
        (direct >>= fun made => otherDirect >>= fun more => pure (build made more))) := by
  refine part.andThen (fun _ fails => not_bind_ok fails) fun value => ?_
  refine otherPart.andThen (fun _ fails _ whole done => ?_) fun rest => .ok fun more mirrors => ?_
  · obtain ⟨made, _, later⟩ := except_bind_eq_ok.mp done
    exact not_bind_ok fails whole later
  · change Mirrors complaint _ (walkWhole (make value rest)) _
    rw [walks]
    refine mirrors.bind fun made found same => Mirrors.bind more fun last lastFound lastSame => ?_
    exact .ok fun holds => by rw [same holds, lastSame holds]

end Agreement

variable {registry : Registry}

theorem Registry.checkUnit_eq_ok {unit : GroundUnit} :
    registry.checkUnit unit = .ok () ↔ ∀ name ∈ unit.keys, registry.hasUnit name = true := by
  unfold checkUnit
  cases found : unit.keys.find? fun name => !registry.hasUnit name with
  | none => simpa using found
  | some name =>
    have undeclared := List.find?_some found
    constructor
    · intro impossible
      cases impossible
    · intro declared
      rw [declared name (List.mem_of_find?_eq_some found)] at undeclared
      cases undeclared

/-- What is compared: instances made with bindings, whose leaves are made concrete by the given
functions, and templates made concrete at once. -/
structure Comparison where
  registry : Registry
  bindings : Bindings
  gamma : ConcreteBindings
  label : String
  other : String
  complaint : TypeError
  assumed : Prop
  onVar : TypeVar → Except TypeError ConcreteType
  onUnit : InferredUnit → Except TypeError GroundUnit

namespace Comparison

variable {comparison : Comparison}

abbrev PartAgrees {α β : Type} (comparison : Comparison) (action : Instantiating α)
    (walk : α → Except TypeError β) (direct : Except TypeError β) : Prop :=
  Evaluates comparison.bindings action
    (Agrees comparison.complaint comparison.assumed walk direct)

def UnitAgrees (comparison : Comparison) (unit : UnitTemplate) : Prop :=
  comparison.PartAgrees (Template.instantiateUnit unit) comparison.onUnit
    (Template.concreteUnit comparison.registry comparison.gamma unit)

def TemplateAgrees (comparison : Comparison) (template : Template) : Prop :=
  ∀ node, comparison.PartAgrees (Template.instantiateNode comparison.label node template)
    (concreteTerm comparison.registry comparison.onVar comparison.onUnit)
    (Template.concreteNode comparison.registry comparison.gamma comparison.other node template)

private theorem items_agree {items : List Template}
    (each : ∀ item ∈ items, comparison.TemplateAgrees item) (node : Nat) :
    comparison.PartAgrees (Template.instantiateItems comparison.label node items)
      (concreteTerms comparison.registry comparison.onVar comparison.onUnit)
      (Template.concreteItems comparison.registry comparison.gamma comparison.other node
        items) := by
  induction items generalizing node with
  | nil => exact .ok (Mirrors.ok fun _ => rfl)
  | cons item items ih =>
    obtain ⟨here, others⟩ := List.forall_mem_cons.mp each
    rw [Template.instantiateItems, Template.concreteItems]
    exact (here node).pair (ih others _) fun _ _ => rfl

abbrev Aligned (comparison : Comparison) :
    List (String × InferredType) → List (String × ConcreteType) → Prop :=
  List.Forall₂ fun field found => field.1 = found.1 ∧
    Mirrors comparison.complaint (fun made found => comparison.assumed → made = found)
      (concreteTerm comparison.registry comparison.onVar comparison.onUnit field.2) (.ok found.2)

variable {done : List (String × InferredType)} {made : List (String × ConcreteType)}
  {name : String} {type : InferredType}

private theorem aligned_lookup (aligned : comparison.Aligned done made) :
    (done.lookup name).isSome = (made.lookup name).isSome := by
  induction aligned with
  | nil => rfl
  | @cons field found _ _ same _ ih =>
    obtain ⟨here, _⟩ := field
    obtain ⟨there, _⟩ := found
    obtain ⟨rfl, _⟩ := same
    rw [List.lookup_cons, List.lookup_cons]
    cases name == here with
    | true => rfl
    | false => exact ih

private theorem aligned_insertField {found : ConcreteType} (aligned : comparison.Aligned done made)
    (mirrors : Mirrors comparison.complaint (fun made found => comparison.assumed → made = found)
      (concreteTerm comparison.registry comparison.onVar comparison.onUnit type) (.ok found)) :
    comparison.Aligned (insertField done name type) (insertField made name found) := by
  unfold insertField
  induction aligned with
  | nil => exact .cons ⟨rfl, mirrors⟩ .nil
  | @cons field found _ _ same rest ih =>
    obtain ⟨here, _⟩ := field
    obtain ⟨there, _⟩ := found
    obtain ⟨rfl, own⟩ := same
    simp only [OrderedMap.alterEntry]
    cases compare name here with
    | lt => exact .cons ⟨rfl, mirrors⟩ (.cons ⟨rfl, own⟩ rest)
    | eq => exact .cons ⟨rfl, mirrors⟩ rest
    | gt => exact .cons ⟨rfl, own⟩ ih

private theorem aligned_record (aligned : comparison.Aligned done made) :
    Mirrors comparison.complaint (fun made found => comparison.assumed → made = found)
      (concreteRecord comparison.registry comparison.onVar comparison.onUnit done) (.ok made) := by
  induction aligned with
  | nil => exact .ok fun _ => rfl
  | @cons field found _ rest same _ ih =>
    obtain ⟨here, _⟩ := field
    obtain ⟨there, value⟩ := found
    obtain ⟨rfl, own⟩ := same
    rw [concreteRecord]
    change Mirrors _ _ _ ((Except.ok value : Except TypeError _) >>= fun first =>
      (Except.ok rest : Except TypeError _) >>= fun others => pure ((here, first) :: others))
    refine own.bind fun first firstFound sameFirst => ?_
    refine ih.bind fun others othersFound sameOthers => ?_
    exact .ok fun holds => by rw [sameFirst holds, sameOthers holds]

private theorem exists_of_concreteRecord {onVar : TypeVar → Except TypeError ConcreteType}
    {onUnit : InferredUnit → Except TypeError GroundUnit} {fields : List (String × InferredType)}
    {results : List (String × ConcreteType)}
    (done : concreteRecord registry onVar onUnit fields = .ok results)
    {field : String × InferredType} (member : field ∈ fields) :
    ∃ result, concreteTerm registry onVar onUnit field.2 = .ok result := by
  have whole : concreteTerm registry onVar onUnit (.record fields) = .ok (.record results) :=
    except_map_eq_ok.mpr ⟨results, done, rfl⟩
  obtain ⟨ready, _⟩ := (concreteTerm_eq_ok _).mp whole
  exact ⟨_, (concreteTerm_eq_ok _).mpr ⟨ready.below (List.mem_map_of_mem member), rfl⟩⟩

private theorem fields_agree {fields : List (String × Template)}
    (each : ∀ field ∈ fields, comparison.TemplateAgrees field.2) (record node : Nat)
    (done : List (String × InferredType)) :
    Evaluates comparison.bindings
      (Template.instantiateFields comparison.label record node done fields) fun result =>
        (∀ made, comparison.Aligned done made →
          Agrees comparison.complaint comparison.assumed
            (concreteRecord comparison.registry comparison.onVar comparison.onUnit)
            (Template.concreteFields comparison.registry comparison.gamma comparison.other record
              node made fields) result) ∧
        ∀ types, result = .ok types → ∀ field ∈ done, field ∈ types := by
  induction fields generalizing node done with
  | nil =>
    refine .ok ⟨fun made aligned => aligned_record aligned, fun types same => ?_⟩
    cases same
    exact fun _ member => member
  | cons field fields ih =>
    obtain ⟨name, template⟩ := field
    obtain ⟨here, others⟩ := List.forall_mem_cons.mp each
    rw [Template.instantiateFields]
    refine (here node).andThen
      (fun error fails => ⟨fun made aligned => ?_, fun _ same => absurd same except_error_ne_ok⟩)
      fun type => ?_
    · rw [Template.concreteFields]
      exact not_bind_ok fails
    cases known : (done.lookup name).isSome with
    | true =>
      refine .of_result (fun _ => rfl) fun _ => ⟨fun made aligned whole done => ?_,
        fun _ same => absurd same except_error_ne_ok⟩
      rw [Template.concreteFields] at done
      obtain ⟨_, _, rest⟩ := except_bind_eq_ok.mp done
      rw [← aligned_lookup aligned, known] at rest
      cases rest
    | false =>
      have fresh : done.lookup name = none := by simpa using known
      refine (ih others _ _).mono fun result rest agrees => ⟨fun made aligned => ?_, ?_⟩
      · rw [Template.concreteFields]
        cases direct : Template.concreteNode comparison.registry comparison.gamma
            comparison.other node template with
        | ok found =>
          rw [direct] at agrees
          rw [except_ok_bind, ← aligned_lookup aligned, known]
          exact rest.1 _ (aligned_insertField aligned agrees)
        | error error =>
          cases result with
          | error _ => exact fun _ => except_error_ne_ok
          | ok types =>
            refine .fails (fun _ whole => ?_) fun _ => except_error_ne_ok
            obtain ⟨result, own⟩ := exists_of_concreteRecord whole
              (rest.2 types rfl _ ((Template.mem_insertField type fresh).mpr (.inl rfl)))
            rw [direct] at agrees
            rcases agrees with complains | ⟨forward, _⟩
            · cases own.symm.trans complains
            · obtain ⟨_, impossible, _⟩ := forward result own
              cases impossible
      · intro types same field member
        exact rest.2 types same field ((Template.mem_insertField type fresh).mpr (.inr member))

def OperandsAgree (comparison : Comparison)
    (direct : List Parameter → Except TypeError (List ConcreteOperand)) (count : Nat)
    (result : Except TypeError (List (Operand InferredType InferredUnit))) : Prop :=
  (∀ params : List Parameter, params.length = count →
    Agrees comparison.complaint comparison.assumed
      (concreteOperands comparison.registry comparison.onVar comparison.onUnit params)
      (direct params) result) ∧
  ∀ instances, result = .ok instances → instances.length = count

def KindsAgree {α β : Type} (comparison : Comparison) (walk : α → Except TypeError β)
    (direct : Except TypeError β) (make : α → Operand InferredType InferredUnit)
    (build : β → ConcreteOperand)
    (whole rest : List Parameter → Except TypeError (List ConcreteOperand)) : Prop :=
  ∀ param params,
    (whole (param :: params) = (direct >>= fun made => rest params >>= fun more =>
        pure (build made :: more)) ∧
      ∀ value instances,
        concreteOperands comparison.registry comparison.onVar comparison.onUnit (param :: params)
            (make value :: instances) =
          (walk value >>= fun made =>
            concreteOperands comparison.registry comparison.onVar comparison.onUnit params
              instances >>= fun more => pure (build made :: more))) ∨
    (∀ result, whole (param :: params) ≠ .ok result) ∧
      ∀ value instances result,
        concreteOperands comparison.registry comparison.onVar comparison.onUnit (param :: params)
          (make value :: instances) ≠ .ok result

private theorem operands_agree_cons {α β : Type} {action : Instantiating α}
    {walk : α → Except TypeError β} {direct : Except TypeError β}
    {others : Instantiating (List (Operand InferredType InferredUnit))}
    {whole rest : List Parameter → Except TypeError (List ConcreteOperand)} {count : Nat}
    {make : α → Operand InferredType InferredUnit} (build : β → ConcreteOperand)
    (part : comparison.PartAgrees action walk direct)
    (later : Evaluates comparison.bindings others (comparison.OperandsAgree rest count))
    (kinds : comparison.KindsAgree walk direct make build whole rest) :
    Evaluates comparison.bindings
      (action >>= fun value => others >>= fun instances => pure (make value :: instances))
      (comparison.OperandsAgree whole (count + 1)) := by
  refine part.andThen
    (fun _ fails => ⟨fun params enough => ?_, fun _ same => absurd same except_error_ne_ok⟩)
    fun value => later.andThen
      (fun _ fails _ => ⟨fun params enough => ?_, fun _ same => absurd same except_error_ne_ok⟩)
      fun instances => .ok fun more first => ⟨fun params enough => ?_, fun _ same => ?_⟩
  · cases params with
    | nil => cases enough
    | cons param params =>
      rcases kinds param params with ⟨same, _⟩ | ⟨refused, _⟩
      · rw [same]
        exact not_bind_ok fails
      · exact refused
  · cases params with
    | nil => cases enough
    | cons param params =>
      rcases kinds param params with ⟨same, _⟩ | ⟨refused, _⟩
      · rw [same]
        intro result done
        obtain ⟨_, _, after⟩ := except_bind_eq_ok.mp done
        exact not_bind_ok (fails.1 params (Nat.succ.inj enough)) result after
      · exact refused
  · cases params with
    | nil => cases enough
    | cons param params =>
      change Mirrors _ _ (concreteOperands ..) _
      rcases kinds param params with ⟨same, walks⟩ | ⟨refused, refusedWalk⟩
      · rw [same, walks]
        refine Mirrors.bind first fun made found sameMade => ?_
        refine Mirrors.bind (more.1 params (Nat.succ.inj enough))
          fun last lastFound sameLast => ?_
        exact .ok fun holds => by rw [sameMade holds, sameLast holds]
      · exact .fails (refusedWalk value instances) refused
  · cases same
    exact congrArg (· + 1) (more.2 instances rfl)

private theorem operands_agree {operands : List (Operand Template UnitTemplate)}
    (types : ∀ value, .type value ∈ operands → comparison.TemplateAgrees value)
    (units : ∀ unit, .unit unit ∈ operands → comparison.UnitAgrees unit) (node : Nat) :
    Evaluates comparison.bindings (Template.instantiateOperands comparison.label node operands)
      (comparison.OperandsAgree
        (fun params => Template.concreteOperands comparison.registry comparison.gamma
          comparison.other node params operands)
        operands.length) := by
  induction operands generalizing node with
  | nil =>
    refine .ok ⟨fun params enough => ?_, fun _ same => ?_⟩
    · rw [List.length_eq_zero_iff.mp enough]
      exact .ok fun _ => rfl
    · cases same
      rfl
  | cons operand operands ih =>
    have rest (node : Nat) := ih (fun value member => types value (List.mem_cons_of_mem _ member))
      (fun unit member => units unit (List.mem_cons_of_mem _ member)) node
    cases operand with
    | type value =>
      rw [Template.instantiateOperands]
      refine operands_agree_cons .type (types value (List.mem_cons_self ..) node) (rest _) ?_
      intro param params
      cases param with
      | type name => exact .inl ⟨rfl, fun _ _ => rfl⟩
      | unit name => exact .inr ⟨fun _ => except_error_ne_ok, fun _ _ _ => except_error_ne_ok⟩
    | unit unit =>
      rw [Template.instantiateOperands]
      refine operands_agree_cons .unit (units unit (List.mem_cons_self ..)) (rest _) ?_
      intro param params
      cases param with
      | type name => exact .inr ⟨fun _ => except_error_ne_ok, fun _ _ _ => except_error_ne_ok⟩
      | unit name => exact .inl ⟨rfl, fun _ _ => rfl⟩

def LeafAgrees (comparison : Comparison) : String ⊕ UnitTemplate → Prop
  | .inl name => comparison.TemplateAgrees (.var name)
  | .inr unit => comparison.UnitAgrees unit

open TypeTerm

theorem template_agrees (distinct : comparison.registry.TagsDistinct) {template : Template}
    (leaves : ∀ leaf ∈ template.leaves, comparison.LeafAgrees leaf) :
    comparison.TemplateAgrees template := by
  induction template using TypeTerm.induction with
  | var name => exact leaves (.inl name) (List.mem_singleton_self _)
  | number unit =>
    intro node
    have own : comparison.UnitAgrees unit := leaves (.inr unit) (List.mem_singleton_self _)
    exact own.map fun _ => rfl
  | text => exact fun node => .ok (Mirrors.ok fun _ => rfl)
  | boolean => exact fun node => .ok (Mirrors.ok fun _ => rfl)
  | date kind => exact fun node => .ok (Mirrors.ok fun _ => rfl)
  | tuple items ih =>
    intro node
    have parts := items_agree (fun item member => ih item member
      fun leaf inside => leaves leaf (mem_itemsLeaves.mpr ⟨item, member, inside⟩)) (node + 1)
    exact parts.map fun _ => rfl
  | array item ih =>
    intro node
    exact (ih leaves (node + 1)).map fun _ => rfl
  | function params result ihParams ihResult =>
    intro node
    have parts := items_agree (fun param member => ihParams param member
      fun leaf inside => leaves leaf (List.mem_append_left _
        (mem_itemsLeaves.mpr ⟨param, member, inside⟩))) (node + 1)
    have last := ihResult (fun leaf inside => leaves leaf (List.mem_append_right _ inside))
      (node + 1 + itemsCount params)
    exact parts.pair last fun _ _ => rfl
  | record fields ih =>
    intro node
    have parts := fields_agree (fun field member => ih field member
      fun leaf inside => leaves leaf (mem_fieldsLeaves.mpr ⟨field, member, inside⟩))
      node (node + 1) []
    have agrees := parts.mono fun result ends => ends.1 [] .nil
    exact agrees.map fun _ => rfl
  | tagged name operands ih =>
    intro node
    have parts := operands_agree
      (fun value member => ih value member fun leaf inside =>
        leaves leaf (mem_operandsLeaves.mpr (.inl ⟨value, member, inside⟩)))
      (fun unit member =>
        leaves (.inr unit) (mem_operandsLeaves.mpr (.inr ⟨unit, member, rfl⟩)))
      (node + 1)
    rw [Template.instantiateNode, Template.concreteNode]
    -- The walk looks the definition up after the operands, the direct way before them, so both have
    -- to fail when there is none.
    cases known : comparison.registry.definitionFor name operands.length with
    | error error =>
      refine parts.andThen (fun _ _ _ => except_error_ne_ok) fun instances => .ok fun ends => ?_
      refine Mirrors.fails (fun _ done => ?_) fun _ => except_error_ne_ok
      rw [concreteTerm, ends.2 instances rfl, known] at done
      cases done
    | ok definition =>
      obtain ⟨declared, enough⟩ := Registry.definitionFor_eq_ok.mp known
      rw [except_ok_bind, distinct definition (List.mem_of_find?_eq_some declared)]
      refine parts.andThen (fun _ fails => not_bind_ok (fails.1 definition.params enough))
        fun instances => .ok fun ends => ?_
      change Mirrors _ _ (concreteTerm ..) _
      rw [concreteTerm, ends.2 instances rfl, known, except_ok_bind]
      refine Mirrors.bind (ends.1 definition.params enough) fun made found same => ?_
      exact .ok fun holds => by rw [same holds]

end Comparison

end SheetTypes
