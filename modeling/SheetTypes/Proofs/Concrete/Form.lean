import Mathlib.Data.List.Forall2
import SheetTypes.Concrete.OfInferred
import SheetTypes.Proofs.Actions
import SheetTypes.Proofs.Template.Mentions

/-!
What a type is made into. A type is made concrete exactly if its leaves are and its tagged types are
applied as declared, and then into itself with other leaves. Else an error is that of a leaf, or
tells of a tagged type that is not applied as declared.
-/

set_option autoImplicit false

namespace SheetTypes

open TypeTerm

theorem Registry.definitionFor_eq_ok {registry : Registry} {name : String} {count : Nat}
    {definition : TaggedType} :
    registry.definitionFor name count = .ok definition ↔
      registry.type? name = some definition ∧ definition.params.length = count := by
  unfold definitionFor
  cases known : registry.type? name with
  | none => simp
  | some found =>
    by_cases enough : found.params.length = count
    · simp only [enough, if_true, Except.ok.injEq, Option.some.injEq]
      constructor
      · intro same
        exact ⟨same, same ▸ enough⟩
      · rintro ⟨same, _⟩
        exact same
    · simp only [enough, if_false, reduceCtorEq, Option.some.injEq, false_iff, not_and]
      intro same
      rw [← same]
      exact enough

def Parameter.Accepts {τ υ : Type} : Parameter → Operand τ υ → Prop
  | .type _, .type _ => True
  | .unit _, .unit _ => True
  | _, _ => False

/-- Whether a tagged type is declared and applied to operands of the kinds of its parameters. -/
def Registry.Takes {τ υ : Type} (registry : Registry) (name : String)
    (operands : List (Operand τ υ)) : Prop :=
  ∃ definition, registry.type? name = some definition ∧
    List.Forall₂ Parameter.Accepts definition.params operands

theorem Registry.Takes.map {τ υ μ ω : Type} {registry : Registry} {name : String}
    {operands : List (Operand τ υ)} (takes : registry.Takes name operands) (onType : τ → μ)
    (onUnit : υ → ω) : registry.Takes name (operands.map (Operand.map onType onUnit)) := by
  obtain ⟨definition, declared, accepts⟩ := takes
  refine ⟨definition, declared, List.forall₂_map_right_iff.mpr ?_⟩
  refine accepts.imp fun param operand => ?_
  cases param <;> cases operand <;> exact id

def Operand.parameter {τ υ : Type} : Operand τ υ → Parameter
  | .type _ => .type ""
  | .unit _ => .unit ""

/-- The parameters that the parts of a type stand for: those of the declaration for a tagged type,
and others of the same kinds otherwise. -/
def Registry.parametersOf {ν υ : Type} (registry : Registry) (type : TypeTerm ν υ) :
    Except TypeError (List Parameter) :=
  match type with
  | .tagged name operands => do return (← registry.definitionFor name operands.length).params
  | type => .ok (type.parts.map Operand.parameter)

theorem Operand.parameter_accepts {τ υ : Type} (operands : List (Operand τ υ)) :
    List.Forall₂ Parameter.Accepts (operands.map Operand.parameter) operands := by
  rw [List.forall₂_map_left_iff, List.forall₂_same]
  intro operand _
  cases operand <;> trivial

theorem Registry.takes_iff {ν υ : Type} {registry : Registry} {type : TypeTerm ν υ} :
    (∀ name operands, type = .tagged name operands → registry.Takes name operands) ↔
      ∃ params, registry.parametersOf type = .ok params ∧
        List.Forall₂ Parameter.Accepts params type.parts := by
  cases type with
  | tagged name operands =>
    simp only [parametersOf, except_map_eq_ok, definitionFor_eq_ok, tagged.injEq]
    constructor
    · intro takes
      obtain ⟨definition, declared, accepts⟩ := takes name operands ⟨rfl, rfl⟩
      exact ⟨_, ⟨definition, ⟨declared, accepts.length_eq⟩, rfl⟩, accepts⟩
    · rintro ⟨_, ⟨definition, ⟨declared, _⟩, rfl⟩, accepts⟩ _ _ ⟨rfl, rfl⟩
      exact ⟨definition, declared, accepts⟩
  | _ =>
    refine iff_of_true (fun _ _ impossible => ?_) ⟨_, rfl, Operand.parameter_accepts _⟩
    cases impossible

theorem Registry.length_parametersOf {ν υ : Type} {registry : Registry} {type : TypeTerm ν υ}
    {params : List Parameter} (found : registry.parametersOf type = .ok params) :
    params.length = type.parts.length := by
  cases type with
  | tagged name operands =>
    obtain ⟨definition, known, rfl⟩ := except_map_eq_ok.mp found
    exact (definitionFor_eq_ok.mp known).2
  | _ =>
    cases found
    exact List.length_map _

theorem Registry.parametersOf_substitute {ν υ μ ω : Type} {onVar : ν → TypeTerm μ ω}
    {onUnit : υ → ω} {type : TypeTerm ν υ} (registry : Registry) (compound : type.isVar = false) :
    registry.parametersOf (type.substitute onVar onUnit) = registry.parametersOf type := by
  cases type with
  | var name => cases compound
  | _ => simp [parametersOf, parts, Operand.parameter, Function.comp_def]

namespace Store

variable {registry : Registry} {onVar : TypeVar → Except TypeError ConcreteType}
  {onUnit : InferredUnit → Except TypeError GroundUnit} {type : InferredType}
  {params : List Parameter}
  {operands : List (Operand InferredType InferredUnit)}

/-- Whether the leaves of a type are made concrete and its tagged types are applied as declared. -/
def Ready (registry : Registry) (onVar : TypeVar → Except TypeError ConcreteType)
    (onUnit : InferredUnit → Except TypeError GroundUnit) (type : InferredType) : Prop :=
  type.Meets (fun var => ∃ made, onVar var = .ok made)
    (fun unit => ∃ ground, onUnit unit = .ok ground)
    fun part => ∀ name operands, part = .tagged name operands → registry.Takes name operands

def formed (onVar : TypeVar → Except TypeError ConcreteType)
    (onUnit : InferredUnit → Except TypeError GroundUnit) : InferredType → ConcreteType :=
  substitute (fun var => (onVar var).toOption.getD .void)
    fun unit => (onUnit unit).toOption.getD .one

private def concreteParts (registry : Registry) (onVar : TypeVar → Except TypeError ConcreteType)
    (onUnit : InferredUnit → Except TypeError GroundUnit)
    (parts : List (Operand InferredType InferredUnit)) : Except TypeError (List ConcreteOperand) :=
  concreteOperands registry onVar onUnit (parts.map Operand.parameter) parts

private theorem concreteParts_type (value : InferredType)
    (parts : List (Operand InferredType InferredUnit)) :
    concreteParts registry onVar onUnit (.type value :: parts) = do
      let value ← concreteTerm registry onVar onUnit value
      let others ← concreteParts registry onVar onUnit parts
      return .type value :: others := rfl

private theorem concreteParts_unit (unit : InferredUnit)
    (parts : List (Operand InferredType InferredUnit)) :
    concreteParts registry onVar onUnit (.unit unit :: parts) = do
      let unit ← onUnit unit
      let others ← concreteParts registry onVar onUnit parts
      return .unit unit :: others := rfl

/-- A type that is no variable is made concrete part by part. -/
theorem concreteTerm_eq (compound : type.isVar = false) :
    concreteTerm registry onVar onUnit type = do
      let params ← registry.parametersOf type
      let made ← concreteOperands registry onVar onUnit params type.parts
      return type.rebuild made := by
  have none : concreteParts registry onVar onUnit [] = pure [] := rfl
  have ofItems (items : List InferredType) (last : List (Operand InferredType InferredUnit)) :
      concreteParts registry onVar onUnit (items.map .type ++ last) = do
        let made ← concreteTerms registry onVar onUnit items
        let others ← concreteParts registry onVar onUnit last
        return made.map .type ++ others := by
    induction items with
    | nil => exact (bind_pure _).symm
    | cons item items ih => simp [concreteParts_type, concreteTerms, ih]
  have ofFields (fields : List (String × InferredType)) :
      concreteRecord registry onVar onUnit fields =
        (fun parts => (fields.map Prod.fst).zip (operandTypes parts)) <$>
          concreteParts registry onVar onUnit (fields.map fun field => .type field.2) := by
    induction fields with
    | nil => rfl
    | cons field fields ih => simp [concreteParts_type, concreteRecord, ih]
  by_cases tagged : ∃ name operands, type = .tagged name operands
  · obtain ⟨name, operands, rfl⟩ := tagged
    simp [concreteTerm, Registry.parametersOf, parts, rebuild]
  · have plain : registry.parametersOf type = .ok (type.parts.map Operand.parameter) := by
      cases type with
      | tagged name operands => exact absurd ⟨name, operands, rfl⟩ tagged
      | _ => rfl
    rw [plain]
    change _ = concreteParts registry onVar onUnit type.parts >>= fun made => _
    cases type with
    | var name => cases compound
    | tagged name operands => exact absurd ⟨name, operands, rfl⟩ tagged
    | tuple items =>
      have all := ofItems items []
      rw [List.append_nil] at all
      simp [concreteTerm, parts, rebuild, all, none]
    | text => rfl
    | boolean => rfl
    | date kind => rfl
    | record fields => simp [concreteTerm, parts, rebuild, ofFields]
    | _ =>
      simp [concreteTerm, parts, rebuild, ofItems, concreteParts_type, concreteParts_unit, none]

private theorem concreteOperands_eq_ok (enough : params.length = operands.length)
    (types : ∀ value, .type value ∈ operands → ∀ result,
      concreteTerm registry onVar onUnit value = .ok result ↔
        Ready registry onVar onUnit value ∧ formed onVar onUnit value = result)
    (results : List ConcreteOperand) :
    concreteOperands registry onVar onUnit params operands = .ok results ↔
      (List.Forall₂ Parameter.Accepts params operands ∧
        (∀ value, .type value ∈ operands → Ready registry onVar onUnit value) ∧
        ∀ unit, .unit unit ∈ operands → ∃ ground, onUnit unit = .ok ground) ∧
      operands.map (Operand.map (formed onVar onUnit) fun unit =>
        (onUnit unit).toOption.getD .one) = results := by
  induction operands generalizing params results with
  | nil =>
    cases List.length_eq_zero_iff.mp enough
    simp [concreteOperands]
  | cons operand operands ih =>
    cases params with
    | nil => cases enough
    | cons param params =>
      have rest := ih (Nat.succ.inj enough) fun value member =>
        types value (List.mem_cons_of_mem _ member)
      rw [List.forall₂_cons]
      cases operand with
      | type value =>
        cases param with
        | unit name => simp [concreteOperands, Parameter.Accepts]
        | type name =>
          rw [concreteOperands, except_both_eq_ok]
          simp only [types value List.mem_cons_self _, rest]
          simp [Parameter.Accepts, Operand.map, and_assoc, and_left_comm]
      | unit unit =>
        cases param with
        | type name => simp [concreteOperands, Parameter.Accepts]
        | unit name =>
          rw [concreteOperands, except_both_eq_ok]
          simp only [rest]
          cases made : onUnit unit with
          | error error => simp [made]
          | ok ground => simp [Parameter.Accepts, Operand.map, made, Except.toOption]

/-- A type is made concrete exactly if it is ready, and into itself with other leaves. -/
theorem concreteTerm_eq_ok (result : ConcreteType) :
    concreteTerm registry onVar onUnit type = .ok result ↔
      Ready registry onVar onUnit type ∧ formed onVar onUnit type = result := by
  induction type using induction_children generalizing result with
  | step type ih =>
    rcases type.var_or_compound with ⟨name, rfl⟩ | compound
    · rw [Ready, meets_var]
      cases made : onVar name <;> simp [concreteTerm, made, formed, Except.toOption]
    · rw [concreteTerm_eq compound, except_both_eq_ok, Ready, meets_iff compound,
        Registry.takes_iff]
      have decided (value : InferredType) (member : .type value ∈ type.parts) :=
        ih value (mem_children.mpr member)
      constructor
      · rintro ⟨params, found, made, here, rfl⟩
        obtain ⟨⟨accepts, types, units⟩, rfl⟩ :=
          (concreteOperands_eq_ok (registry.length_parametersOf found) decided _).mp here
        exact ⟨⟨⟨params, found, accepts⟩, units, fun child member =>
          types child (mem_children.mp member)⟩, substitute_eq _ _ compound⟩
      · rintro ⟨⟨⟨params, found, accepts⟩, units, types⟩, rfl⟩
        exact ⟨params, found, _, (concreteOperands_eq_ok accepts.length_eq decided _).mpr
          ⟨⟨accepts, fun value member => types value (mem_children.mpr member), units⟩, rfl⟩,
          (substitute_eq _ _ compound).symm⟩

/-- A type that is made concrete is made into the same with more declarations, and with leaves that
give the same. -/
theorem concreteTerm_mono {later : Registry}
    {otherOnVar : TypeVar → Except TypeError ConcreteType}
    {otherOnUnit : InferredUnit → Except TypeError GroundUnit} {result : ConcreteType}
    (types : ∀ name definition, registry.type? name = some definition →
      later.type? name = some definition)
    (vars : ∀ var, type.HasVar var → ∀ made, onVar var = .ok made → otherOnVar var = .ok made)
    (units : ∀ unit, type.HasUnit unit → ∀ made,
      onUnit unit = .ok made → otherOnUnit unit = .ok made)
    (done : concreteTerm registry onVar onUnit type = .ok result) :
    concreteTerm later otherOnVar otherOnUnit type = .ok result := by
  obtain ⟨⟨madeVars, madeUnits, tags⟩, rfl⟩ := (concreteTerm_eq_ok result).mp done
  refine (concreteTerm_eq_ok _).mpr ⟨⟨fun var has => ?_, fun unit has => ?_, fun part inside name
    operands same => ?_⟩, substitute_congr type (fun var has => ?_) fun unit has => ?_⟩
  · exact (madeVars var has).imp (vars var has)
  · exact (madeUnits unit has).imp (units unit has)
  · obtain ⟨definition, declared, accepts⟩ := tags part inside name operands same
    exact ⟨definition, types name definition declared, accepts⟩
  · obtain ⟨made, own⟩ := madeVars var has
    rw [own, vars var has made own]
  · obtain ⟨made, own⟩ := madeUnits unit has
    rw [own, units unit has made own]

variable {fault : TypeError → Prop}

private theorem concreteOperands_faults (mismatches : ∀ left right, fault (.mismatch left right))
    (types : ∀ value, .type value ∈ operands →
      Results fault (fun _ => True) (concreteTerm registry onVar onUnit value))
    (units : ∀ unit, .unit unit ∈ operands → Results fault (fun _ => True) (onUnit unit)) :
    Results fault (fun _ => True) (concreteOperands registry onVar onUnit params operands) := by
  induction operands generalizing params with
  | nil =>
    rw [concreteOperands]
    trivial
  | cons operand operands ih =>
    have rest (params : List Parameter) := @ih params
      (fun value member => types value (List.mem_cons_of_mem _ member))
      fun unit member => units unit (List.mem_cons_of_mem _ member)
    cases params with
    | nil => trivial
    | cons param params =>
      cases operand with
      | type value =>
        cases param with
        | unit name => exact mismatches ..
        | type name => exact (types value List.mem_cons_self).andThen fun _ _ =>
            (rest params).andThen fun _ _ => trivial
      | unit unit =>
        cases param with
        | type name => exact mismatches ..
        | unit name => exact (units unit List.mem_cons_self).andThen fun _ _ =>
            (rest params).andThen fun _ _ => trivial

theorem concreteTerm_faults
    (definitions : ∀ name count, Results fault (fun _ => True) (registry.definitionFor name count))
    (mismatches : ∀ left right, fault (.mismatch left right))
    (vars : ∀ var, type.HasVar var → Results fault (fun _ => True) (onVar var))
    (units : ∀ unit, type.HasUnit unit → Results fault (fun _ => True) (onUnit unit)) :
    Results fault (fun _ => True) (concreteTerm registry onVar onUnit type) := by
  induction type using induction_children with
  | step type ih =>
    rcases type.var_or_compound with ⟨name, rfl⟩ | compound
    · exact vars name (List.mem_singleton_self _)
    · have params : Results fault (fun _ => True) (registry.parametersOf type) := by
        cases type with
        | tagged name operands => exact (definitions name _).andThen fun _ _ => trivial
        | _ => trivial
      rw [concreteTerm_eq compound]
      refine params.andThen fun params _ => (concreteOperands_faults mismatches
        (fun value member => ?_) fun unit member => ?_).andThen fun _ _ => trivial
      · have child := mem_children.mpr member
        exact ih value child (fun var has => vars var (mem_leaves_of_child child has))
          fun unit has => units unit (mem_leaves_of_child child has)
      · exact units unit ((hasUnit_iff compound).mpr (.inr member))

end Store

end SheetTypes
