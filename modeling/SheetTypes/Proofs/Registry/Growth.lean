import SheetTypes.Proofs.Canonical.Rounds
import SheetTypes.Proofs.Concrete.Unfolding

/-!
Results stay as the registry grows. A check that has succeeded, and tags that have been found, come
out the same with more declarations. Units keep their canonical forms as long as all their names
are declared: a name that is not stands for itself until it is declared, and may then stand for
something else.
-/

set_option autoImplicit false

namespace SheetTypes

def Stays {ε α : Type} (result later : Except ε α) : Prop :=
  ∀ value, result = .ok value → later = .ok value

namespace Stays

variable {ε α β : Type} {result later : Except ε α}

theorem refl (result : Except ε α) : Stays result result := fun _ done => done

theorem bind {next laterNext : α → Except ε β} (first : Stays result later)
    (rest : ∀ value, Stays (next value) (laterNext value)) :
    Stays (result >>= next) (later >>= laterNext) := by
  intro whole done
  obtain ⟨value, here, done⟩ := except_bind_eq_ok.mp done
  exact except_bind_eq_ok.mpr ⟨value, first value here, rest value whole done⟩

theorem map {change : α → β} (first : Stays result later) :
    Stays (result >>= fun value => pure (change value))
      (later >>= fun value => pure (change value)) :=
  first.bind fun _ => .refl _

end Stays

variable {before later : Registry}

namespace Registry

theorem Keeps.checkUnit (keeps : before.Keeps later) (unit : GroundUnit) :
    Stays (before.checkUnit unit) (later.checkUnit unit) := by
  intro _ done
  exact checkUnit_eq_ok.mpr fun name member => keeps.hasUnit (checkUnit_eq_ok.mp done name member)

theorem Keeps.definitionFor (keeps : before.Keeps later) (name : String) (operands : Nat) :
    Stays (before.definitionFor name operands) (later.definitionFor name operands) := by
  intro definition done
  obtain ⟨found, enough⟩ := definitionFor_eq_ok.mp done
  exact definitionFor_eq_ok.mpr ⟨keeps.types name definition found, enough⟩

end Registry

namespace Store

variable {store : Store} {allowDefaults : Bool}
  {onVar laterOnVar : TypeVar → Except TypeError ConcreteType}
  {onUnit laterOnUnit : InferredUnit → Except TypeError GroundUnit}

private theorem concreteTerm_stays (keeps : before.Keeps later)
    (vars : ∀ var, Stays (onVar var) (laterOnVar var))
    (units : ∀ unit, Stays (onUnit unit) (laterOnUnit unit)) (type : InferredType) :
    Stays (concreteTerm before onVar onUnit type)
      (concreteTerm later laterOnVar laterOnUnit type) :=
  fun _ => concreteTerm_mono keeps.types (fun var _ => vars var) fun unit _ => units unit

private theorem groundUnit_stays (keeps : before.Keeps later) (unit : InferredUnit) :
    Stays (store.groundUnit before allowDefaults unit)
      (store.groundUnit later allowDefaults unit) :=
  Stays.bind (.refl _) fun ground => (keeps.checkUnit ground).bind fun _ => .refl _

private theorem concreteVar_stays (keeps : before.Keeps later) (links : Nat) (var : TypeVar) :
    Stays (store.concreteVar before allowDefaults links var)
      (store.concreteVar later allowDefaults links var) := by
  induction links generalizing var with
  | zero =>
    rw [concreteVar, concreteVar]
    exact .refl _
  | succ links ih =>
    rw [concreteVar, concreteVar]
    cases store.typeLink? var with
    | none => exact .refl _
    | some target => exact concreteTerm_stays keeps ih (groundUnit_stays keeps) target

theorem concretize_stays (keeps : before.Keeps later) (type : InferredType) :
    Stays (store.concretize before allowDefaults type)
      (store.concretize later allowDefaults type) :=
  concreteTerm_stays keeps (concreteVar_stays keeps _) (groundUnit_stays keeps) type

end Store

theorem Registry.Keeps.checkTemplate (keeps : before.Keeps later) (options : CheckOptions)
    (label : String) (template : Template) :
    Stays (checkTemplate before options label template)
      (checkTemplate later options label template) := by
  intro type done
  obtain ⟨inferred, made, done⟩ := (checkTemplate_eq_ok rfl).mp done
  exact (checkTemplate_eq_ok rfl).mpr
    ⟨inferred, made, Store.concretize_stays keeps inferred type done⟩

namespace Template

variable {bindings : ConcreteBindings} {label : String}

private theorem concreteUnit_stays (keeps : before.Keeps later) (unit : UnitTemplate) :
    Stays (concreteUnit before bindings unit) (concreteUnit later bindings unit) :=
  (keeps.checkUnit unit.names).bind fun _ => .refl _

private theorem concreteNode_stays (keeps : before.Keeps later) (template : Template) (node : Nat) :
    Stays (concreteNode before bindings label node template)
      (concreteNode later bindings label node template) := by
  intro result done
  obtain ⟨⟨vars, units, parts⟩, rfl⟩ := concreteNode_eq_ok.mp done
  refine concreteNode_eq_ok.mpr ⟨⟨vars, fun unit has =>
    (units unit has).imp (concreteUnit_stays keeps unit), fun part inside => ?_⟩, ?_⟩
  · obtain ⟨fits, once⟩ := parts part inside
    cases part with
    | tagged name operands =>
      obtain ⟨definition, declared, accepts⟩ := fits
      have kept := keeps.types name definition declared
      refine ⟨⟨definition, kept, accepts⟩, fun _ _ other same found => ?_⟩
      cases same
      cases found.symm.trans kept
      exact once name operands definition rfl declared
    | _ => exact ⟨fits, by simp [TagsOnce]⟩
  · refine TypeTerm.substitute_congr _ (fun _ _ => rfl) fun unit has => ?_
    obtain ⟨ground, own⟩ := units unit (TypeTerm.mem_leaves_of_ordered has)
    rw [groundOf, groundOf, own, concreteUnit_stays keeps unit ground own]

end Template

namespace ConcreteType

private theorem tagsFrom_stays (keeps : before.Keeps later) (definition : TaggedType)
    (bindings : ConcreteBindings) (index : Nat) (seen : List String) (tags : List Tag) :
    Stays (tagsFrom before definition bindings index seen tags)
      (tagsFrom later definition bindings index seen tags) := by
  induction tags generalizing index seen with
  | nil => exact .refl _
  | cons tag tags ih =>
    have payload (label : String) :
        Stays (tag.payload.mapM (Template.concretize before bindings label))
          (tag.payload.mapM (Template.concretize later bindings label)) := by
      cases tag.payload with
      | none => exact .refl _
      | some template => exact Stays.map (Template.concreteNode_stays keeps template 0)
    rw [tagsFrom, tagsFrom]
    dsimp only
    split
    · exact .refl _
    · exact (payload _).bind fun made => (ih _ _).map

theorem tags_stays (keeps : before.Keeps later) (name : String)
    (operands : List ConcreteOperand) :
    Stays (tags before name operands) (tags later name operands) :=
  (keeps.definitionFor name operands.length).bind fun definition =>
    Stays.bind (.refl _) fun bindings => tagsFrom_stays keeps definition bindings 0 [] _

end ConcreteType

namespace Registry

def Declares (registry : Registry) (unit : GroundUnit) : Prop :=
  ∀ name ∈ unit.keys, registry.hasUnit name = true

theorem Keeps.unit?_eq (keeps : before.Keeps later) {name : String}
    (known : before.hasUnit name = true) : later.unit? name = before.unit? name := by
  obtain ⟨definition, found⟩ := Option.isSome_iff_exists.mp known
  rw [found, keeps.units name definition found]

variable {form : ScaledUnit}

private theorem Keeps.foldl_addExpanded (keeps : before.Keeps later) {powers : List (String × Int)}
    (known : ∀ power ∈ powers, before.hasUnit power.1 = true) :
    powers.foldl (fun (expanded : ScaledUnit) power =>
        expanded.addExpanded later power.1 power.2) form =
      powers.foldl (fun (expanded : ScaledUnit) power =>
        expanded.addExpanded before power.1 power.2) form := by
  refine List.foldl_ext _ _ form fun expanded power member => ?_
  unfold ScaledUnit.addExpanded
  rw [keeps.unit?_eq (known power member)]

/-- A round does the same where all names are declared, and all names are declared after it. -/
theorem Keeps.expandOnce (keeps : before.Keeps later) (consistent : before.Consistent)
    (known : before.Declares form.unit) :
    later.expandOnce form = before.expandOnce form ∧
      before.Declares (before.expandOnce form).unit := by
  constructor
  · exact keeps.foldl_addExpanded fun power member =>
    known power.1 (PowerProduct.mem_keys_of_toList member)
  · intro name member
    obtain ⟨origin, inside, ⟨_, rfl⟩ | defined⟩ := mem_keys_expandOnce member
    · exact known name inside
    · exact consistent.basesDeclared origin name defined

theorem Keeps.expandWithin (keeps : before.Keeps later) (consistent : before.Consistent)
    (rounds : Nat) (known : before.Declares form.unit) :
    later.expandWithin rounds form = before.expandWithin rounds form := by
  induction rounds generalizing form with
  | zero => rfl
  | succ rounds ih =>
    obtain ⟨same, still⟩ := keeps.expandOnce consistent known
    have derived : form.unit.keys.any later.isDerived = form.unit.keys.any before.isDerived := by
      rw [Bool.eq_iff_iff, List.any_eq_true, List.any_eq_true]
      refine exists_congr fun name => and_congr_right fun member => ?_
      rw [isDerived, isDerived, keeps.unit?_eq (known name member)]
    rw [Registry.expandWithin, Registry.expandWithin, same, derived, ih still]

theorem Keeps.canonicalize (keeps : before.Keeps later) (consistent : before.Consistent)
    {unit : GroundUnit} (known : before.Declares unit) :
    later.canonicalize unit = before.canonicalize unit := by
  rw [Registry.canonicalize, Registry.canonicalize, keeps.expandWithin consistent _ known]

/-- What has been checked, opened or expanded comes out the same after further declarations. -/
theorem results_stay (reachable : before.Reachable) (declarations : List Declaration) :
    let later := declarations.foldl after before
    (∀ options label template type, checkTemplate before options label template = .ok type →
      checkTemplate later options label template = .ok type) ∧
    (∀ name operands tags, ConcreteType.tags before name operands = .ok tags →
      ConcreteType.tags later name operands = .ok tags) ∧
    (∀ unit, before.Declares unit → later.canonicalize unit = before.canonicalize unit) ∧
    ∀ source target, before.Declares source → before.Declares target →
      later.conversionFactor source target = before.conversionFactor source target := by
  have keeps := before.keeps_run declarations
  have same (unit : GroundUnit) (known : before.Declares unit) :=
    keeps.canonicalize reachable.consistent known
  refine ⟨fun options label template => keeps.checkTemplate options label template,
    fun name operands => ConcreteType.tags_stays keeps name operands, same, ?_⟩
  intro source target sourceKnown targetKnown
  rw [conversionFactor, conversionFactor, same source sourceKnown, same target targetKnown]

/-- A day becomes a unit, and a week is declared in a file; hours stay what they were. -/
theorem results_stay_hours :
    let later := [Declaration.unit "day" 24 (.ofKey "h"),
      .file ⟨[⟨"week", some "7", some "day"⟩], []⟩].foldl after .builtin
    later.hasUnit "week" = true ∧ later.canonicalize (.ofKey "h") = .ok ⟨3600, .ofKey "s"⟩ ∧
      checkTemplate later {} "type" (.number (.named "h")) = .ok (.number (.ofKey "h")) := by
  intro later
  obtain ⟨checks, _, forms, _⟩ := results_stay .builtin
    [Declaration.unit "day" 24 (.ofKey "h"), .file ⟨[⟨"week", some "7", some "day"⟩], []⟩]
  have known : Registry.builtin.Declares (.ofKey "h") := by
    unfold Declares
    decide +kernel
  have form : Registry.builtin.canonicalize (.ofKey "h") = .ok ⟨3600, .ofKey "s"⟩ := by
    decide +kernel
  exact ⟨by decide +kernel, (forms _ known).trans form, checks {} "type" _ _ (by rfl)⟩

end Registry

end SheetTypes
