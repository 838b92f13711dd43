import SheetTypes.Proofs.Store.Separation
import SheetTypes.Proofs.Unification.Types

/-!
The note whether all exponents have kept within the limit is only written. So resolving and
unification do the same to the variables of a store, and give the same answer, whatever was noted
before.
-/

set_option autoImplicit false

namespace SheetTypes

namespace Store

variable {α β : Type} {store : Store}

def limited (store : Store) : Store := ⟨store.types, store.units, false⟩

/-- The store with the note that all exponents have kept within the limit. -/
def renewed (store : Store) : Store := ⟨store.types, store.units, true⟩

/-- Whether no exponent stops at the limit in a run, whatever was noted before. -/
def RunsExactly (store : Store) (action : StateM Store α) : Prop :=
  (action store.renewed).2.exact = true

instance (store : Store) (action : StateM Store α) : Decidable (store.RunsExactly action) :=
  inferInstanceAs (Decidable (_ = true))

theorem Wellformed.renewed (wellformed : store.Wellformed) : store.renewed.Wellformed :=
  wellformed.of_links rfl rfl (Nat.le_refl _) (Nat.le_refl _)

theorem renewed_of_exact (exact : store.exact = true) : store.renewed = store := by
  obtain ⟨types, units, noted⟩ := store
  cases exact
  rfl

private theorem beside_limited : Beside limited := ⟨fun _ => rfl, fun _ _ _ => rfl⟩

/-- Whether the note makes no difference to what an action does and returns. -/
abbrev IgnoresNote (action : StateM Store α) : Prop := Commutes limited action

namespace IgnoresNote

variable {action : StateM Store α}

theorem of_onTypes (onTypes : OnTypes action) : IgnoresNote action := by
  intro store
  obtain ⟨value, later, runs⟩ := onTypes.runs store.types
  rw [runs store rfl, runs store.limited rfl]
  rfl

/-- The run of an action can be followed with nothing noted yet. -/
theorem runs (ignores : IgnoresNote action) (store : Store) :
    (action store.renewed).1 = (action store).1 ∧
      (action store.renewed).2.renewed = (action store).2.renewed := by
  obtain ⟨types, units, noted⟩ := store
  cases noted with
  | true => exact ⟨rfl, rfl⟩
  | false =>
    have same : action ⟨types, units, false⟩ = _ := ignores ⟨types, units, true⟩
    rw [same]
    exact ⟨rfl, rfl⟩

theorem runs_of_exact (ignores : IgnoresNote action) (exact : store.RunsExactly action) :
    action store.renewed = ((action store).1, (action store).2.renewed) := by
  obtain ⟨value, after⟩ := ignores.runs store
  rw [← value, ← after]
  exact Prod.ext rfl (renewed_of_exact exact).symm

end IgnoresNote

section Resolving

variable {ν υ μ ω : Type} {onVar : ν → StateM Store (TypeTerm μ ω)} {onUnit : υ → StateM Store ω}

private theorem substituteOperandsM_ignoresNote {operands : List (Operand (TypeTerm ν υ) υ)}
    (units : ∀ unit, IgnoresNote (onUnit unit))
    (each : ∀ value, .type value ∈ operands → IgnoresNote (value.substituteM onVar onUnit)) :
    IgnoresNote (TypeTerm.substituteOperandsM onVar onUnit operands) := by
  induction operands with
  | nil => exact .pure []
  | cons operand operands ih =>
    have rest := ih fun value member => each value (List.mem_cons_of_mem _ member)
    cases operand with
    | type value =>
      exact (each value List.mem_cons_self).bind fun _ => rest.bind fun _ => .pure _
    | unit unit => exact (units unit).bind fun _ => rest.bind fun _ => .pure _

private theorem substituteM_ignoresNote (vars : ∀ var, IgnoresNote (onVar var))
    (units : ∀ unit, IgnoresNote (onUnit unit)) (type : TypeTerm ν υ) :
    IgnoresNote (type.substituteM onVar onUnit) := by
  induction type using TypeTerm.induction_children with
  | step type ih =>
    rcases type.var_or_compound with ⟨name, rfl⟩ | compound
    · exact vars name
    · rw [TypeTerm.substituteM_eq compound]
      exact (substituteOperandsM_ignoresNote units fun value member =>
        ih value (TypeTerm.mem_children.mpr member)).bind fun _ => .pure _

end Resolving

private theorem resolveVar_ignoresNote (links : Nat) (var : TypeVar) :
    IgnoresNote (resolveVar links var) := by
  induction links generalizing var with
  | zero => exact .pure _
  | succ links ih =>
    refine (IgnoresNote.of_onTypes (prune_onTypes (.var var))).bind fun type => ?_
    cases type with
    | var last => exact .pure _
    | _ => exact substituteM_ignoresNote ih (pruneUnit_commutes beside_limited) _

theorem resolve_ignoresNote (type : InferredType) : IgnoresNote (resolve type) :=
  .read (fun _ => rfl) fun _ => substituteM_ignoresNote (resolveVar_ignoresNote _)
    (pruneUnit_commutes beside_limited) type

private theorem render_ignoresNote (type : InferredType) : IgnoresNote (render type) :=
  (resolve_ignoresNote type).bind fun _ => .pure _

private theorem addRequirements_ignoresNote (var : TypeVar) (extra : Requirements) :
    IgnoresNote (addRequirements var extra) := by
  intro store
  have same : store.limited.types = store.types := rfl
  unfold addRequirements
  rw [get_bind_apply, get_bind_apply, same]
  cases store.types[var.index]? with
  | none => rfl
  | some cell => cases cell <;> rfl

private theorem linkType_ignoresNote (var : TypeVar) (target : InferredType) :
    IgnoresNote (linkType var target) := by
  intro store
  have same : store.limited.types = store.types := rfl
  unfold linkType
  rw [get_bind_apply, get_bind_apply, same]
  cases store.types[var.index]? with
  | none => rfl
  | some cell => cases cell <;> rfl

private theorem compositional_ignoresNote :
    Compositional fun action => IgnoresNote action where
  ok _ _ := rfl
  andThen := .andThen
  get reads rest := .readThen (fun store => (reads _).trans (reads store).symm) rest
  pruned type := (IgnoresNote.of_onTypes (prune_onTypes type)).lift
  occurring var type := (IgnoresNote.of_onTypes (occurs_onTypes var type)).lift
  required := addRequirements_ignoresNote
  linked := linkType_ignoresNote
  offered required type := by
    unfold checkOffered
    split
    · exact (render_ignoresNote type).lift.andThen fun _ => .throw _
    · exact .pure _
  cyclic _ type := (render_ignoresNote type).lift.andThen fun _ => .throw _

end Store

namespace Unification

open Store

variable {registry : Option Registry}

private theorem mismatch_ignoresNote {α : Type} (left right : InferredType) :
    IgnoresNote (mismatch left right : Infer α) :=
  (render_ignoresNote left).lift.andThen fun _ =>
    (render_ignoresNote right).lift.andThen fun _ => .throw _

theorem unify_ignoresNote (registry : Option Registry) (left right : InferredType) :
    IgnoresNote (unify registry left right) := by
  refine .readThen (fun _ => rfl) fun store => ?_
  have within := compositional_ignoresNote.unifyWithin mismatch_ignoresNote
    (unifyUnits_commutes beside_limited registry)
  refine (within _ left right).recover fun error => ?_
  refine (render_ignoresNote left).lift.andThen fun _ => ?_
  exact (render_ignoresNote right).lift.andThen fun _ => .throw _

variable {left right type : InferredType} {store after : Store}

theorem unify_renewed_succeeds :
    (∃ type, (unify registry left right store.renewed).1 = .ok type) ↔
      ∃ type, (unify registry left right store).1 = .ok type := by
  rw [((unify_ignoresNote registry left right).runs store).1]

theorem unify_renewed_of_ok (unified : unify registry left right store = (.ok type, after)) :
    ∃ later, unify registry left right store.renewed = (.ok type, later) ∧
      later.types = after.types := by
  obtain ⟨found, same⟩ := (unify_ignoresNote registry left right).runs store
  rw [unified] at found same
  have types : (unify registry left right store.renewed).2.types = after.types :=
    congrArg (fun later => later.types) same
  exact ⟨(unify registry left right store.renewed).2, Prod.ext found rfl, types⟩

end Unification

end SheetTypes
