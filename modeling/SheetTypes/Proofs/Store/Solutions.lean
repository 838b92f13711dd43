import SheetTypes.Proofs.Store.Enforcement

/-!
Solutions of a store: values without variables, such that every linked variable has the value of
its target and every unbound one offers what is required of it. An action that solves an equation
keeps the solutions in which the equation holds. It succeeds if there is one, and it can be given
values for the unit variables that the action creates.
-/

set_option autoImplicit false

namespace SheetTypes

def TypeTerm.outline {ν υ : Type} (type : TypeTerm ν υ) : TypeTerm ν Unit :=
  type.substitute .var fun _ => ()

theorem TypeTerm.offers_outline {ν υ : Type} {type : TypeTerm ν υ} {vars : ν → Prop}
    {capability : String} :
    type.outline.Offers vars capability ↔ type.Offers vars capability := by
  unfold outline
  rw [offers_substitute]
  simp only [offers_var]

namespace Valuation

variable {ν G : Type} [UnitGroup G]

def outline (valuation : Valuation ν G) : Valuation ν Unit :=
  ⟨fun var => (valuation.types var).outline, fun _ => ()⟩

theorem outline_type (valuation : Valuation ν G) (type : InferredType) :
    valuation.outline.type type = (valuation.type type).outline := by
  unfold Valuation.type TypeTerm.outline
  rw [TypeTerm.substitute_substitute]
  rfl

theorem outline_satisfies {valuation : Valuation ν G} {store : Store}
    (satisfies : valuation.Satisfies store) : valuation.outline.Satisfies store := by
  refine ⟨fun var target linked => ?_, fun _ _ _ => rfl⟩
  rw [outline_type, ← satisfies.types var target linked]
  rfl

end Valuation

namespace Store

variable {ν G : Type} [UnitGroup G] {store : Store} {valuation : Valuation ν G}
  {type : InferredType}

/-- The value of a type offers what its shape offers with the values of the variables in it. -/
theorem Wellformed.offers_iff_shape (wellformed : store.Wellformed)
    (satisfies : valuation.Satisfies store) {vars : ν → Prop} {capability : String} :
    (valuation.type type).Offers vars capability ↔ (store.shape type).Offers
      (fun var => (valuation.types var).Offers vars capability) capability := by
  rw [← TypeTerm.offers_outline, ← Valuation.outline_type,
    wellformed.type_eq_substitute_shape (Valuation.outline_satisfies satisfies),
    TypeTerm.offers_substitute]
  simp only [Valuation.outline, TypeTerm.offers_outline]

/-- A variable has another value than a type that it occurs in. -/
theorem Wellformed.ne_of_hasVar_shape (wellformed : store.Wellformed)
    (satisfies : valuation.Satisfies store) {var : TypeVar} (compound : type.isVar = false)
    (has : (store.shape type).HasVar var) : valuation.types var ≠ valuation.type type := by
  intro same
  have whole := wellformed.type_eq_substitute_shape (Valuation.outline_satisfies satisfies) type
  have deeper : (valuation.outline.types var).depth < (valuation.outline.type type).depth := by
    rw [whole]
    exact TypeTerm.depth_lt_of_hasVar _ _ (TypeTerm.isVar_substitute compound) has
  rw [Valuation.outline_type, ← same] at deeper
  exact Nat.lt_irrefl _ deeper

end Store

/-- Values for all variables in which no variable is left, with exponents of any size. -/
abbrev Assignment := Valuation Empty ExactUnit

namespace Assignment

def Provides (type : TypeTerm Empty ExactUnit) (capability : String) : Prop :=
  type.Offers (fun _ => False) capability

/-- Whether values meet all that a store says about its variables. -/
structure IsSolution (assignment : Assignment) (store : Store) : Prop where
  links : assignment.Satisfies store
  requirements : ∀ var requirements, store.requirements? var = some requirements →
    ∀ capability ∈ requirements.names, Provides (assignment.types var) capability

/-- Whether two assignments differ at most for unit variables that are not in the store. -/
structure Continues (later earlier : Assignment) (store : Store) : Prop where
  types : later.types = earlier.types
  units : ∀ var, var.index < store.units.size → later.units var = earlier.units var

variable {store before middle after : Store} {assignment earlier between later : Assignment}

theorem Continues.refl (assignment : Assignment) (store : Store) :
    assignment.Continues assignment store :=
  ⟨rfl, fun _ _ => rfl⟩

theorem Continues.trans (first : between.Continues earlier before)
    (second : later.Continues between middle) (more : before.units.size ≤ middle.units.size) :
    later.Continues earlier before where
  types := second.types.trans first.types
  units var within :=
    (second.units var (Nat.lt_of_lt_of_le within more)).trans (first.units var within)

/-- Shortening makes no variables, so nothing that is continued. -/
theorem Continues.settled (continues : later.Continues earlier after)
    (settled : before.Settled after) : later.Continues earlier before :=
  (Continues.refl earlier before).trans continues (Nat.le_of_eq settled.unitCount.symm)

theorem Continues.unit (continues : later.Continues earlier store) {unit : InferredUnit}
    (covered : store.CoversUnit unit) : later.unit unit = earlier.unit unit :=
  Valuation.unit_congr unit fun var member => continues.units var (covered var member)

theorem Continues.type (continues : later.Continues earlier store) {type : InferredType}
    (covered : store.Covers type) : later.type type = earlier.type type :=
  Valuation.type_congr type (fun var _ => congrFun continues.types var)
    fun unit has var member => continues.units var (covered.2 unit has var member)

theorem IsSolution.continues (solution : earlier.IsSolution store) (wellformed : store.Wellformed)
    (continues : later.Continues earlier store) : later.IsSolution store := by
  refine ⟨⟨fun var target linked => ?_, fun var target linked => ?_⟩, ?_⟩
  · rw [continues.types, continues.type (wellformed.typesCovered var target linked)]
    exact solution.links.types var target linked
  · rw [continues.units var (Store.index_lt_of_unitLink linked),
      continues.unit (wellformed.unitsCovered var target linked)]
    exact solution.links.units var target linked
  · rw [continues.types]
    exact solution.requirements

theorem IsSolution.withUnit (solution : assignment.IsSolution store) :
    assignment.IsSolution store.withUnit := by
  have typeLinks : store.withUnit.typeLink? = store.typeLink? := rfl
  exact ⟨(Valuation.satisfies_of_links typeLinks (Store.unitLink?_withUnit store)).mpr
    solution.links, solution.requirements⟩

theorem IsSolution.bindUnit {var : UnitVar} {target : InferredUnit}
    (solution : assignment.IsSolution store) (within : var.index < store.units.size)
    (same : assignment.units var = assignment.unit target) :
    assignment.IsSolution (store.setUnit var (.link target)) := by
  refine ⟨⟨solution.links.types, fun other found linked => ?_⟩, solution.requirements⟩
  by_cases equal : other = var
  · rw [equal, Store.unitLink?_setUnit_self within, Option.some.injEq] at linked
    rw [equal, ← linked]
    exact same
  · rw [Store.unitLink?_setUnit_of_ne equal] at linked
    exact solution.links.units other found linked

theorem IsSolution.bindType {var : TypeVar} {target : InferredType}
    (solution : assignment.IsSolution store) (within : var.index < store.types.size)
    (same : assignment.types var = assignment.type target) :
    assignment.IsSolution (store.setType var (.link target)) := by
  refine ⟨⟨fun other found linked => ?_, solution.links.units⟩, fun other found present => ?_⟩
  · by_cases equal : other = var
    · rw [equal, Store.typeLink?_setType_self within, Option.some.injEq] at linked
      rw [equal, ← linked]
      exact same
    · rw [Store.typeLink?_setType_of_ne equal] at linked
      exact solution.links.types other found linked
  · by_cases equal : other = var
    · rw [equal, Store.requirements?_eq_some] at present
      simp [Store.setType, within] at present
    · rw [Store.requirements?_setType_of_ne equal] at present
      exact solution.requirements other found present

/-- Requiring capabilities keeps the solutions that offer them where they are required. -/
theorem IsSolution.demands {required : Requirements} {asked : TypeVar → Prop}
    (solution : assignment.IsSolution before) (wellformed : before.Wellformed)
    (demands : Store.Demands required asked before after) (exact : after.exact = true)
    (offers : ∀ var, asked var → ∀ capability ∈ required.names,
      Provides (assignment.types var) capability) : assignment.IsSolution after := by
  induction demands with
  | refl => exact solution
  | @tail middle last steps step ih =>
    have settled := step.adjustment.settled
    have wellformedMiddle :=
      (Store.Adjusts.settled (Store.Demands.adjusts steps)).wellformed wellformed
    have solved := ih (settled.exact exact)
    refine ⟨(settled.satisfies wellformedMiddle assignment (.inr exact)).mpr solved.links, ?_⟩
    cases step with
    | shorten shortening =>
      intro var requirements found
      rw [shortening.requirements] at found
      exact solved.requirements var requirements found
    | @require changed old among present =>
      intro var requirements found capability member
      by_cases same : var = changed
      · subst same
        rw [Store.requirements?_setType_self (Store.index_lt_of_requirements present),
          Option.some.injEq] at found
        subst found
        rcases Requirements.mem_names_union.mp member with before | added
        · exact solved.requirements var old present capability before
        · exact offers var among capability added
      · rw [Store.requirements?_setType_of_ne same] at found
        exact solved.requirements var requirements found capability member

theorem IsSolution.shortens (solution : assignment.IsSolution before)
    (wellformed : before.Wellformed) (shortens : before.Shortens after)
    (exact : after.exact = true) : assignment.IsSolution after := by
  have demands : Store.Demands .none (fun _ => False) before after :=
    Relation.ReflTransGen.mono (fun _ _ shortening => .shorten shortening) _ _ shortens
  exact solution.demands wellformed demands exact fun _ impossible => impossible.elim

end Assignment

namespace Store

/-- What an action does from the given store, and that it keeps the solutions in which the goal
holds: if there is one, then the action succeeds, unless an exponent stops at the limit. -/
structure Solves {α : Type} (depth : Nat) (store : Store) (action : Infer α)
    (goal : Assignment → Prop) (post : α → Store → Prop) : Prop where
  yields : Yields (Solving depth) store action (Outcome Harmless post)
  keeps : ∀ assignment : Assignment, assignment.IsSolution store → goal assignment →
    (action store).2.exact = true → ∃ value, ∃ later : Assignment,
      (action store).1 = .ok value ∧ later.IsSolution (action store).2 ∧
        later.Continues assignment store

namespace Solves

variable {α β : Type} {depth : Nat} {store : Store} {action : Infer α}
  {goal goal' : Assignment → Prop} {post post' : α → Store → Prop} {last : β → Store → Prop}
  {next : α → Infer β}

theorem mono_goal (solves : Solves depth store action goal post)
    (stronger : ∀ assignment : Assignment, store.exact = true → assignment.IsSolution store →
      goal' assignment → goal assignment) : Solves depth store action goal' post where
  yields := solves.yields
  keeps assignment solution meets exact := by
    have before := (Solving.run_extends solves.yields.steps).exact exact
    exact solves.keeps assignment solution (stronger assignment before solution meets) exact

theorem mono_post (solves : Solves depth store action goal post)
    (weaker : ∀ value after, Relation.ReflTransGen (Solving depth) store after →
      post value after → post' value after) : Solves depth store action goal post' where
  yields := solves.yields.infer_mono weaker fun _ harmless => harmless
  keeps := solves.keeps

theorem ok {value : α} (holds : post value store) :
    Solves depth store (pure value) goal post where
  yields := .ok holds
  keeps assignment solution _ _ := ⟨value, assignment, rfl, solution, .refl assignment store⟩

theorem throw {error : TypeError} (harmless : Harmless error)
    (unsolvable : ∀ assignment : Assignment, assignment.IsSolution store → ¬goal assignment) :
    Solves depth store (throw error) goal post where
  yields := .throw harmless
  keeps assignment solution meets := absurd meets (unsolvable assignment solution)

theorem get {next : Store → Infer β} (rest : Solves depth store (next store) goal last) :
    Solves depth store (MonadState.get >>= next) goal last where
  yields := ⟨rfl, rest.yields.steps, rest.yields.ends⟩
  keeps := rest.keeps

/-- Shortening links first changes nothing about solutions. -/
theorem shorten {action : StateM Store α} (wellformed : store.Wellformed)
    (yields : Yields Shortening store action post)
    (rest : ∀ value middle, store.Shortens middle → post value middle →
      Solves depth middle (next value) goal last) :
    Solves depth store ((liftM action : Infer α) >>= next) goal last := by
  have second := rest _ _ yields.steps yields.ends
  have extended := Solving.run_extends second.yields.steps
  constructor
  · have steps := Shortens.solving yields.steps depth
    exact ⟨rfl, steps.trans second.yields.steps, second.yields.ends⟩
  · intro assignment solution meets exact
    obtain ⟨value, later, done, solved, continues⟩ := second.keeps assignment
      (solution.shortens wellformed yields.steps (extended.exact exact)) meets exact
    refine ⟨value, later, done, solved, continues.types, fun var within => continues.units var ?_⟩
    rw [(Shortens.settled yields.steps).unitCount]
    exact within

theorem andThen (first : Solves depth store action goal post)
    (rest : ∀ value middle, Relation.ReflTransGen (Solving depth) store middle →
      post value middle → Solves depth middle (next value)
        (fun later => ∃ earlier, goal earlier ∧ later.Continues earlier store) last) :
    Solves depth store (action >>= next) goal last where
  yields := first.yields.andThen fun value middle steps holds =>
    (rest value middle steps holds).yields
  keeps assignment solution meets exact := by
    have steps := first.yields.steps
    have ends := first.yields.ends
    have succeeds := first.keeps assignment solution meets
    generalize outcome : action store = result at steps ends succeeds
    obtain ⟨found, middle⟩ := result
    cases found with
    | error error =>
      rw [error_bind_apply outcome] at exact
      obtain ⟨value, _, impossible, _⟩ := succeeds exact
      cases impossible
    | ok value =>
      have second := rest value middle steps ends
      rw [ok_bind_apply outcome] at exact ⊢
      have extended := Solving.run_extends second.yields.steps
      obtain ⟨_, between, _, solved, continues⟩ := succeeds (extended.exact exact)
      obtain ⟨result, later, done, solvedLater, further⟩ :=
        second.keeps between solved ⟨assignment, meets, continues⟩ exact
      exact ⟨result, later, done, solvedLater,
        continues.trans further (Solving.run_extends steps).unitCount⟩

theorem rethrow {handle : TypeError → Infer α} (solves : Solves depth store action goal post)
    (fails : ∀ error middle, Relation.ReflTransGen (Solving depth) store middle → Harmless error →
      Yields (Solving depth) middle (handle error) (Outcome Harmless fun _ _ => False)) :
    Solves depth store (tryCatch action handle) goal post := by
  constructor
  · refine solves.yields.recover fun error middle steps harmless => ?_
    exact (fails error middle steps harmless).infer_mono (fun _ _ _ never => never.elim)
      fun _ harmless => harmless
  · intro assignment solution meets
    obtain ⟨⟨_, steps, ends⟩, keeps⟩ := solves
    generalize outcome : action store = result at steps ends keeps
    obtain ⟨found, middle⟩ := result
    cases found with
    | ok value =>
      rw [ok_tryCatch_apply outcome handle]
      exact keeps assignment solution meets
    | error error =>
      intro exact
      rw [error_tryCatch_apply outcome handle] at exact
      have rest := fails error middle steps ends
      obtain ⟨_, _, impossible, _⟩ := keeps assignment solution meets
        ((Solving.run_extends rest.steps).exact exact)
      cases impossible

end Solves

variable {store : Store}

theorem addRequirements_solves (depth : Nat) {var : TypeVar} {requirements : Requirements}
    (wellformed : store.Wellformed) (found : store.requirements? var = some requirements)
    (extra : Requirements) :
    Solves depth store (addRequirements var extra)
      (fun assignment => ∀ capability ∈ extra.names,
        Assignment.Provides (assignment.types var) capability)
      fun _ after => after = store.setType var (.unbound (requirements.union extra)) := by
  have demand : Demand extra (· = var) store
      (store.setType var (.unbound (requirements.union extra))) := .require rfl found
  constructor
  · exact .of_apply (addRequirements_apply found extra) (.single (.adjust demand.adjustment)) rfl
  · intro assignment solution offers exact
    rw [addRequirements_apply found] at exact ⊢
    refine ⟨(), assignment, rfl, ?_, .refl assignment store⟩
    apply solution.demands wellformed (.single demand) exact
    rintro _ rfl
    exact offers

/-- Requiring capabilities of a type succeeds if its value can offer them. -/
theorem enforce_solves (depth : Nat) (wellformed : store.Wellformed) {type : InferredType}
    (covered : store.Covers type) (required : Requirements) :
    Solves depth store (enforce required type)
      (fun assignment => ∀ capability ∈ required.names,
        Assignment.Provides (assignment.type type) capability)
      fun _ after => after.Meets required type ∧
        Demands required (store.shape type).HasVar store after := by
  have agree := (enforce_agree wellformed covered required (fun _ => pure ())
    (Nat.lt_succ_self _)).left
  constructor
  · refine (agree.mono ?_).mono_step fun _ _ demand => .adjust demand.adjustment
    intro found after steps ends
    cases found with
    | ok value => exact ⟨Placed.meets ends, steps⟩
    | error error => exact ends.1
  · intro assignment solution offers exact
    have inShape (capability : String) (member : capability ∈ required.names) :=
      (wellformed.offers_iff_shape solution.links).mp (offers capability member)
    have ends := agree.ends
    generalize outcome : (enforce required type store).1 = found at ends
    cases found with
    | error error =>
      obtain ⟨_, capability, member, lacking⟩ := ends
      exact absurd ((inShape capability member).mono fun _ _ => trivial) lacking
    | ok value =>
      refine ⟨value, assignment, rfl, ?_, .refl assignment store⟩
      apply solution.demands wellformed agree.steps exact
      intro var has capability member
      exact (inShape capability member).of_hasVar has

end Store

end SheetTypes
