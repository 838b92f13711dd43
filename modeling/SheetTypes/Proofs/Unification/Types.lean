import SheetTypes.Proofs.Unification.Composition
import SheetTypes.Proofs.Unification.Equations
import SheetTypes.Proofs.Unification.Units

/-!
Unification of types. Every step keeps all solutions in which the two types are equal, and at the
end they are equal in all solutions. Links lead to parts of the given types and of the types linked
before, so there is a bound on the depth of types in every store on the way, and the levels of the
recursion never run out.
-/

set_option autoImplicit false

namespace SheetTypes

namespace Store

variable {store before middle after : Store} {depth levels : Nat} {type : InferredType}
  {result : InferredType} {var : TypeVar}

structure Bounded (store : Store) (depth : Nat) : Prop where
  wellformed : store.Wellformed
  shallow : ∀ var target, store.typeLink? var = some target → target.depth ≤ depth

structure Fits (store : Store) (depth : Nat) (type : InferredType) : Prop where
  covered : store.Covers type
  shallow : type.depth ≤ depth

theorem Solving.bounded (solving : Solving depth before after) (bounded : before.Bounded depth) :
    after.Bounded depth := by
  refine ⟨solving.extends.wellformed bounded.wellformed, ?_⟩
  cases solving with
  | adjust adjustment => exact adjustment.settled.depth depth bounded.shallow
  | freshUnit => exact bounded.shallow
  | bindUnit => exact bounded.shallow
  | @bindType changed _ target found _ _ _ shallow =>
    intro var linked present
    by_cases same : var = changed
    · rw [same, typeLink?_setType_self (index_lt_of_requirements found),
        Option.some.injEq] at present
      rw [← present]
      exact shallow
    · rw [typeLink?_setType_of_ne same] at present
      exact bounded.shallow var linked present

theorem Solving.run_typeCount (steps : Relation.ReflTransGen (Solving depth) before after) :
    after.types.size = before.types.size := by
  induction steps with
  | refl => rfl
  | tail _ step ih =>
    rw [← ih]
    cases step with
    | adjust adjustment => exact adjustment.settled.typeCount
    | freshUnit => rfl
    | bindUnit => rfl
    | bindType => exact types_size_setType

theorem Bounded.run (bounded : before.Bounded depth)
    (steps : Relation.ReflTransGen (Solving depth) before after) : after.Bounded depth := by
  induction steps with
  | refl => exact bounded
  | tail _ step ih => exact step.bounded ih

theorem Fits.run (fits : before.Fits depth type)
    (steps : Relation.ReflTransGen (Solving depth) before after) : after.Fits depth type :=
  ⟨(Solving.run_extends steps).covers fits.covered, fits.shallow⟩

theorem Fits.child {child : InferredType} (fits : store.Fits depth type)
    (member : child ∈ type.children) : store.Fits depth child :=
  ⟨fits.covered.child member,
    Nat.le_trans (Nat.le_of_lt (TypeTerm.depth_lt_of_child member)) fits.shallow⟩

theorem Fits.reaches (fits : store.Fits depth type) (bounded : store.Bounded depth)
    (reaches : store.Reaches type result) : store.Fits depth result :=
  ⟨reaches.covers bounded.wellformed fits.covered, reaches.depth_le fits.shallow bounded.shallow⟩

/-- A way down passes every variable once at most. -/
theorem Bounded.depth_shape_le (bounded : store.Bounded depth) (shallow : type.depth ≤ depth) :
    (store.shape type).depth ≤ (store.types.size + 1) * depth := by
  obtain ⟨rank, ranking, small⟩ := bounded.wellformed.exists_typeRanking
  have vars (var : TypeVar) : (store.shape (.var var)).depth ≤ rank var * depth + 1 := by
    induction var using ranking.induction with
    | step var ih =>
      cases linked : store.typeLink? var with
      | none =>
        rw [shape_unbound linked]
        exact Nat.le_add_left 1 _
      | some target =>
        have positive := ranking.positive var (isTypeBound_iff.mpr ⟨target, linked⟩)
        have inner : (store.shape target).depth ≤ target.depth + (rank var - 1) * depth := by
          refine TypeTerm.depth_substitute_le _ _ target fun next has => ?_
          have edge : store.TypeEdge var next := ⟨target, linked, has⟩
          have less : rank next ≤ rank var - 1 := by
            have below := ranking.below var next edge
            omega
          have bound := ih next edge
          have scaled := Nat.mul_le_mul_right depth less
          exact Nat.le_trans bound (by omega)
        have own := bounded.shallow var target linked
        have split : rank var * depth = (rank var - 1) * depth + depth := by
          rw [← Nat.succ_mul]
          congr 1
          omega
        rw [bounded.wellformed.shape_link linked]
        omega
  have whole : (store.shape type).depth ≤ type.depth + store.types.size * depth := by
    refine TypeTerm.depth_substitute_le _ _ type fun var _ => ?_
    have scaled := Nat.mul_le_mul_right depth (small var)
    exact Nat.le_trans (vars var) (by omega)
  rw [Nat.succ_mul]
  omega

/-- Whether a type is less deep than so many levels, whatever is linked from now on. -/
def StaysBelow (store : Store) (depth levels : Nat) (type : InferredType) : Prop :=
  ∀ later, Relation.ReflTransGen (Solving depth) store later → (later.shape type).depth < levels

theorem StaysBelow.run (stays : before.StaysBelow depth levels type)
    (steps : Relation.ReflTransGen (Solving depth) before after) :
    after.StaysBelow depth levels type :=
  fun later further => stays later (steps.trans further)

theorem StaysBelow.agree {other : InferredType} (stays : store.StaysBelow depth levels type)
    (wellformed : store.Wellformed) (agree : store.TypesAgree type other) :
    store.StaysBelow depth levels other := by
  intro later steps
  have extended := Solving.run_extends steps
  rw [← (agree.later wellformed extended).shape (extended.wellformed wellformed)]
  exact stays later steps

theorem StaysBelow.child {child : InferredType} (stays : store.StaysBelow depth (levels + 1) type)
    (compound : type.isVar = false) (member : child ∈ type.children) :
    store.StaysBelow depth levels child := by
  intro later steps
  have inside : later.shape child ∈ (later.shape type).children := by
    rw [shape_eq_substitute type, TypeTerm.children_substitute _ _ compound]
    exact List.mem_map_of_mem member
  have less := TypeTerm.depth_lt_of_child inside
  have bound := stays later steps
  omega

theorem Reaches.typesAgree (reaches : store.Reaches type result) : store.TypesAgree type result :=
  fun _ _ _ _ _ satisfies => (reaches.value satisfies).symm

theorem linkType_apply {requirements : Requirements} {target : InferredType}
    (found : store.requirements? var = some requirements) :
    linkType var target store = (.ok (), store.setType var (.link target)) := by
  rw [linkType, get_bind_apply, requirements?_eq_some.mp found]
  rfl

/-- Requiring capabilities leaves the requirements of all other variables as they are. -/
theorem Demands.requirements {required : Requirements} {asked : TypeVar → Prop}
    (demands : Demands required asked before after) (other : ¬asked var) :
    after.requirements? var = before.requirements? var := by
  induction demands with
  | refl => rfl
  | tail _ step ih =>
    rw [← ih]
    cases step with
    | shorten shortening => exact shortening.requirements var
    | @require changed _ among _ =>
      refine requirements?_setType_of_ne ?_
      rintro rfl
      exact other among

/-- Whether an unbound variable can be linked to a type that has taken over its requirements. -/
structure Bindable (store : Store) (depth : Nat) (var : TypeVar) (requirements : Requirements)
    (type : InferredType) : Prop where
  found : store.requirements? var = some requirements
  fits : store.Fits depth type
  absent : ¬(store.shape type).HasVar var
  meets : store.Meets requirements type

theorem linkType_solves {requirements : Requirements}
    (bindable : store.Bindable depth var requirements type) :
    Solves depth store (linkType var type)
      (fun assignment => assignment.types var = assignment.type type)
      fun _ after => after.TypesAgree (.var var) type := by
  obtain ⟨found, fits, absent, meets⟩ := bindable
  have within := index_lt_of_requirements found
  constructor
  · refine .of_apply (linkType_apply found)
      (.single (.bindType found fits.covered absent meets fits.shallow)) ?_
    intro _ _ _ valuation _ satisfies
    exact satisfies.types var type (typeLink?_setType_self within)
  · intro assignment solution same _
    rw [linkType_apply found]
    exact ⟨(), assignment, rfl, solution.bindType within same, .refl assignment store⟩

/-- A variable can be linked to a type that its capabilities have been required of. -/
theorem Demands.bindable {requirements : Requirements}
    (demands : Demands requirements (before.shape type).HasVar before after)
    (wellformed : before.Wellformed) (found : before.requirements? var = some requirements)
    (fits : before.Fits depth type) (absent : ¬(before.shape type).HasVar var)
    (meets : after.Meets requirements type) : after.Bindable depth var requirements type := by
  have settled := Adjusts.settled (Demands.adjusts demands)
  refine ⟨?_, ⟨settled.covers.mpr fits.covered, fits.shallow⟩, ?_, meets⟩
  · rw [Demands.requirements demands absent]
    exact found
  · rw [settled.shape wellformed]
    exact absent

/-- A variable can be linked to another one that has taken over its requirements. -/
theorem bindable_var {survivor linked : TypeVar} {own other : Requirements}
    (positive : 0 < depth) (ownFound : store.requirements? survivor = some own)
    (otherFound : store.requirements? linked = some other) (different : linked ≠ survivor) :
    (store.setType survivor (.unbound (own.union other))).Bindable depth linked other
      (.var survivor) := by
  have within := index_lt_of_requirements ownFound
  have free := typeLink?_of_requirements ownFound
  have freeAfter : (store.setType survivor (.unbound (own.union other))).typeLink? survivor =
      none := by
    rw [typeLink?_setType_unbound free]
    exact free
  refine ⟨?_, ⟨?_, positive⟩, ?_, ?_⟩
  · rw [requirements?_setType_of_ne different]
    exact otherFound
  · rw [covers_var, types_size_setType]
    exact within
  · rw [shape_unbound freeAfter, TypeTerm.hasVar_var]
    exact different
  · intro capability origin member
    exact carries_of_requirements (requirements?_setType_self within)
      (Requirements.mem_originsOf_union.mpr (.inr member))

end Store

namespace Unification

open Store

variable {store : Store} {depth levels : Nat} {left right : InferredType} {after before : Store}
  {equation : Equation} {equations : List Equation} {var : TypeVar} {α β : Type}

theorem bindVar_solves {requirements : Requirements} (bounded : store.Bounded depth)
    (found : store.requirements? var = some requirements) (fits : store.Fits depth right)
    (compound : right.isVar = false) :
    Solves depth store (bindVar var right)
      (fun assignment => assignment.types var = assignment.type right)
      fun result after => result = right ∧ after.TypesAgree (.var var) right := by
  unfold bindVar
  refine .shorten bounded.wellformed
    (occurs_agree bounded.wellformed var fits.covered (fun _ => pure false)
      (Nat.lt_succ_self _)).left ?_
  intro occurring middle steps answer
  have settled := Shortens.settled steps
  have wellformed := settled.wellformed bounded.wellformed
  have covered := settled.covers.mpr fits.covered
  have present : middle.requirements? var = some requirements :=
    (Shortens.requirements steps var).trans found
  rw [← settled.shape bounded.wellformed right] at answer
  cases occurring with
  | true =>
    refine .shorten wellformed (render_yields wellformed right) ?_
    intro text last further _
    -- No finite type holds itself, so there was no solution to lose.
    refine .throw (TypeError.not_blamesStore rfl) fun assignment solution same => ?_
    have settledLast := Shortens.settled further
    rw [← settledLast.shape wellformed] at answer
    exact (settledLast.wellformed wellformed).ne_of_hasVar_shape solution.links compound
      (answer.mp rfl) same
  | false =>
    have absent : ¬(middle.shape right).HasVar var := fun has => by cases answer.mpr has
    refine .get ?_
    rw [present]
    have requires : Solves depth middle (enforce requirements right)
        (fun assignment => assignment.types var = assignment.type right) fun _ after =>
          after.Meets requirements right ∧
            Demands requirements (middle.shape right).HasVar middle after := by
      apply (enforce_solves depth wellformed covered requirements).mono_goal
      intro assignment _ solution same capability member
      rw [← same]
      exact solution.requirements var requirements present capability member
    refine requires.andThen fun _ last further holds => ?_
    obtain ⟨meets, demands⟩ := holds
    have bindable := Demands.bindable demands wellformed present ⟨covered, fits.shallow⟩ absent
      meets
    have link := linkType_solves bindable
    refine (link.mono_goal ?_).andThen fun _ _ _ agree => .ok ⟨rfl, agree⟩
    rintro later _ _ ⟨earlier, same, continues⟩
    rw [continues.types, continues.type covered]
    exact same

/-- What two types have been unified to: all three are equal in every solution. -/
structure Unified (store : Store) (left right result : InferredType) : Prop where
  sides : store.TypesAgree left right
  whole : store.TypesAgree left result
  covered : store.Covers result

private theorem absorb_solves {survivor linked : TypeVar} {own other : Requirements}
    (bounded : store.Bounded depth) (positive : 0 < depth)
    (ownFound : store.requirements? survivor = some own)
    (otherFound : store.requirements? linked = some other) (different : linked ≠ survivor) :
    Solves depth store (do
        addRequirements survivor other
        linkType linked (.var survivor)
        return .var survivor : Infer InferredType)
      (fun assignment => assignment.types linked = assignment.types survivor)
      fun result after => result = .var survivor ∧
        after.TypesAgree (.var linked) (.var survivor) := by
  have requires : Solves depth store (addRequirements survivor other)
      (fun assignment => assignment.types linked = assignment.types survivor)
      fun _ after => after = store.setType survivor (.unbound (own.union other)) := by
    apply (addRequirements_solves depth bounded.wellformed ownFound other).mono_goal
    intro assignment _ solution same capability member
    rw [← same]
    exact solution.requirements linked other otherFound capability member
  refine requires.andThen fun _ middle steps made => ?_
  subst made
  have link := linkType_solves (bindable_var positive ownFound otherFound different)
  refine (link.mono_goal ?_).andThen fun _ _ _ agree => .ok ⟨rfl, agree⟩
  rintro later _ _ ⟨earlier, same, continues⟩
  rw [Valuation.type_var, continues.types]
  exact same

theorem mergeVars_solves {first second : TypeVar} {firstRequired secondRequired : Requirements}
    (bounded : store.Bounded depth) (positive : 0 < depth)
    (firstFound : store.requirements? first = some firstRequired)
    (secondFound : store.requirements? second = some secondRequired) (different : first ≠ second) :
    Solves depth store (mergeVars first second)
      (fun assignment => assignment.types first = assignment.types second)
      fun result after => Unified after (.var first) (.var second) result := by
  have inside {survivor : TypeVar} {required : Requirements} {after : Store}
      (steps : Relation.ReflTransGen (Solving depth) store after)
      (found : store.requirements? survivor = some required) : after.Covers (.var survivor) :=
    (Solving.run_extends steps).covers (covers_var.mpr (index_lt_of_requirements found))
  unfold mergeVars
  split
  next survivor linked chosen =>
    refine .get ?_
    split at chosen
    next =>
      cases chosen
      rw [secondFound]
      have absorb := absorb_solves bounded positive firstFound secondFound different.symm
      apply (absorb.mono_goal fun _ _ _ same => same.symm).mono_post
      rintro result after steps ⟨rfl, agree⟩
      exact ⟨agree.symm, .refl after _, inside steps firstFound⟩
    next =>
      cases chosen
      rw [firstFound]
      apply (absorb_solves bounded positive secondFound firstFound different).mono_post
      rintro result after steps ⟨rfl, agree⟩
      exact ⟨agree, agree, inside steps secondFound⟩

/-! ### Types of one shape -/

theorem mismatch_solves {goal : Assignment → Prop} {post : α → Store → Prop}
    (wellformed : store.Wellformed) (unsolvable : ∀ assignment, ¬goal assignment) :
    Solves depth store (mismatch left right) goal post := by
  unfold mismatch
  refine .shorten wellformed (render_yields wellformed left) fun expected middle steps _ => ?_
  have middleWellformed := (Shortens.settled steps).wellformed wellformed
  refine .shorten middleWellformed (render_yields middleWellformed right) ?_
  intro found last _ _
  exact .throw (TypeError.not_blamesStore rfl) fun assignment _ => unsolvable assignment

namespace Equation

def Fits (store : Store) (depth : Nat) : Equation → Prop
  | .types first second => store.Fits depth first ∧ store.Fits depth second
  | .units first second => store.CoversUnit first ∧ store.CoversUnit second
  | .clash => True

def StaysBelow (store : Store) (depth levels : Nat) : Equation → Prop
  | .types first _ => store.StaysBelow depth levels first
  | .units _ _ | .clash => True

def Solved (store : Store) (equation : Equation) : Prop :=
  ∀ ⦃ν G : Type⦄ [UnitGroup G] (valuation : Valuation ν G), store.Faithful G →
    valuation.Satisfies store → equation.Holds valuation.types valuation.unit

theorem Fits.run (fits : equation.Fits before depth)
    (steps : Relation.ReflTransGen (Solving depth) before after) : equation.Fits after depth := by
  cases equation with
  | types first second => exact ⟨fits.1.run steps, fits.2.run steps⟩
  | units first second =>
    have extended := Solving.run_extends steps
    exact ⟨extended.coversUnit fits.1, extended.coversUnit fits.2⟩
  | clash => trivial

theorem StaysBelow.run (stays : equation.StaysBelow before depth levels)
    (steps : Relation.ReflTransGen (Solving depth) before after) :
    equation.StaysBelow after depth levels := by
  cases equation with
  | types first second => exact Store.StaysBelow.run stays steps
  | units first second => trivial
  | clash => trivial

theorem Holds.continues {earlier later : Assignment}
    (holds : equation.Holds earlier.types earlier.unit) (fits : equation.Fits store depth)
    (continues : later.Continues earlier store) : equation.Holds later.types later.unit := by
  cases equation with
  | types first second =>
    change later.type first = later.type second
    rw [continues.type fits.1.covered, continues.type fits.2.covered]
    exact holds
  | units first second =>
    rw [Holds] at holds ⊢
    rw [continues.unit fits.1, continues.unit fits.2]
    exact holds
  | clash => exact holds.elim

end Equation

/-- What has to hold for equations to be solved with so many levels. -/
def Solvable (store : Store) (depth levels : Nat) (equations : List Equation)
    (assignment : Assignment) : Prop :=
  ∀ equation ∈ equations,
    equation.Holds assignment.types assignment.unit ∧ equation.StaysBelow store depth levels

private theorem equation_andThen {action : Infer α} {next : α → Infer β}
    (bounded : store.Bounded depth) (fits : ∀ other ∈ equations, other.Fits store depth)
    (first : Solves depth store action
      (fun assignment => equation.Holds assignment.types assignment.unit ∧
        equation.StaysBelow store depth levels)
      fun _ after => equation.Solved after)
    (rest : ∀ value middle, Relation.ReflTransGen (Solving depth) store middle →
      Solves depth middle (next value) (Solvable middle depth levels equations)
        fun _ after => ∀ other ∈ equations, other.Solved after) :
    Solves depth store (action >>= next) (Solvable store depth levels (equation :: equations))
      fun _ after => ∀ other ∈ equation :: equations, other.Solved after := by
  have begins : Solves depth store action (Solvable store depth levels (equation :: equations))
      fun _ after => equation.Solved after :=
    first.mono_goal fun _ _ _ goal => goal equation (List.mem_cons_self ..)
  refine begins.andThen fun value middle steps solved => ?_
  refine ((rest value middle steps).mono_goal ?_).mono_post ?_
  · rintro later _ _ ⟨earlier, goal, continues⟩ other member
    obtain ⟨holds, stays⟩ := goal other (List.mem_cons_of_mem _ member)
    exact ⟨holds.continues (fits other member) continues, stays.run steps⟩
  · intro _ after further others
    have extended := Solving.run_extends further
    have wellformed := (bounded.run steps).wellformed
    refine List.forall_mem_cons.mpr ⟨?_, others⟩
    intro _ _ _ valuation faithful satisfies
    exact solved valuation (faithful.mono extended.exact)
      (extended.satisfies wellformed valuation faithful satisfies)

theorem solveEquations_solves (registry : Option Registry) (left right : InferredType)
    {unifyTypes : InferredType → InferredType → Infer InferredType}
    (recursion : ∀ {store : Store} {first second : InferredType}, store.Bounded depth →
      store.Fits depth first → store.Fits depth second →
        Solves depth store (unifyTypes first second)
          (fun assignment => assignment.type first = assignment.type second ∧
            store.StaysBelow depth levels first)
          fun _ after => after.TypesAgree first second) (bounded : store.Bounded depth)
    (fits : ∀ equation ∈ equations, equation.Fits store depth) :
    Solves depth store (solveEquations registry unifyTypes left right equations)
      (Solvable store depth levels equations)
      fun _ after => ∀ equation ∈ equations, equation.Solved after := by
  induction equations generalizing store with
  | nil => exact .ok (by simp)
  | cons equation equations ih =>
    obtain ⟨here, others⟩ := List.forall_mem_cons.mp fits
    have rest (middle : Store) (steps : Relation.ReflTransGen (Solving depth) store middle) :=
      ih (bounded.run steps) fun other member => (others other member).run steps
    cases equation with
    | types first second =>
      rw [solveEquations, discard_bind]
      exact equation_andThen bounded others (recursion bounded here.1 here.2)
        fun _ middle steps => rest middle steps
    | units first second =>
      rw [solveEquations]
      have units := unifyUnits_solves depth registry bounded.wellformed here.1 here.2
      exact equation_andThen bounded others
        (units.mono_goal fun _ _ _ goal => goal.1)
        fun _ middle steps => rest middle steps
    | clash =>
      refine mismatch_solves bounded.wellformed fun assignment goal => ?_
      exact (goal .clash (List.mem_cons_self ..)).1

theorem fits_of_among (among : equation.Among left right) (leftFits : store.Fits depth left)
    (rightFits : store.Fits depth right) : equation.Fits store depth := by
  cases equation with
  | types first second => exact ⟨leftFits.child among.1, rightFits.child among.2⟩
  | units first second =>
    exact ⟨leftFits.covered.2 first among.1, rightFits.covered.2 second among.2⟩
  | clash => trivial

theorem staysBelow_of_among (among : equation.Among left right) (compound : left.isVar = false)
    (stays : store.StaysBelow depth (levels + 1) left) :
    equation.StaysBelow store depth levels := by
  cases equation with
  | types first second => exact Store.StaysBelow.child stays compound among.1
  | units first second => trivial
  | clash => trivial

/-- What unification with so many levels is to achieve. -/
def Unifies (registry : Option Registry) (depth levels : Nat) : Prop :=
  ∀ ⦃store : Store⦄ ⦃left right : InferredType⦄, store.Bounded depth → store.Fits depth left →
    store.Fits depth right → Solves depth store (unifyWithin registry levels left right)
      (fun assignment => assignment.type left = assignment.type right ∧
        store.StaysBelow depth levels left)
      fun result after => Unified after left right result

section Pruned

variable {registry : Option Registry} (recursion : Unifies registry depth levels)
  (bounded : store.Bounded depth) (leftFits : store.Fits depth left)
  (rightFits : store.Fits depth right)

include recursion bounded leftFits rightFits

private theorem unifyShapes_solves (leftCompound : left.isVar = false)
    (rightCompound : right.isVar = false) :
    Solves depth store (unifyPruned registry levels left right)
      (fun assignment => assignment.type left = assignment.type right ∧
        store.StaysBelow depth (levels + 1) left)
      fun result after => Unified after left right result := by
  rw [unifyPruned_compound registry levels leftCompound rightCompound]
  cases found : decompose left right with
  | none =>
    refine mismatch_solves bounded.wellformed fun assignment goal => ?_
    obtain ⟨equations, some⟩ := exists_decompose leftCompound rightCompound goal.1
    rw [found] at some
    cases some
  | some equations =>
    have among := among_of_decompose found
    have solves := solveEquations_solves registry left right
      (fun bounded firstFits secondFits => (recursion bounded firstFits secondFits).mono_post
        fun _ _ _ unified => unified.sides)
      bounded fun equation member => fits_of_among (among equation member) leftFits rightFits
    have begins : Solves depth store
        (solveEquations registry (unifyWithin registry levels) left right equations)
        (fun assignment => assignment.type left = assignment.type right ∧
          store.StaysBelow depth (levels + 1) left)
        fun _ after => ∀ equation ∈ equations, equation.Solved after := by
      refine solves.mono_goal fun assignment _ _ goal equation member => ?_
      exact ⟨(substitute_eq_iff_holds found).mp goal.1 equation member,
        staysBelow_of_among (among equation member) leftCompound goal.2⟩
    refine begins.andThen fun _ after steps solved =>
      .ok ⟨?_, .refl after left, (leftFits.run steps).covered⟩
    intro _ _ _ valuation faithful satisfies
    exact (substitute_eq_iff_holds found).mpr fun equation member =>
      solved equation member valuation faithful satisfies

theorem unifyPruned_solves
    (leftFree : ∀ var, left = .var var → store.typeLink? var = none)
    (rightFree : ∀ var, right = .var var → store.typeLink? var = none) :
    Solves depth store (unifyPruned registry levels left right)
      (fun assignment => assignment.type left = assignment.type right ∧
        store.StaysBelow depth (levels + 1) left)
      fun result after => Unified after left right result := by
  have positive : 0 < depth := Nat.lt_of_lt_of_le left.depth_pos leftFits.shallow
  have required {var : TypeVar} (fits : store.Fits depth (.var var))
      (free : store.typeLink? var = none) :=
    exists_requirements (covers_var.mp fits.covered) free
  rcases left.var_or_compound with ⟨leftVar, rfl⟩ | leftCompound
  · obtain ⟨leftRequired, leftFound⟩ := required leftFits (leftFree leftVar rfl)
    rcases right.var_or_compound with ⟨rightVar, rfl⟩ | rightCompound
    · obtain ⟨rightRequired, rightFound⟩ := required rightFits (rightFree rightVar rfl)
      rw [unifyPruned]
      split
      next same =>
        rw [same]
        exact .ok ⟨.refl store _, .refl store _, rightFits.covered⟩
      next different =>
        exact (mergeVars_solves bounded positive leftFound rightFound different).mono_goal
          fun _ _ _ goal => goal.1
    · have solves := bindVar_solves bounded leftFound rightFits rightCompound
      rw [unifyPruned_var_left registry levels leftVar rightCompound]
      apply (solves.mono_goal fun _ _ _ goal => goal.1).mono_post
      rintro result after steps ⟨rfl, agree⟩
      exact ⟨agree, agree, (rightFits.run steps).covered⟩
  · rcases right.var_or_compound with ⟨rightVar, rfl⟩ | rightCompound
    · obtain ⟨rightRequired, rightFound⟩ := required rightFits (rightFree rightVar rfl)
      have solves := bindVar_solves bounded rightFound leftFits leftCompound
      rw [unifyPruned_var_right registry levels rightVar leftCompound]
      apply (solves.mono_goal fun _ _ _ goal => goal.1.symm).mono_post
      rintro result after steps ⟨rfl, agree⟩
      exact ⟨agree.symm, .refl after _, (leftFits.run steps).covered⟩
    · exact unifyShapes_solves recursion bounded leftFits rightFits leftCompound rightCompound

end Pruned

theorem unifyWithin_solves (registry : Option Registry) (depth levels : Nat) :
    Unifies registry depth levels := by
  induction levels with
  | zero =>
    intro store left right bounded leftFits rightFits
    refine mismatch_solves bounded.wellformed fun assignment goal => ?_
    exact Nat.not_lt_zero _ (goal.2 store .refl)
  | succ levels ih =>
    intro store left right bounded leftFits rightFits
    rw [unifyWithin_succ]
    refine .shorten bounded.wellformed (prune_yields bounded.wellformed left) ?_
    rintro first between firstSteps ⟨firstReaches, firstFree⟩
    have firstRun := Shortens.solving firstSteps depth
    have betweenBounded := bounded.run firstRun
    have firstFits := (leftFits.run firstRun).reaches betweenBounded firstReaches
    refine .shorten betweenBounded.wellformed (prune_yields betweenBounded.wellformed right) ?_
    rintro second middle secondSteps ⟨secondReaches, secondFree⟩
    have secondRun := Shortens.solving secondSteps depth
    have middleBounded := betweenBounded.run secondRun
    have secondFits :=
      (rightFits.run (firstRun.trans secondRun)).reaches middleBounded secondReaches
    have firstAgree : middle.TypesAgree left first := firstReaches.typesAgree.later
      betweenBounded.wellformed (Solving.run_extends secondRun)
    have secondAgree := secondReaches.typesAgree
    have solves := unifyPruned_solves ih middleBounded (firstFits.run secondRun) secondFits
      (fun var same => (Shortens.settled secondSteps).typeLink?_none.mpr (firstFree var same))
      secondFree
    refine (solves.mono_goal ?_).mono_post ?_
    · rintro assignment exact solution ⟨same, stays⟩
      constructor
      · rw [← firstAgree assignment (.inr exact) solution.links,
          ← secondAgree assignment (.inr exact) solution.links]
        exact same
      · exact (stays.run (firstRun.trans secondRun)).agree middleBounded.wellformed firstAgree
    · rintro result after further ⟨agree, resultAgree, covered⟩
      have extended := Solving.run_extends further
      have leftAgree := firstAgree.later middleBounded.wellformed extended
      have rightAgree := secondAgree.later middleBounded.wellformed extended
      exact ⟨(leftAgree.trans agree).trans rightAgree.symm, leftAgree.trans resultAgree, covered⟩

structure Comparable (store : Store) (depth levels : Nat) (left right : InferredType) : Prop where
  bounded : store.Bounded depth
  leftFits : store.Fits depth left
  rightFits : store.Fits depth right
  stays : store.StaysBelow depth levels left

def Equation.Comparable (store : Store) (depth levels : Nat) : Equation → Prop
  | .types first second => Unification.Comparable store depth levels first second
  | .units first second => store.Wellformed ∧ store.CoversUnit first ∧ store.CoversUnit second
  | .clash => True

theorem Comparable.run (comparable : Comparable before depth levels left right)
    (steps : Relation.ReflTransGen (Solving depth) before after) :
    Comparable after depth levels left right :=
  ⟨comparable.bounded.run steps, comparable.leftFits.run steps, comparable.rightFits.run steps,
    comparable.stays.run steps⟩

theorem Equation.Comparable.run (comparable : equation.Comparable before depth levels)
    (steps : Relation.ReflTransGen (Solving depth) before after) :
    equation.Comparable after depth levels := by
  cases equation with
  | types first second => exact Unification.Comparable.run comparable steps
  | units first second =>
    have extended := Solving.run_extends steps
    exact ⟨extended.wellformed comparable.1, extended.coversUnit comparable.2.1,
      extended.coversUnit comparable.2.2⟩
  | clash => trivial

/-- Following the links of both types leaves them comparable. -/
theorem Comparable.pruned {between middle : Store} {first second : InferredType}
    (comparable : Comparable store depth levels left right) (firstSteps : store.Shortens between)
    (firstReaches : between.Reaches left first) (secondSteps : between.Shortens middle)
    (secondReaches : middle.Reaches right second) :
    Comparable middle depth levels first second := by
  have firstRun := Shortens.solving firstSteps depth
  have secondRun := Shortens.solving secondSteps depth
  have betweenBounded := comparable.bounded.run firstRun
  have middleBounded := betweenBounded.run secondRun
  have firstFits := (comparable.leftFits.run firstRun).reaches betweenBounded firstReaches
  have firstStays := (comparable.stays.run firstRun).agree betweenBounded.wellformed
    firstReaches.typesAgree
  exact ⟨middleBounded, firstFits.run secondRun,
    (comparable.rightFits.run (firstRun.trans secondRun)).reaches middleBounded secondReaches,
    firstStays.run secondRun⟩

theorem Comparable.decompose (comparable : Comparable store depth (levels + 1) left right)
    (compound : left.isVar = false) (found : Unification.decompose left right = some equations) :
    ∀ equation ∈ equations, equation.Comparable store depth levels := by
  intro equation member
  have among := among_of_decompose found equation member
  have fits := fits_of_among among comparable.leftFits comparable.rightFits
  have stays := staysBelow_of_among among compound comparable.stays
  cases equation with
  | types first second => exact ⟨comparable.bounded, fits.1, fits.2, stays⟩
  | units first second => exact ⟨comparable.bounded.wellformed, fits⟩
  | clash => trivial

/-! ### Whole unifications -/

def linkDepths (store : Store) : Nat :=
  store.types.toList.foldr (fun cell total => cellDepth cell + total) 0

private theorem cellDepth_le {cells : List TypeCell} {cell : TypeCell} (member : cell ∈ cells) :
    cellDepth cell ≤ cells.foldr (fun cell total => cellDepth cell + total) 0 := by
  induction cells with
  | nil => cases member
  | cons first rest ih =>
    rw [List.foldr_cons]
    rcases List.mem_cons.mp member with same | later
    · rw [same]
      exact Nat.le_add_right _ _
    · exact Nat.le_trans (ih later) (Nat.le_add_left _ _)

theorem depth_le_linkDepths {target : InferredType} (linked : store.typeLink? var = some target) :
    target.depth ≤ linkDepths store := by
  have member : TypeCell.link target ∈ store.types.toList := by
    rw [typeLink?_eq_some, ← Array.getElem?_toList] at linked
    exact List.mem_of_getElem? linked
  exact cellDepth_le member

theorem bounded_linkDepths (wellformed : store.Wellformed) (more : Nat) :
    store.Bounded (more + linkDepths store) :=
  ⟨wellformed, fun _ _ linked => Nat.le_trans (depth_le_linkDepths linked) (Nat.le_add_left _ _)⟩

/-- The levels that unification starts with are enough. -/
theorem staysBelow_unificationLevels (wellformed : store.Wellformed)
    (left right : InferredType) :
    store.StaysBelow (left.depth + right.depth + linkDepths store)
      (unificationLevels store left right) left := by
  intro later steps
  have bounded := (bounded_linkDepths wellformed (left.depth + right.depth)).run steps
  have shallow : left.depth ≤ left.depth + right.depth + linkDepths store := by omega
  have below := bounded.depth_shape_le shallow
  rw [Solving.run_typeCount steps] at below
  have more := Nat.mul_le_mul_left (store.types.size + 1)
    (Nat.le_succ (left.depth + right.depth + linkDepths store))
  exact Nat.lt_succ_of_le (Nat.le_trans below more)

theorem comparable_unificationLevels (wellformed : store.Wellformed)
    (leftCovered : store.Covers left) (rightCovered : store.Covers right) :
    Comparable store (left.depth + right.depth + linkDepths store)
      (unificationLevels store left right) left right :=
  ⟨bounded_linkDepths wellformed _, ⟨leftCovered, by omega⟩, ⟨rightCovered, by omega⟩,
    staysBelow_unificationLevels wellformed left right⟩

theorem unify_solves (registry : Option Registry) (wellformed : store.Wellformed)
    (leftCovered : store.Covers left) (rightCovered : store.Covers right) :
    Solves (left.depth + right.depth + linkDepths store) store (unify registry left right)
      (fun assignment => assignment.type left = assignment.type right)
      fun result after => Unified after left right result := by
  obtain ⟨bounded, leftFits, rightFits, stays⟩ :=
    comparable_unificationLevels wellformed leftCovered rightCovered
  refine .get ?_
  have solves := unifyWithin_solves registry _ (unificationLevels store left right) bounded leftFits
    rightFits
  refine .rethrow (solves.mono_goal fun _ _ _ same => ⟨same, stays⟩) ?_
  intro error middle steps harmless
  have middleWellformed := (Solving.run_extends steps).wellformed wellformed
  have render {now : Store} (nowWellformed : now.Wellformed) (type : InferredType) :=
    (render_yields nowWellformed type).mono_step fun _ _ step =>
      (Solving.adjust (.shorten step) :
        Solving (left.depth + right.depth + linkDepths store) _ _)
  refine (render middleWellformed left).lift.andThen fun outer last further _ => ?_
  have lastWellformed := (Solving.run_extends further).wellformed middleWellformed
  refine (render lastWellformed right).lift.andThen fun other _ _ _ => ?_
  exact .throw fun blames => harmless (TypeError.blamesStore_withContext blames)

end Unification

end SheetTypes
