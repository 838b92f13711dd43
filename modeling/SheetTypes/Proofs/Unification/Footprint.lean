import SheetTypes.Proofs.Store.Frames
import SheetTypes.Proofs.Unification.Types

/-!
The footprint of unification. The variables that two types are read with, and all unit variables
that are created on the way, form a region that unification never leaves, whether it succeeds or
fails: it links variables that it finds in the two types to parts of them, and asks capabilities of
such variables only.
-/

set_option autoImplicit false

namespace SheetTypes

namespace Store

variable {store before after : Store} {region : Region} {depth : Nat}

def Roomy (store : Store) (region : Region) : Prop :=
  ∀ var : UnitVar, store.units.size ≤ var.index → region.units var

theorem Roomy.run (roomy : before.Roomy region)
    (run : Relation.ReflTransGen (Touching region depth) before after) : after.Roomy region :=
  fun var new => roomy var
    (Nat.le_trans (Solving.run_extends (Touching.run_solving run)).unitCount new)

/-- An action that makes changes in a region only, also where it fails. -/
abbrev KeepsTo {α : Type} (region : Region) (depth : Nat) (store : Store) (action : Infer α) :
    Prop :=
  Yields (Touching region depth) store action (Outcome (fun _ => True) fun _ _ => True)

theorem KeepsTo.shorten {α β : Type} {action : StateM Store α} {next : α → Infer β}
    {post : α → Store → Prop} (shortens : Yields Shortening store action post)
    (rest : ∀ value after, store.Shortens after → post value after →
      KeepsTo region depth after (next value)) :
    KeepsTo region depth store ((liftM action : Infer α) >>= next) := by
  have begins : Yields (Touching region depth) store action fun value after =>
      store.Shortens after ∧ post value after :=
    (shortens.mono fun _ _ steps holds => ⟨steps, holds⟩).mono_step
      fun _ _ => Shortening.touching
  exact begins.lift.andThen fun value after _ ends => rest value after ends.1 ends.2

section Links

variable {type : InferredType} {required : Requirements} {var : TypeVar}

theorem enforce_touching (wellformed : store.Wellformed) (covered : store.Covers type)
    (inside : store.Inside region type) (required : Requirements) :
    Yields (Touching region depth) store (enforce required type)
      (Outcome (fun _ => True) fun _ after => after.Meets required type ∧
        Demands required (store.shape type).HasVar store after) := by
  have agree := (enforce_agree wellformed covered required (fun _ => pure ())
    (Nat.lt_succ_self _)).left
  have demands : Yields (Demand required (store.shape type).HasVar) store (enforce required type)
      (Outcome (fun _ => True) fun _ after => after.Meets required type ∧
        Demands required (store.shape type).HasVar store after) :=
    agree.infer_mono (fun _ _ steps placed => ⟨placed.meets, steps⟩) fun _ _ => trivial
  refine demands.mono_step fun _ _ demand => ?_
  cases demand with
  | shorten shortening => exact shortening.touching
  | require among found =>
    exact touching_require found required (inside.of_hasVar_shape wellformed among)

theorem linkType_keepsTo (bindable : store.Bindable depth var required type)
    (own : region.types var) (inside : store.Inside region type) :
    KeepsTo region depth store (linkType var type) := by
  obtain ⟨found, fits, absent, meets⟩ := bindable
  exact .of_apply (linkType_apply found)
    (.single (touching_bindType found fits.covered absent meets fits.shallow own inside)) trivial

end Links

end Store

namespace Unification

open Store

variable {store : Store} {region : Region} {depth levels : Nat} {registry : Option Registry}

section Units

variable {var : UnitVar} {target quotient left right : InferredUnit}

theorem Linkable.touching (linkable : Linkable store var target) (own : region.units var)
    (held : region.HoldsUnit target) :
    Touching region depth store (store.setUnit var (.link target)) :=
  touching_bindUnit linkable.within linkable.free linkable.covered linkable.unbound
    linkable.absent own held

theorem holdsUnit_solution (held : region.HoldsUnit quotient) (number : Int) :
    region.HoldsUnit (solution quotient var number) :=
  fun next member => held next (UnitTerm.mem_keys_erased (solvedExponent_le number) member).1

theorem holdsUnit_reduction (held : region.HoldsUnit quotient) (roomy : store.Roomy region)
    (number : Int) : region.HoldsUnit (reduction store quotient var number) := by
  intro next member
  rcases mem_keys_reduction member with same | ⟨old, _⟩
  · exact roomy next (by rw [same])
  · exact held next old

theorem holdsUnit_of_reduced {unit result : InferredUnit} (wellformed : store.Wellformed)
    (inside : store.InsideUnit region unit) (reduced : store.Reduced unit result) :
    region.HoldsUnit result := by
  obtain ⟨readout, reads⟩ := wellformed.exists_readout
  rw [← reduced.read readout reads]
  exact inside readout reads

/-- Every round links a variable of the quotient to the others and to a new one at most, so the
next quotient is inside the region again. -/
theorem solveWithin_keepsTo (rounds : Nat) (wellformed : store.Wellformed)
    (covered : store.CoversUnit quotient) (roomy : store.Roomy region)
    (inside : store.InsideUnit region quotient) :
    KeepsTo region depth store (solveWithin rounds quotient) := by
  induction rounds generalizing store quotient with
  | zero => exact .ok trivial
  | succ rounds ih =>
    generalize done : pruneUnit quotient store = result
    obtain ⟨pruned, middle⟩ := result
    obtain ⟨steps, reduced⟩ := pruneUnit_reduced wellformed covered done
    have wellformedMiddle := (Shortens.settled steps).wellformed wellformed
    have shortens : Relation.ReflTransGen (Touching region depth) store middle :=
      Shortens.touching steps
    have held := holdsUnit_of_reduced wellformedMiddle (inside.run wellformed shortens) reduced
    have round := solveRound_round done reduced.covered reduced.free
    generalize computed : solveRound quotient store = outcome at round
    cases round with
    | ground none => exact .of_apply (solveWithin_of_done computed rounds) shortens trivial
    | @solved var number chosen divides =>
      have present := mem_keys_of_pivot chosen
      have linkable := linkable_solution reduced.covered reduced.free present number
      have linked := shortens.tail
        (linkable.touching (held var present) (holdsUnit_solution held number))
      exact .of_apply (solveWithin_of_done computed rounds) linked trivial
    | alone chosen indivisible single =>
      exact .of_apply (solveWithin_of_done computed rounds) shortens trivial
    | @reduced var number chosen indivisible several =>
      have present := mem_keys_of_pivot chosen
      have linkable := linkable_reduction reduced.covered reduced.free present number
      have roomyMiddle := roomy.run shortens
      have fresh : Touching region depth middle middle.withUnit := touching_freshUnit middle
      have linked := (Relation.ReflTransGen.single fresh).tail
        (linkable.touching (held var present) (holdsUnit_reduction held roomyMiddle number))
      have extended := Solving.run_extends (Touching.run_solving linked)
      have rest := ih (extended.wellformed wellformedMiddle)
        (extended.coversUnit reduced.covered) (roomyMiddle.run linked)
        ((insideUnit_of_free reduced.free held).run wellformedMiddle linked)
      refine ⟨rfl, ?_, ?_⟩
      · rw [solveWithin_of_more computed rounds]
        exact (shortens.trans linked).trans rest.steps
      · rw [solveWithin_of_more computed rounds]
        exact rest.ends

theorem unifyUnits_keepsTo (wellformed : store.Wellformed)
    (leftCovered : store.CoversUnit left) (rightCovered : store.CoversUnit right)
    (roomy : store.Roomy region) (leftInside : store.InsideUnit region left)
    (rightInside : store.InsideUnit region right) :
    KeepsTo region depth store (unifyUnits registry left right) := by
  have prunes {now : Store} (nowWellformed : now.Wellformed) {unit : InferredUnit}
      (covered : now.CoversUnit unit) :=
    (pruneUnit_agree nowWellformed covered pure (Nat.lt_succ_self _)).left
  unfold unifyUnits
  refine .shorten (prunes wellformed leftCovered) ?_
  intro first between firstSteps firstReduced
  have firstSettled := Shortens.settled firstSteps
  have firstRun : Relation.ReflTransGen (Touching region depth) store between :=
    Shortens.touching firstSteps
  have betweenWellformed := firstSettled.wellformed wellformed
  have firstHeld := holdsUnit_of_reduced betweenWellformed (leftInside.run wellformed firstRun)
    firstReduced
  refine .shorten (prunes betweenWellformed (firstSettled.coversUnit.mpr rightCovered)) ?_
  intro second middle secondSteps secondReduced
  have secondSettled := Shortens.settled secondSteps
  have secondRun : Relation.ReflTransGen (Touching region depth) between middle :=
    Shortens.touching secondSteps
  have middleWellformed := secondSettled.wellformed betweenWellformed
  have secondHeld := holdsUnit_of_reduced middleWellformed
    (rightInside.run wellformed (firstRun.trans secondRun)) secondReduced
  split
  · exact .ok trivial
  · refine .shorten (multiplyPower_yields first second (-1)) ?_
    rintro quotient last noted ⟨rfl, _⟩
    have settled := Shortens.settled noted
    have lastRun : Relation.ReflTransGen (Touching region depth) store last :=
      (firstRun.trans secondRun).trans (Shortens.touching noted)
    obtain ⟨covered, free⟩ := quotient_free
      ((firstReduced.later betweenWellformed secondSettled).later middleWellformed settled)
      (secondReduced.later middleWellformed settled)
    have held : region.HoldsUnit (first.multiply (second.raise (-1))) := fun var member =>
      (UnitTerm.mem_keys_multiply_raise member).elim (firstHeld var) (secondHeld var)
    have solved : KeepsTo region depth last
        (solveWithin (solvingRounds (first.multiply (second.raise (-1))))
          (first.multiply (second.raise (-1)))) :=
      solveWithin_keepsTo _ (settled.wellformed middleWellformed) covered (roomy.run lastRun)
        (insideUnit_of_free free held)
    refine solved.andThen fun found _ _ _ => ?_
    cases found with
    | true => exact .ok trivial
    | false => exact .throw trivial

end Units

variable {left right : InferredType} {equation : Equation}

theorem mismatch_keepsTo {α : Type} (wellformed : store.Wellformed) :
    KeepsTo region depth store (mismatch left right : Infer α) := by
  refine .shorten (render_yields wellformed left) fun _ middle steps _ => ?_
  have middleWellformed := (Shortens.settled steps).wellformed wellformed
  exact .shorten (render_yields middleWellformed right) fun _ _ _ _ => .throw trivial

theorem bindVar_keepsTo {var : TypeVar} {requirements : Requirements}
    (wellformed : store.Wellformed) (found : store.requirements? var = some requirements)
    (fits : store.Fits depth right) (own : region.types var)
    (inside : store.Inside region right) : KeepsTo region depth store (bindVar var right) := by
  unfold bindVar
  refine .shorten (occurs_agree wellformed var fits.covered (fun _ => pure false)
    (Nat.lt_succ_self _)).left ?_
  intro occurring middle steps answer
  have settled := Shortens.settled steps
  have middleWellformed := settled.wellformed wellformed
  have covered := settled.covers.mpr fits.covered
  have present : middle.requirements? var = some requirements :=
    (Shortens.requirements steps var).trans found
  rw [← settled.shape wellformed right] at answer
  cases occurring with
  | true => exact .shorten (render_yields middleWellformed right) fun _ _ _ _ => .throw trivial
  | false =>
    have absent : ¬(middle.shape right).HasVar var := fun has => by cases answer.mpr has
    have shortens : Relation.ReflTransGen (Touching region depth) store middle :=
      Shortens.touching steps
    have middleInside := inside.run wellformed shortens
    refine .read ?_
    rw [present]
    refine (enforce_touching middleWellformed covered middleInside requirements).andThen
      fun _ last run ends => ?_
    obtain ⟨meets, demands⟩ := ends
    have bindable := Demands.bindable demands middleWellformed present ⟨covered, fits.shallow⟩
      absent meets
    exact (linkType_keepsTo bindable own (middleInside.run middleWellformed run)).andThen
      fun _ _ _ _ => .ok trivial

private theorem absorb_keepsTo {survivor linked : TypeVar} {own other : Requirements}
    (wellformed : store.Wellformed) (positive : 0 < depth)
    (ownFound : store.requirements? survivor = some own)
    (otherFound : store.requirements? linked = some other) (different : linked ≠ survivor)
    (survivorInside : store.Inside region (.var survivor))
    (linkedInside : store.Inside region (.var linked)) :
    KeepsTo region depth store (do
      addRequirements survivor other
      linkType linked (.var survivor)
      return .var survivor : Infer InferredType) := by
  have ownSurvivor := survivorInside.of_free wellformed (typeLink?_of_requirements ownFound)
  have ownLinked := linkedInside.of_free wellformed (typeLink?_of_requirements otherFound)
  have required : Yields (Touching region depth) store (addRequirements survivor other)
      (Outcome (fun _ => True) fun _ after =>
        after = store.setType survivor (.unbound (own.union other))) :=
    .of_apply (addRequirements_apply ownFound other)
      (.single (touching_require ownFound other ownSurvivor)) rfl
  refine required.andThen fun _ middle run made => ?_
  subst made
  exact (linkType_keepsTo (bindable_var positive ownFound otherFound different) ownLinked
    (survivorInside.run wellformed run)).andThen fun _ _ _ _ => .ok trivial

theorem mergeVars_keepsTo {first second : TypeVar} {firstRequired secondRequired : Requirements}
    (wellformed : store.Wellformed) (positive : 0 < depth)
    (firstFound : store.requirements? first = some firstRequired)
    (secondFound : store.requirements? second = some secondRequired) (different : first ≠ second)
    (firstInside : store.Inside region (.var first))
    (secondInside : store.Inside region (.var second)) :
    KeepsTo region depth store (mergeVars first second) := by
  unfold mergeVars
  split
  next survivor linked chosen =>
    refine .read ?_
    split at chosen
    next =>
      cases chosen
      rw [secondFound]
      exact absorb_keepsTo wellformed positive firstFound secondFound different.symm firstInside
        secondInside
    next =>
      cases chosen
      rw [firstFound]
      exact absorb_keepsTo wellformed positive secondFound firstFound different secondInside
        firstInside

def Equation.Inside (store : Store) (region : Region) : Equation → Prop
  | .types first second => store.Inside region first ∧ store.Inside region second
  | .units first second => store.InsideUnit region first ∧ store.InsideUnit region second
  | .clash => True

theorem Equation.Inside.run {before after : Store} (inside : equation.Inside before region)
    (wellformed : before.Wellformed)
    (run : Relation.ReflTransGen (Touching region depth) before after) :
    equation.Inside after region := by
  cases equation with
  | types first second => exact ⟨inside.1.run wellformed run, inside.2.run wellformed run⟩
  | units first second => exact ⟨inside.1.run wellformed run, inside.2.run wellformed run⟩
  | clash => trivial

theorem inside_of_among (among : equation.Among left right)
    (leftInside : store.Inside region left) (rightInside : store.Inside region right) :
    equation.Inside store region := by
  cases equation with
  | types first second => exact ⟨leftInside.child among.1, rightInside.child among.2⟩
  | units first second => exact ⟨leftInside.hasUnit among.1, rightInside.hasUnit among.2⟩
  | clash => trivial

structure Enclosed (region : Region) (store : Store) (depth levels : Nat)
    (left right : InferredType) : Prop extends Comparable store depth levels left right where
  roomy : store.Roomy region
  leftInside : store.Inside region left
  rightInside : store.Inside region right

theorem solveEquations_keepsTo {unifyTypes : InferredType → InferredType → Infer InferredType}
    {equations : List Equation}
    (recursion : ∀ {store : Store} {first second : InferredType},
      Enclosed region store depth levels first second →
        KeepsTo region depth store (unifyTypes first second))
    (wellformed : store.Wellformed) (roomy : store.Roomy region)
    (comparable : ∀ equation ∈ equations, equation.Comparable store depth levels)
    (inside : ∀ equation ∈ equations, equation.Inside store region) :
    KeepsTo region depth store (solveEquations registry unifyTypes left right equations) := by
  induction equations generalizing store with
  | nil => exact .ok trivial
  | cons equation equations ih =>
    obtain ⟨here, others⟩ := List.forall_mem_cons.mp comparable
    obtain ⟨insideHere, insideOthers⟩ := List.forall_mem_cons.mp inside
    have rest (after : Store)
        (run : Relation.ReflTransGen (Touching region depth) store after) :
        KeepsTo region depth after
          (solveEquations registry unifyTypes left right equations) := by
      have solving := Touching.run_solving run
      have extended := Solving.run_extends solving
      exact ih (extended.wellformed wellformed) (roomy.run run)
        (fun other member => (others other member).run solving)
        fun other member => (insideOthers other member).run wellformed run
    cases equation with
    | types first second =>
      rw [solveEquations, discard_bind]
      exact (recursion ⟨here, roomy, insideHere.1, insideHere.2⟩).andThen
        fun _ after run _ => rest after run
    | units first second =>
      exact (unifyUnits_keepsTo wellformed here.2.1 here.2.2 roomy insideHere.1
        insideHere.2).andThen fun _ after run _ => rest after run
    | clash => exact mismatch_keepsTo wellformed

theorem unifyPruned_keepsTo
    (recursion : ∀ {store : Store} {first second : InferredType},
      Enclosed region store depth levels first second →
        KeepsTo region depth store (unifyWithin registry levels first second))
    (enclosed : Enclosed region store depth (levels + 1) left right)
    (leftFree : ∀ var, left = .var var → store.typeLink? var = none)
    (rightFree : ∀ var, right = .var var → store.typeLink? var = none) :
    KeepsTo region depth store (unifyPruned registry levels left right) := by
  obtain ⟨comparable, roomy, leftInside, rightInside⟩ := enclosed
  have wellformed := comparable.bounded.wellformed
  have leftFits := comparable.leftFits
  have rightFits := comparable.rightFits
  have positive : 0 < depth := Nat.lt_of_lt_of_le left.depth_pos leftFits.shallow
  have required {var : TypeVar} (fits : store.Fits depth (.var var))
      (free : store.typeLink? var = none) :=
    exists_requirements (covers_var.mp fits.covered) free
  rcases left.var_or_compound with ⟨leftVar, rfl⟩ | leftCompound
  · obtain ⟨leftRequired, leftFound⟩ := required leftFits (leftFree leftVar rfl)
    rcases right.var_or_compound with ⟨rightVar, rfl⟩ | rightCompound
    · obtain ⟨rightRequired, rightFound⟩ := required rightFits (rightFree rightVar rfl)
      rw [unifyPruned]
      split
      · exact .ok trivial
      next different =>
        exact mergeVars_keepsTo wellformed positive leftFound rightFound different leftInside
          rightInside
    · rw [unifyPruned_var_left registry levels leftVar rightCompound]
      exact bindVar_keepsTo wellformed leftFound rightFits
        (leftInside.of_free wellformed (leftFree leftVar rfl)) rightInside
  · rcases right.var_or_compound with ⟨rightVar, rfl⟩ | rightCompound
    · obtain ⟨rightRequired, rightFound⟩ := required rightFits (rightFree rightVar rfl)
      rw [unifyPruned_var_right registry levels rightVar leftCompound]
      exact bindVar_keepsTo wellformed rightFound leftFits
        (rightInside.of_free wellformed (rightFree rightVar rfl)) leftInside
    · rw [unifyPruned_compound registry levels leftCompound rightCompound]
      cases found : decompose left right with
      | none => exact mismatch_keepsTo wellformed
      | some equations =>
        have solved : KeepsTo region depth store
            (solveEquations registry (unifyWithin registry levels) left right equations) :=
          solveEquations_keepsTo recursion wellformed roomy
            (comparable.decompose leftCompound found) fun equation member =>
              inside_of_among (among_of_decompose found equation member) leftInside rightInside
        exact solved.andThen fun _ _ _ _ => .ok trivial

theorem unifyWithin_keepsTo (enclosed : Enclosed region store depth levels left right) :
    KeepsTo region depth store (unifyWithin registry levels left right) := by
  induction levels generalizing store left right with
  | zero => exact absurd (enclosed.stays store .refl) (Nat.not_lt_zero _)
  | succ levels ih =>
    obtain ⟨comparable, roomy, leftInside, rightInside⟩ := enclosed
    have wellformed := comparable.bounded.wellformed
    rw [unifyWithin_succ]
    refine .shorten (prune_yields wellformed left) ?_
    rintro first between firstSteps ⟨firstReaches, firstFree⟩
    have firstRun : Relation.ReflTransGen (Touching region depth) store between :=
      Shortens.touching firstSteps
    have betweenWellformed := (Shortens.settled firstSteps).wellformed wellformed
    have firstInside := (leftInside.run wellformed firstRun).reaches firstReaches
    refine .shorten (prune_yields betweenWellformed right) ?_
    rintro second middle secondSteps ⟨secondReaches, secondFree⟩
    have secondRun : Relation.ReflTransGen (Touching region depth) between middle :=
      Shortens.touching secondSteps
    have run := firstRun.trans secondRun
    exact unifyPruned_keepsTo ih
      ⟨comparable.pruned firstSteps firstReaches secondSteps secondReaches, roomy.run run,
        firstInside.run betweenWellformed secondRun,
        (rightInside.run wellformed run).reaches secondReaches⟩
      (fun var same => (Shortens.settled secondSteps).typeLink?_none.mpr (firstFree var same))
      secondFree

/-- Unification of two types inside a region makes changes in the region only. -/
theorem unify_keepsTo (registry : Option Registry) (wellformed : store.Wellformed)
    (leftCovered : store.Covers left) (rightCovered : store.Covers right)
    (roomy : store.Roomy region) (leftInside : store.Inside region left)
    (rightInside : store.Inside region right) :
    KeepsTo region (left.depth + right.depth + linkDepths store) store
      (unify registry left right) := by
  have comparable := comparable_unificationLevels wellformed leftCovered rightCovered
  refine .read (.recover (unifyWithin_keepsTo ⟨comparable, roomy, leftInside, rightInside⟩) ?_)
  intro error middle run _
  have extended := Solving.run_extends (Touching.run_solving run)
  have middleWellformed := extended.wellformed wellformed
  refine KeepsTo.shorten (render_yields middleWellformed left) fun outer last steps _ => ?_
  have lastWellformed := (Shortens.settled steps).wellformed middleWellformed
  exact .shorten (render_yields lastWellformed right) fun _ _ _ _ => .throw trivial

end Unification

end SheetTypes
