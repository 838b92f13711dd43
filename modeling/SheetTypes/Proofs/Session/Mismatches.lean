import SheetTypes.Proofs.Session.Reachability
import SheetTypes.Proofs.Store.Pruning
import SheetTypes.Proofs.Unification.Clashes
import SheetTypes.Proofs.Unification.Failures

/-!
What a mismatch shows. Unification goes down in both types on the same way, along links as well, and
reports a mismatch where it meets two types that clash. The links that it has followed stay, so the
types that it shows are found in the resolved types at the end of that way.
-/

set_option autoImplicit false

namespace SheetTypes

/-- Whether one way down leads to two types that clash and are rendered as given. -/
def InferredType.ClashesAs (left right : InferredType) (expected found : String) : Prop :=
  ∃ (path : List TypeTerm.Branch) (first second : InferredType),
    left.at? path = some first ∧ right.at? path = some second ∧ first.Clash second ∧
      first.render = expected ∧ second.render = found

namespace Store

variable {store before after : Store} {depth : Nat} {var : TypeVar}
  {type last left right : InferredType} {expected found : String} {readout : Readout}
  {first second : InferredType}

private theorem leads_iff_ends (compound : last.isVar = false) :
    store.Leads var last ↔ store.Ends var last := by
  constructor
  · intro leads
    induction leads with
    | last linked => exact .target linked compound
    | next linked _ ih => exact .next linked (ih compound)
  · intro ends
    induction ends with
    | free free => cases compound
    | target linked _ => exact .last linked
    | next linked _ ih => exact .next linked (ih compound)

private theorem Leads.kept (leads : before.Leads var last)
    (keeps : ∀ var target, before.typeLink? var = some target →
      after.typeLink? var = some target) : after.Leads var last := by
  induction leads with
  | last linked => exact .last (keeps _ _ linked)
  | next linked _ ih => exact .next (keeps _ _ linked) ih

private theorem shorter_setType (leads : store.Leads var last) :
    (store.setType var (.link last)).Shorter store := by
  constructor
  · intro other
    by_cases same : other = var
    · subst same
      obtain ⟨target, linked⟩ := isTypeBound_iff.mp leads.bound
      rw [typeLink?_setType_self leads.index_lt, linked]
      simp
    · rw [typeLink?_setType_of_ne same]
  · intro other target linked
    by_cases same : other = var
    · subst same
      rw [typeLink?_setType_self leads.index_lt] at linked
      cases linked
      exact leads
    · rw [typeLink?_setType_of_ne same] at linked
      exact .last linked

/-- A variable that stands for a type other than a variable stands for it from then on. -/
theorem Solving.leads (solving : Solving depth before after) (wellformed : before.Wellformed)
    (compound : last.isVar = false) (leads : before.Leads var last) : after.Leads var last := by
  have unbound {requirements : Requirements} {free bound : TypeVar} {target : InferredType}
      (found : before.requirements? free = some requirements)
      (linked : before.typeLink? bound = some target) : bound ≠ free := by
    rintro rfl
    rw [typeLink?_of_requirements found] at linked
    cases linked
  cases solving with
  | adjust adjustment =>
    cases adjustment with
    | shorten shortening =>
      have later := shortening.settled.wellformed wellformed
      cases shortening with
      | type skipped =>
        exact (leads_iff_ends compound).mpr
          ((shorter_setType skipped).ends later ((leads_iff_ends compound).mp leads))
      | unit => exact leads.kept fun _ _ linked => linked
      | note => exact leads.kept fun _ _ linked => linked
    | require found extra =>
      refine leads.kept fun bound target linked => ?_
      rw [typeLink?_setType_of_ne (unbound found linked)]
      exact linked
  | freshUnit => exact leads.kept fun _ _ linked => linked
  | bindUnit => exact leads.kept fun _ _ linked => linked
  | bindType found =>
    refine leads.kept fun bound target linked => ?_
    rw [typeLink?_setType_of_ne (unbound found linked)]
    exact linked

theorem Reaches.run (reaches : before.Reaches type last) (wellformed : before.Wellformed)
    (compound : last.isVar = false)
    (steps : Relation.ReflTransGen (Solving depth) before after) : after.Reaches type last := by
  induction steps with
  | refl => exact reaches
  | tail run solving ih =>
    have now := (Solving.run_extends run).wellformed wellformed
    rcases ih with same | ⟨var, same, leads⟩
    · exact .inl same
    · exact .inr ⟨var, same, solving.leads now compound leads⟩

theorem render_read (wellformed : store.Wellformed) (reads : readout.Reads store) :
    (render type store).1 = (readout.type type).render :=
  congrArg InferredType.render (resolve_read wellformed reads)

/-- Whether two types, as a store is read, clash at the end of one way down and are rendered there
as given. -/
def Clashing (store : Store) (left right : InferredType) (expected found : String) : Prop :=
  ∀ readout : Readout, readout.Reads store →
    (readout.type left).ClashesAs (readout.type right) expected found

theorem Clashing.branch {branch : TypeTerm.Branch}
    (clashing : store.Clashing first second expected found)
    (inLeft : left.branch? branch = some first) (inRight : right.branch? branch = some second) :
    store.Clashing left right expected found := by
  intro readout reads
  obtain ⟨path, one, other, leftFound, rightFound, clash, shown⟩ := clashing readout reads
  refine ⟨branch :: path, one, other, ?_, ?_, clash, shown⟩
  · rw [TypeTerm.at?, Readout.type, TypeTerm.branch?_substitute inLeft]
    exact leftFound
  · rw [TypeTerm.at?, Readout.type, TypeTerm.branch?_substitute inRight]
    exact rightFound

theorem Clashing.reaches (clashing : store.Clashing first second expected found)
    (leftReaches : store.Reaches left first) (rightReaches : store.Reaches right second) :
    store.Clashing left right expected found := by
  intro readout reads
  rw [← leftReaches.read reads, ← rightReaches.read reads]
  exact clashing readout reads

end Store

namespace Unification

open Store

variable {registry : Option Registry} {store after : Store} {depth levels : Nat}
  {left right : InferredType} {error : TypeError} {expected found : String}
  {context : Option (String × String)} {α : Type}

private theorem mismatch_clashing (wellformed : store.Wellformed) (clash : left.Clash right)
    (failed : (mismatch left right : Infer α) store = (.error error, after))
    (shown : error.cause = .mismatch expected found context) :
    after.Clashing left right expected found := by
  have first := (render_yields wellformed left).steps
  have middle := (Shortens.settled first).wellformed wellformed
  have second := (render_yields middle right).steps
  have run : (mismatch left right : Infer α) store =
      (.error (.mismatch (render left store).1 (render right (render left store).2).1),
        (render right (render left store).2).2) := rfl
  rw [run] at failed
  cases failed
  cases shown
  intro readout reads
  have readsMiddle := ((Shortens.settled second).reads middle readout).mp reads
  have readsStore := ((Shortens.settled first).reads wellformed readout).mp readsMiddle
  exact ⟨[], _, _, rfl, rfl, clash.substitute, (render_read wellformed readsStore).symm,
    (render_read middle readsMiddle).symm⟩

private theorem solveEquations_clashing {equations : List Equation}
    (recursion : ∀ {store after : Store} {first second : InferredType},
      Comparable store depth levels first second →
      unifyWithin registry levels first second store = (.error error, after) →
        after.Clashing first second expected found)
    (wellformed : store.Wellformed)
    (comparable : ∀ equation ∈ equations, equation.Comparable store depth levels)
    (located : ∀ equation ∈ equations, equation.Located left right)
    (failed : solveEquations registry (unifyWithin registry levels) left right equations store =
      (.error error, after))
    (shown : error.cause = .mismatch expected found context) :
    after.Clashing left right expected found := by
  induction equations generalizing store with
  | nil => cases failed
  | cons equation equations ih =>
    obtain ⟨here, others⟩ := List.forall_mem_cons.mp comparable
    obtain ⟨locatedHere, locatedOthers⟩ := List.forall_mem_cons.mp located
    have rest {middle : Store} (run : Relation.ReflTransGen (Solving depth) store middle) :=
      ih ((Solving.run_extends run).wellformed wellformed)
        (fun other member => (others other member).run run) locatedOthers
    cases equation with
    | types first second =>
      rw [solveEquations, discard_bind, bind_eq_error] at failed
      rcases failed with failedHere | ⟨type, middle, done, failed⟩
      · obtain ⟨branch, inLeft, inRight⟩ := locatedHere
        exact (recursion here failedHere).branch inLeft inRight
      · have run := (unifyWithin_solves registry depth levels here.bounded here.leftFits
          here.rightFits).yields.steps
        rw [done] at run
        exact rest run failed
    | units first second =>
      rw [solveEquations, bind_eq_error] at failed
      rcases failed with failedHere | ⟨_, middle, done, failed⟩
      · have none := (unifyUnits_noMismatch registry first second store trivial).2
        rw [failedHere] at none
        exact absurd shown (none expected found context)
      · have run :=
          (unifyUnits_solves depth registry wellformed here.2.1 here.2.2).yields.steps
        rw [done] at run
        exact rest run failed
    | clash => exact mismatch_clashing wellformed locatedHere failed shown

private theorem not_links {action : Infer α} (links : Links action)
    (failed : action store = (.error error, after)) :
    error.cause ≠ .mismatch expected found context := by
  have fails := (links store trivial).2
  rw [failed] at fails
  exact TypeError.OfLinking.noMismatch fails expected found context

private theorem unifyPruned_clashing
    (recursion : ∀ {store after : Store} {first second : InferredType},
      Comparable store depth levels first second →
      unifyWithin registry levels first second store = (.error error, after) →
        after.Clashing first second expected found)
    (comparable : Comparable store depth (levels + 1) left right)
    (failed : unifyPruned registry levels left right store = (.error error, after))
    (shown : error.cause = .mismatch expected found context) :
    left.isVar = false ∧ right.isVar = false ∧ after.Clashing left right expected found := by
  have wellformed := comparable.bounded.wellformed
  rcases left.var_or_compound with ⟨leftVar, rfl⟩ | leftCompound
  · rcases right.var_or_compound with ⟨rightVar, rfl⟩ | rightCompound
    · rw [unifyPruned] at failed
      split at failed
      · cases failed
      · exact absurd shown (not_links (compositional_links.mergeVars leftVar rightVar) failed)
    · rw [unifyPruned_var_left registry levels leftVar rightCompound] at failed
      exact absurd shown (not_links (compositional_links.bindVar leftVar right) failed)
  · rcases right.var_or_compound with ⟨rightVar, rfl⟩ | rightCompound
    · rw [unifyPruned_var_right registry levels rightVar leftCompound] at failed
      exact absurd shown (not_links (compositional_links.bindVar rightVar left) failed)
    · refine ⟨leftCompound, rightCompound, ?_⟩
      rw [unifyPruned_compound registry levels leftCompound rightCompound] at failed
      cases decomposed : decompose left right with
      | none =>
        rw [decomposed] at failed
        exact mismatch_clashing wellformed
          (clash_of_decompose leftCompound rightCompound decomposed) failed shown
      | some equations =>
        rw [decomposed, Option.elim_some, bind_eq_error] at failed
        rcases failed with failed | ⟨_, _, _, done⟩
        · exact solveEquations_clashing recursion wellformed
            (comparable.decompose leftCompound decomposed) (located_of_decompose decomposed)
            failed shown
        · cases done

theorem unifyWithin_clashing (comparable : Comparable store depth levels left right)
    (failed : unifyWithin registry levels left right store = (.error error, after))
    (shown : error.cause = .mismatch expected found context) :
    after.Clashing left right expected found := by
  induction levels generalizing store after left right with
  | zero => exact absurd (comparable.stays store .refl) (Nat.not_lt_zero _)
  | succ levels ih =>
    have wellformed := comparable.bounded.wellformed
    rw [unifyWithin_succ, lift_bind_apply, lift_bind_apply] at failed
    have pruneLeft := prune_yields wellformed left
    obtain ⟨firstReaches, firstFree⟩ := pruneLeft.ends
    have firstSteps := pruneLeft.steps
    generalize prune left store = pruned at failed firstReaches firstFree firstSteps
    obtain ⟨first, between⟩ := pruned
    have betweenWellformed := (Shortens.settled firstSteps).wellformed wellformed
    have pruneRight := prune_yields betweenWellformed right
    obtain ⟨secondReaches, secondFree⟩ := pruneRight.ends
    have secondSteps := pruneRight.steps
    generalize prune right between = pruned at failed secondReaches secondFree secondSteps
    obtain ⟨second, middle⟩ := pruned
    have pruned := comparable.pruned firstSteps firstReaches secondSteps secondReaches
    obtain ⟨firstCompound, secondCompound, clashing⟩ := unifyPruned_clashing
      (fun comparable failed => ih comparable failed) pruned failed shown
    have run := (unifyPruned_solves (unifyWithin_solves registry depth levels) pruned.bounded
      pruned.leftFits pruned.rightFits
      (fun var same => (Shortens.settled secondSteps).typeLink?_none.mpr (firstFree var same))
      secondFree).yields.steps
    rw [failed] at run
    have secondRun := Shortens.solving secondSteps depth
    exact clashing.reaches
      (firstReaches.run betweenWellformed firstCompound (secondRun.trans run))
      (secondReaches.run pruned.bounded.wellformed secondCompound run)

private theorem cause_withContext {outer other : String}
    (shown : (error.withContext outer other).cause = .mismatch expected found context) :
    context = some (outer, other) ∧ ∃ earlier, error.cause = .mismatch expected found earlier := by
  unfold TypeError.withContext at shown
  split at shown
  next earlier cause =>
    cases shown
    exact ⟨rfl, earlier, cause⟩
  next other =>
    exact absurd shown (other expected found context)

/-- What a mismatch of two types shows, as the store is read at the end. -/
theorem unify_clashing (wellformed : store.Wellformed) (leftCovered : store.Covers left)
    (rightCovered : store.Covers right)
    (failed : unify registry left right store = (.error error, after))
    (shown : error.cause = .mismatch expected found context) {readout : Readout}
    (reads : readout.Reads after) :
    context = some ((readout.type left).render, (readout.type right).render) ∧
      (readout.type left).ClashesAs (readout.type right) expected found := by
  have comparable := comparable_unificationLevels wellformed leftCovered rightCovered
  have run := (unifyWithin_solves registry _ (unificationLevels store left right)
    comparable.bounded comparable.leftFits comparable.rightFits).yields.steps
  rw [unify, get_bind_apply] at failed
  rcases outcome : unifyWithin registry (unificationLevels store left right) left right store with
    ⟨result, middle⟩
  cases result with
  | ok type =>
    rw [ok_tryCatch_apply outcome] at failed
    cases failed
  | error inner =>
    rw [error_tryCatch_apply outcome, lift_bind_apply, lift_bind_apply] at failed
    rw [outcome] at run
    have middleWellformed := (Solving.run_extends run).wellformed wellformed
    have outerSettled := Shortens.settled (render_yields middleWellformed left).steps
    have lastWellformed := outerSettled.wellformed middleWellformed
    have otherSteps := (render_yields lastWellformed right).steps
    cases failed
    have lastReads := ((Shortens.settled otherSteps).reads lastWellformed readout).mp reads
    have middleReads := (outerSettled.reads middleWellformed readout).mp lastReads
    obtain ⟨shownContext, earlier, cause⟩ := cause_withContext shown
    rw [render_read middleWellformed middleReads, render_read lastWellformed lastReads]
      at shownContext
    have clashing := unifyWithin_clashing comparable outcome cause
    exact ⟨shownContext, clashing readout middleReads⟩

end Unification

namespace Session

variable {session : Session} {left right : InferredType} {after : Store} {error : TypeError}
  {expected found : String} {context : Option (String × String)}

/-- A mismatch shows a real clash: of two types that one way down leads to in both of the given
types, as they are resolved after the attempt. Its context shows the given types. -/
theorem mismatch_shows_clash (reachable : session.Reachable) (registry : Option Registry)
    (leftCovered : session.store.Covers left) (rightCovered : session.store.Covers right)
    (failed : Unification.unify registry left right session.store = (.error error, after))
    (shown : error.cause = .mismatch expected found context) :
    let first : InferredType := (Store.resolve left after).1
    let second : InferredType := (Store.resolve right after).1
    context = some (first.render, second.render) ∧ first.ClashesAs second expected found := by
  have wellformed := reachable.wellformed
  have steps :=
    (Unification.unify_solves registry wellformed leftCovered rightCovered).yields.steps
  rw [failed] at steps
  have extended := Store.Solving.run_extends steps
  have wellformedAfter := extended.wellformed wellformed
  obtain ⟨readout, reads⟩ := wellformedAfter.exists_readout
  have clashing := Unification.unify_clashing wellformed leftCovered rightCovered failed shown reads
  intro first second
  have leftRead : first = readout.type left := Store.resolve_read wellformedAfter reads
  have rightRead : second = readout.type right := Store.resolve_read wellformedAfter reads
  rw [leftRead, rightRead]
  exact clashing

theorem mismatch_shows_clash_results :
    let session := (start .empty {}).after (.freshType .none)
    let left : InferredType := .function [.var ⟨0⟩] (.array (.var ⟨0⟩))
    let right : InferredType :=
      .function [.tuple [.text, .text]] (.array (.tuple [.text, .text, .boolean]))
    let context :=
      ("(((TEXT, TEXT)) -> [(TEXT, TEXT)])", "(((TEXT, TEXT)) -> [(TEXT, TEXT, BOOLEAN)])")
    let cause := Cause.mismatch "(TEXT, TEXT)" "(TEXT, TEXT, BOOLEAN)" (some context)
    ∃ after, Unification.unify none left right session.store = (.error (.ofCause cause), after) ∧
      let first : InferredType := (Store.resolve left after).1
      let second : InferredType := (Store.resolve right after).1
      some context = some (first.render, second.render) ∧
        first.ClashesAs second "(TEXT, TEXT)" "(TEXT, TEXT, BOOLEAN)" := by
  intro session left right context cause
  have reachable : session.Reachable := (reachable_start .empty {}).after (.freshType .none) trivial
  have failed : (Unification.unify none left right session.store).1 = .error (.ofCause cause) := by
    decide +kernel
  have clash (after : Store) (run : Unification.unify none left right session.store =
      (.error (.ofCause cause), after)) :=
    mismatch_shows_clash reachable none (by decide +kernel : session.store.Covers left)
      (by decide +kernel : session.store.Covers right) run rfl
  generalize Unification.unify none left right session.store = unified at failed clash ⊢
  obtain ⟨result, after⟩ := unified
  cases failed
  exact ⟨after, rfl, clash after rfl⟩

end Session

end SheetTypes
