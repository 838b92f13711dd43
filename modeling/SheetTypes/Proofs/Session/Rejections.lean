import Mathlib.Logic.Function.Iterate
import SheetTypes.Proofs.Session.Requirements

/-!
Requirements that are rejected. Capabilities are required of the parts of a type from left to
right, and nothing is taken back: where a part lacks one of them, the variables before that part
keep what has been required of them, once for each time that they were met. All other requirements
stay as they are, and all types resolve to what they did.
-/

set_option autoImplicit false

namespace SheetTypes

namespace TypeTerm

variable {ν υ : Type}

def visitsInside (required : Requirements) (offered : List String) (inside : List (Option ν)) :
    List (Option ν) :=
  if (required.shortfall? offered).isSome then [none] else inside

mutual

/-- Where capabilities that are required of a type come to, from left to right: to variables, and
to parts that lack one of them, for which `none` stands. -/
def visits (required : Requirements) : TypeTerm ν υ → List (Option ν)
  | .var name => [some name]
  | .function _ _ => visitsInside required [] []
  | .number _ | .text | .boolean | .date _ => visitsInside required allCapabilities []
  | .tuple items => visitsInside required allCapabilities (itemsVisits required items)
  | .array item => visitsInside required allCapabilities (visits required item)
  | .record fields => visitsInside required allCapabilities (fieldsVisits required fields)
  | .tagged _ operands => visitsInside required allCapabilities (operandsVisits required operands)

def itemsVisits (required : Requirements) : List (TypeTerm ν υ) → List (Option ν)
  | [] => []
  | item :: items => visits required item ++ itemsVisits required items

def fieldsVisits (required : Requirements) : List (String × TypeTerm ν υ) → List (Option ν)
  | [] => []
  | (_, type) :: fields => visits required type ++ fieldsVisits required fields

def operandsVisits (required : Requirements) :
    List (Operand (TypeTerm ν υ) υ) → List (Option ν)
  | [] => []
  | .type value :: operands => visits required value ++ operandsVisits required operands
  | .unit _ :: operands => operandsVisits required operands

end

variable {required : Requirements} {type : TypeTerm ν υ} {μ ω : Type}

private theorem itemsVisits_eq (items : List (TypeTerm ν υ)) :
    itemsVisits required items = items.flatMap (visits required) := by
  induction items with
  | nil => rfl
  | cons item items ih => rw [itemsVisits, List.flatMap_cons, ih]

private theorem fieldsVisits_eq (fields : List (String × TypeTerm ν υ)) :
    fieldsVisits required fields = (fields.map Prod.snd).flatMap (visits required) := by
  induction fields with
  | nil => rfl
  | cons field fields ih => rw [fieldsVisits, List.map_cons, List.flatMap_cons, ih]

private theorem operandsVisits_eq (operands : List (Operand (TypeTerm ν υ) υ)) :
    operandsVisits required operands = (operandTypes operands).flatMap (visits required) := by
  induction operands with
  | nil => rfl
  | cons operand operands ih =>
    cases operand with
    | type value =>
      rw [operandsVisits, ih]
      rfl
    | unit value => exact ih

theorem visits_children (compound : type.isVar = false) :
    type.visits required = visitsInside required type.offered
      (if type.offersThroughChildren then type.children.flatMap (visits required) else []) := by
  cases type with
  | var name => cases compound
  | tuple items => rw [visits, itemsVisits_eq]; rfl
  | array item => rw [visits, ← List.flatMap_singleton (visits required) item]; rfl
  | record fields => rw [visits, fieldsVisits_eq]; rfl
  | tagged name operands => rw [visits, operandsVisits_eq]; rfl
  | _ => rfl

theorem offersThroughChildren_substitute (onVar : ν → TypeTerm μ ω) (onUnit : υ → ω)
    (compound : type.isVar = false) :
    (type.substitute onVar onUnit).offersThroughChildren = type.offersThroughChildren := by
  cases type with
  | var name => cases compound
  | _ => simp [offersThroughChildren]

/-- The visits to a type with others put in for its variables. -/
theorem visits_substitute (onVar : ν → TypeTerm μ ω) (onUnit : υ → ω)
    (compound : type.isVar = false) :
    (type.substitute onVar onUnit).visits required = visitsInside required type.offered
      (if type.offersThroughChildren then
        type.children.flatMap fun child => (child.substitute onVar onUnit).visits required
      else []) := by
  rw [visits_children (isVar_substitute compound), offered_substitute _ _ compound,
    offersThroughChildren_substitute _ _ compound, children_substitute _ _ compound,
    List.flatMap_map]

end TypeTerm

def passedOn {ν : Type} : List (Option ν) → List ν
  | some name :: visits => name :: passedOn visits
  | _ => []

variable {ν : Type} {first : List (Option ν)}

theorem passedOn_append_of_complete (complete : none ∉ first) (second : List (Option ν)) :
    passedOn (first ++ second) = passedOn first ++ passedOn second := by
  induction first with
  | nil => rfl
  | cons visit first ih =>
    rw [List.mem_cons, not_or] at complete
    cases visit with
    | none => exact absurd rfl complete.1
    | some name => exact congrArg (name :: ·) (ih complete.2)

theorem passedOn_append_of_ended (ended : none ∈ first) (second : List (Option ν)) :
    passedOn (first ++ second) = passedOn first := by
  induction first with
  | nil => cases ended
  | cons visit first ih =>
    cases visit with
    | none => rfl
    | some name =>
      have later : none ∈ first := by simpa using ended
      exact congrArg (name :: ·) (ih later)

namespace Store

variable {store before middle after : Store} {required : Requirements}
  {visits more : List (Option TypeVar)}

/-- Whether requirements have been added to those of given variables, once for each time that a
variable is listed, and nothing else has changed but links that were shortened. -/
structure Requires (required : Requirements) (passed : List TypeVar) (before after : Store) :
    Prop where
  settled : before.Settled after
  requirements : ∀ var, after.requirements? var =
    (before.requirements? var).map (Requirements.union · required)^[passed.count var]

namespace Requires

variable {passed further : List TypeVar}

theorem trans (first : Requires required passed before middle)
    (second : Requires required further middle after) :
    Requires required (passed ++ further) before after where
  settled := first.settled.trans second.settled
  requirements var := by
    rw [second.requirements, first.requirements, Option.map_map, ← Function.iterate_add,
      List.count_append, Nat.add_comm]

theorem of_shortens (shortens : before.Shortens after) : Requires required [] before after where
  settled := Shortens.settled shortens
  requirements var := by
    rw [Shortens.requirements shortens, List.count_nil, Function.iterate_zero, Option.map_id]
    rfl

theorem of_found {var : TypeVar} {requirements : Requirements}
    (found : store.requirements? var = some requirements) :
    Requires required [var] store (store.setType var (.unbound (requirements.union required))) where
  settled := (Adjustment.require found required).settled
  requirements other := by
    by_cases same : other = var
    · rw [same, requirements?_setType_self (index_lt_of_requirements found), found,
        List.count_singleton_self]
      rfl
    · rw [requirements?_setType_of_ne same, List.count_singleton, if_neg]
      · rw [Function.iterate_zero, Option.map_id]
        rfl
      · simpa using Ne.symm same

end Requires

/-- What a run that requires capabilities has done: it has made all visits, or all before the first
part that lacks something. Nothing is said of internal errors. -/
def Traced (required : Requirements) (visits : List (Option TypeVar)) (before : Store) :
    Except TypeError Unit × Store → Prop
  | (.ok _, after) => none ∉ visits ∧ Requires required (passedOn visits) before after
  | (.error error, after) => error.isInternal = false →
      none ∈ visits ∧ Requires required (passedOn visits) before after

namespace Traced

theorem andThen {action next : Infer Unit} (first : Traced required visits store (action store))
    (rest : ∀ after, store.Settled after → Traced required more after (next after)) :
    Traced required (visits ++ more) store ((action >>= fun _ => next : Infer Unit) store) := by
  generalize ran : action store = run at first
  obtain ⟨result, middle⟩ := run
  cases result with
  | error error =>
    rw [error_bind_apply ran]
    intro external
    obtain ⟨ended, requires⟩ := first external
    rw [passedOn_append_of_ended ended]
    exact ⟨List.mem_append_left _ ended, requires⟩
  | ok value =>
    rw [ok_bind_apply ran]
    obtain ⟨complete, requires⟩ := first
    have second := rest middle requires.settled
    generalize next middle = run at second
    obtain ⟨result, after⟩ := run
    cases result with
    | error error =>
      intro external
      obtain ⟨ended, further⟩ := second external
      rw [passedOn_append_of_complete complete]
      exact ⟨List.mem_append_right _ ended, requires.trans further⟩
    | ok value =>
      obtain ⟨completeMore, further⟩ := second
      refine ⟨fun member => ?_, ?_⟩
      · exact (List.mem_append.mp member).elim complete completeMore
      · rw [passedOn_append_of_complete complete]
        exact requires.trans further

theorem shortened {run : Except TypeError Unit × Store} (traced : Traced required visits middle run)
    (shortens : before.Shortens middle) : Traced required visits before run := by
  have first : Requires required [] before middle := .of_shortens shortens
  obtain ⟨result, after⟩ := run
  cases result with
  | error error =>
    intro external
    obtain ⟨ended, requires⟩ := traced external
    exact ⟨ended, first.trans requires⟩
  | ok value => exact ⟨traced.1, first.trans traced.2⟩

theorem forM {α : Type} {items : List α} {visit : α → Infer Unit}
    {visitsOf : α → List (Option TypeVar)}
    (each : ∀ item ∈ items, ∀ later, store.Settled later →
      Traced required (visitsOf item) later (visit item later)) :
    Traced required (items.flatMap visitsOf) store ((items.forM visit : Infer Unit) store) := by
  induction items generalizing store with
  | nil => exact ⟨List.not_mem_nil, .of_shortens .refl⟩
  | cons item items ih =>
    obtain ⟨here, others⟩ := List.forall_mem_cons.mp each
    rw [List.flatMap_cons]
    refine (here store (.refl store)).andThen fun after settled => ih ?_
    exact fun other member later further => others other member later (settled.trans further)

end Traced

variable {readout : Readout} {var : TypeVar}

private theorem enforceTerm_traced (wellformed : store.Wellformed) (reads : readout.Reads store)
    {type : InferredType} {onVar : TypeVar → Infer Unit}
    (each : ∀ var, type.HasVar var → ∀ later, store.Settled later →
      Traced required ((readout.types var).visits required) later (onVar var later)) :
    Traced required ((readout.type type).visits required) store
      (enforceTerm onVar required type store) := by
  induction type using TypeTerm.induction_children generalizing store with
  | step type ih =>
    rcases type.var_or_compound with ⟨var, rfl⟩ | compound
    · exact each var (TypeTerm.hasVar_var.mpr rfl) store (.refl store)
    · have visited : (readout.type type).visits required = _ :=
        TypeTerm.visits_substitute _ _ compound
      rw [visited, enforceTerm_children onVar compound, TypeTerm.visitsInside]
      cases lacking : required.shortfall? type.offered with
      | some shortfall =>
        have failed : checkOffered required type store =
            (.error (shortfall.toError (render type store).1), (render type store).2) := by
          rw [checkOffered, lacking]
          rfl
        rw [error_bind_apply failed]
        intro _
        exact ⟨List.mem_singleton_self _,
          .of_shortens (resolve_reads wellformed reads type).steps⟩
      | none =>
        have met : checkOffered required type store = (.ok (), store) := by
          rw [checkOffered, lacking]
          rfl
        rw [ok_bind_apply met]
        cases type.offersThroughChildren with
        | false => exact ⟨List.not_mem_nil, .of_shortens .refl⟩
        | true =>
          apply Traced.forM
          intro child member later settled
          apply ih child member (settled.wellformed wellformed)
            ((settled.reads wellformed readout).mpr reads)
          intro var has next further
          exact each var (TypeTerm.mem_leaves_of_child member has) next
            (settled.trans further)

private theorem addRequirements_traced (free : store.typeLink? var = none) :
    Traced required [some var] store (addRequirements var required store) := by
  cases found : store.requirements? var with
  | some requirements =>
    rw [addRequirements_apply found]
    exact ⟨by simp, .of_found found⟩
  | none =>
    have foreign : addRequirements var required store = (.error (strange var.text), store) := by
      unfold typeLink? at free
      unfold requirements? at found
      rw [addRequirements, get_bind_apply]
      cases cell : store.types[var.index]? with
      | none => rfl
      | some content =>
        rw [cell] at free found
        cases content with
        | unbound requirements => cases found
        | link target => cases free
    rw [foreign]
    intro external
    cases external

private theorem enforceVar_traced {start : Store} {rank : TypeVar → Nat}
    (wellformed : start.Wellformed) (ranking : start.TypeRanking rank)
    (reads : readout.Reads start) {links : Nat} (enough : rank var < links)
    (settled : start.Settled store) :
    Traced required ((readout.types var).visits required) store
      (enforceVar required links var store) := by
  induction links generalizing var store with
  | zero => cases enough
  | succ links ih =>
    have prunes := prune_yields (settled.wellformed wellformed) (.var var)
    have steps := prunes.steps
    have ends := prunes.ends
    rw [enforceVar, lift_bind_apply]
    generalize prune (.var var) store = run at steps ends
    obtain ⟨type, middle⟩ := run
    obtain ⟨reaches, free⟩ := ends
    have settledMiddle := settled.trans (Shortens.settled steps)
    have wellformedMiddle := settledMiddle.wellformed wellformed
    have readsMiddle := (settledMiddle.reads wellformed readout).mpr reads
    have read : readout.types var = readout.type type := (reaches.read readsMiddle).symm
    apply Traced.shortened _ steps
    rw [read]
    rcases type.var_or_compound with ⟨last, rfl⟩ | compound
    · rw [Readout.type_var, readsMiddle.freeTypes last (free last rfl)]
      exact addRequirements_traced (free last rfl)
    · obtain ⟨_, same, leads⟩ := reaches.resolve_left (TypeTerm.ne_var compound var)
      cases same
      have deeper : Traced required ((readout.type type).visits required) middle
          (enforceTerm (enforceVar required links) required type middle) := by
        apply enforceTerm_traced wellformedMiddle readsMiddle
        intro next has later further
        have less := leads.rank_lt (settledMiddle.typeRanked rank ranking) has
        exact ih (by omega) (settledMiddle.trans further)
      cases type with
      | var name => cases compound
      | _ => exact deeper

/-- Requiring capabilities of a type passes them on to the variables that it is read with, up to
the first part that lacks one of them. -/
theorem enforce_traced (wellformed : store.Wellformed) (reads : readout.Reads store)
    (present : required.isEmpty = false) (type : InferredType) :
    Traced required ((readout.type type).visits required) store (enforce required type store) := by
  obtain ⟨rank, ranking, small⟩ := wellformed.exists_typeRanking
  have opened : enforce required type store =
      enforceTerm (enforceVar required (store.types.size + 1)) required type store := by
    rw [enforce, present]
    rfl
  rw [opened]
  apply enforceTerm_traced wellformed reads
  intro var _ later settled
  exact enforceVar_traced wellformed ranking reads (Nat.lt_succ_of_le (small var)) settled

end Store

namespace Session

open Store

variable {session after : Session}

/-- Errors that are not internal pass unchanged. -/
theorem inferEscalating_eq_error {α : Type} {action : Infer α} {error : TypeError}
    (failed : inferEscalating action session = (.error (.error error), after)) :
    action session.store = (.error error, after.store) := by
  generalize ran : action session.store = run
  obtain ⟨result, store⟩ := run
  have whole : inferEscalating action session = escalate result { session with store } := by
    change escalate (action session.store).1 { session with store := (action session.store).2 } = _
    rw [ran]
  rw [whole] at failed
  cases result with
  | ok value => cases failed
  | error found =>
    have escalated : (escalate (.error found) : Checking α) { session with store } =
        (.error (found.escalate session.options.abortOnInternal), { session with store }) := rfl
    rw [escalated, TypeError.escalate] at failed
    split at failed
    · cases failed
    · cases failed
      rfl

/-- A requirement that a part of the type cannot meet is rejected, and every type resolves to what
it did. Of what is required of variables only this has changed: those that the type resolves to
before the first such part are asked for the capability once more each time they occur there. -/
theorem require_rejected (reachable : session.Reachable) (type : InferredType)
    (capability origin : String) {error : TypeError}
    (rejected : require type capability origin session = (.error (.error error), after))
    (lacking : ∃ shown missing origins, error.cause = .missingCapability shown missing origins) :
    let required := Requirements.single capability origin
    let visits := (Store.resolve type session.store).1.visits required
    none ∈ visits ∧
    (∀ other, (Store.resolve other after.store).1 = (Store.resolve other session.store).1) ∧
    ∀ var, after.store.requirements? var = (session.store.requirements? var).map
      (Requirements.union · required)^[(passedOn visits).count var] := by
  intro required visits
  have wellformed := reachable.wellformed
  obtain ⟨readout, reads⟩ := wellformed.exists_readout
  have resolves : (Store.resolve type session.store).1 = readout.type type :=
    resolve_read wellformed reads
  have external : error.isInternal = false := by
    obtain ⟨_, _, _, cause⟩ := lacking
    rw [TypeError.isInternal, cause]
    rfl
  have present : required.isEmpty = false := rfl
  have traced := enforce_traced wellformed reads present type
  rw [inferEscalating_eq_error rejected, ← resolves] at traced
  obtain ⟨ended, settled, requirements⟩ := traced external
  exact ⟨ended, settled.resolve wellformed, requirements⟩

/-- The variable in front of the function is asked twice, and the one behind it never. -/
theorem require_rejected_tuple :
    let session := ((start .empty {}).after (.freshType .none)).after (.freshType .none)
    let type : InferredType :=
      .tuple [.var ⟨0⟩, .array (.var ⟨0⟩), .function [.var ⟨1⟩] .text, .var ⟨1⟩]
    let required := Requirements.single "Equatable" "="
    ∃ error after, require type "Equatable" "=" session = (.error (.error error), after) ∧
      after.store.requirements? ⟨0⟩ = some ((Requirements.none.union required).union required) ∧
      after.store.requirements? ⟨1⟩ = some .none ∧
      ∀ other, (Store.resolve other after.store).1 = (Store.resolve other session.store).1 := by
  intro session type required
  have reachable : session.Reachable :=
    ((reachable_start .empty {}).after (.freshType .none) trivial).after (.freshType .none) trivial
  have failed : (require type "Equatable" "=" session).1 = .error (.error (.ofCause
      (.missingCapability "((_t1) -> TEXT)" ["Equatable"] ["Equatable needed by ="]))) := by
    decide +kernel
  have resolved : (Store.resolve type session.store).1 = type := by decide +kernel
  have open0 : session.store.requirements? ⟨0⟩ = some .none := by decide +kernel
  have open1 : session.store.requirements? ⟨1⟩ = some .none := by decide +kernel
  generalize ran : require type "Equatable" "=" session = run at failed
  obtain ⟨result, after⟩ := run
  cases failed
  obtain ⟨_, resolves, requirements⟩ :=
    require_rejected reachable type "Equatable" "=" ran ⟨_, _, _, rfl⟩
  refine ⟨_, after, rfl, ?_, ?_, resolves⟩
  · rw [requirements, open0, resolved]
    rfl
  · rw [requirements, open1, resolved]
    rfl

/-- A variable keeps a requirement that was rejected because of what comes after it, and cannot be
unified with a function any more. -/
theorem rejected_requirement_remains :
    let session := (start .empty {}).after (.freshType .none)
    let function : InferredType := .function [.number .scalar] (.number .scalar)
    let run := require (.tuple [.var ⟨0⟩, function]) "Equatable" "=" session
    session.Reachable ∧
      run.1 = .error (.error (.ofCause (.missingCapability "((NUMBER) -> NUMBER)" ["Equatable"]
        ["Equatable needed by ="]))) ∧
      run.2.store.requirements? ⟨0⟩ ≠ session.store.requirements? ⟨0⟩ ∧
      (unify (.var ⟨0⟩) function session).1 = .ok function ∧
      (unify (.var ⟨0⟩) function run.2).1.isOk = false := by
  refine ⟨(reachable_start .empty {}).after (.freshType .none) trivial, ?_⟩
  decide +kernel

end Session

end SheetTypes
