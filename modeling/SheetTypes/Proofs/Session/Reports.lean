import SheetTypes.Session

/-!
The errors of a session. Of those that it is told of, the first ones up to the limit are kept in
their order and the others are counted, whatever succeeds in between. Whether a session has errors
is answered from the kept ones alone: with a limit of zero it never has any.
-/

set_option autoImplicit false

namespace SheetTypes

def ErrorLog.ofErrors (limit : Nat) (errors : List TypeError) : ErrorLog :=
  ⟨limit, errors.take limit, errors.length - limit⟩

theorem ErrorLog.add_ofErrors (limit : Nat) (errors : List TypeError) (error : TypeError) :
    (ofErrors limit errors).add error = ofErrors limit (errors ++ [error]) := by
  unfold add ofErrors
  rw [List.length_append, List.length_singleton]
  dsimp only
  by_cases room : errors.length < limit
  · have whole : errors.take limit = errors := List.take_of_length_le (Nat.le_of_lt room)
    have longer : (errors ++ [error]).take limit = errors ++ [error] :=
      List.take_of_length_le (by rw [List.length_append, List.length_singleton]; omega)
    have counted : errors.length - limit = errors.length + 1 - limit := by omega
    rw [whole, longer, if_pos room, counted]
  · have full : ¬(errors.take limit).length < limit := by rw [List.length_take]; omega
    have counted : errors.length - limit + 1 = errors.length + 1 - limit := by omega
    rw [if_neg full, List.take_append_of_le_length (by omega), counted]

namespace Session

inductive Event : Type 1 where
  | report (error : TypeError)
  | record {α : Type} (result : Except TypeError α)
  | work (action : StateM Store PUnit)

namespace Event

def perform : Event → StateM Session PUnit
  | report error => Session.report error
  | record result => discard (Session.record result)
  | work action => onStore action

def error? : Event → Option TypeError
  | report error => some error
  | record (.error error) => some error
  | record (.ok _) => none
  | work _ => none

theorem log_perform (event : Event) (session : Session) :
    (event.perform session).2.log = event.error?.elim session.log session.log.add := by
  cases event with
  | report error => rfl
  | record result =>
    cases result with
    | ok value => rfl
    | error error => rfl
  | work action => rfl

end Event

def afterEvents (session : Session) (events : List Event) : Session :=
  events.foldl (fun session event => (event.perform session).2) session

theorem log_afterEvents {limit : Nat} {session : Session} {errors : List TypeError}
    (told : session.log = .ofErrors limit errors) (events : List Event) :
    (session.afterEvents events).log =
      .ofErrors limit (errors ++ events.filterMap Event.error?) := by
  induction events generalizing session errors with
  | nil => simpa [afterEvents] using told
  | cons event events ih =>
    have here := event.log_perform session
    rw [told] at here
    rw [afterEvents, List.foldl_cons, List.filterMap_cons]
    cases found : event.error? with
    | none =>
      rw [found] at here
      exact ih here
    | some error =>
      rw [found] at here
      rw [List.append_cons]
      exact ih (here.trans (ErrorLog.add_ofErrors limit errors error))

/-- However errors and successes alternate, the first errors are kept and the others counted. The
session has errors exactly if it was told of one and may keep one. -/
theorem log_keeps_first (registry : Registry) (options : CheckOptions) (events : List Event) :
    let session := (start registry options).afterEvents events
    let errors := events.filterMap Event.error?
    session.log.kept = errors.take options.maxErrors ∧
      session.log.dropped = errors.length - options.maxErrors ∧
      (session.hasErrors = true ↔ 0 < errors.length ∧ 0 < options.maxErrors) := by
  intro session errors
  have told : (start registry options).log = .ofErrors options.maxErrors [] := by
    simp [start, ErrorLog.ofErrors]
  have log : session.log = .ofErrors options.maxErrors errors := log_afterEvents told events
  refine ⟨congrArg ErrorLog.kept log, congrArg ErrorLog.dropped log, ?_⟩
  unfold hasErrors
  rw [log]
  simp [ErrorLog.ofErrors, Nat.pos_iff_ne_zero, and_comm]

/-- A session that keeps no errors is told of one, and counts it, but has none. -/
theorem hasErrors_without_room :
    let session := (start .builtin { maxErrors := 0 }).afterEvents
      [.record (.error (.mismatch "TEXT" "BOOLEAN") : Except TypeError InferredType)]
    session.log.dropped = 1 ∧ session.hasErrors = false := by
  decide

end Session

end SheetTypes
