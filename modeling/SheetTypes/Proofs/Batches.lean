import Mathlib.Data.List.Induction
import SheetTypes.CommandLine
import SheetTypes.Proofs.Session.Failures

/-!
Batches of inputs. An input that cannot be read fills its slot at once, and the results of the
others come back by their numbers among the templates; however they are mixed, each outcome ends up
in the place of its input and is what the input comes to by itself. No check gives up, so that there
is an outcome for every input.
-/

set_option autoImplicit false

namespace SheetTypes

/-- A check ends with a type or an error: in a session of its own there is nothing to give up
for. -/
theorem checkTemplate_ne_abort (registry : Registry) (options : CheckOptions) (label : String)
    (template : Template) (message : String) :
    checkTemplate registry options label template ≠ .error (.abort message) := by
  intro aborted
  let session := Session.start registry options
  have wellformed : session.store.Wellformed := Store.empty_wellformed
  have calm := (Session.concretizeTemplate_yields wellformed label template
    (Bindings.covered_empty _)).ends
  have explained := (Session.explains_concretizeTemplate label template .empty session rfl).2
  change ((Session.concretizeTemplate label template).run.run .empty session).1.1 = _ at aborted
  rw [aborted] at calm explained
  exact calm (explained rfl)

def StartWorkers.Serves (start : StartWorkers) (workers : Nat) : Prop :=
  workers = 0 ∨ start workers = .ok ()

section Workers

variable {start : StartWorkers} {registry : Registry} {options : CheckOptions} {workers : Nat}
  {templates : List (String × Template)}

theorem checkBatch_of_serves (serves : start.Serves workers) :
    checkBatch start registry options workers templates =
      .ok (templates.map fun entry => checkTemplate registry options entry.1 entry.2) := by
  unfold checkBatch
  rcases serves with rfl | started
  · rfl
  · by_cases none : workers = 0
    · rw [if_neg (not_not.mpr none)]
      rfl
    · rw [if_pos none, started]
      rfl

theorem checkBatch_of_error {message : String} (some : workers ≠ 0)
    (failed : start workers = .error message) :
    checkBatch start registry options workers templates = .error message := by
  unfold checkBatch
  rw [if_pos some, failed]
  rfl

end Workers

namespace CommandLine

variable {input : String} {inputs : List String} {slots : List (Option Outcome)}

namespace Batch

def outcome (check : String × Template → Except TypeError ConcreteType) (input : String × Nat) :
    Outcome :=
  match Template.parse input.1 with
  | .error error => ⟨input.1, .error (.parse error)⟩
  | .ok template => .ofResult input.1 (check (label input.2, template))

/-- The lists of a batch fit together, and to the inputs that it was made of. -/
structure Fits (inputs : List String) (batch : Batch) : Prop where
  slots : batch.slots.length = inputs.length
  templates : batch.templates.length = batch.positions.length
  positions : ∀ position ∈ batch.positions, position < inputs.length

theorem ofInputs_append (inputs : List String) (input : String) :
    ofInputs (inputs ++ [input]) = (ofInputs inputs).add input := by
  simp [ofInputs]

theorem Fits.add {batch : Batch} (fits : Fits inputs batch) (input : String) :
    Fits (inputs ++ [input]) (batch.add input) := by
  obtain ⟨slots, templates, positions⟩ := fits
  have wider (position : Nat) (member : position ∈ batch.positions) :
      position < (inputs ++ [input]).length := by
    have within := positions position member
    simp only [List.length_append, List.length_singleton]
    omega
  unfold Batch.add
  cases Template.parse input with
  | error error => exact ⟨by simp [slots], templates, wider⟩
  | ok template =>
    refine ⟨by simp [slots], by simp [templates], fun position member => ?_⟩
    rcases List.mem_append.mp member with earlier | last
    · exact wider position earlier
    · rw [List.mem_singleton.mp last, slots]
      simp

theorem fits_ofInputs (inputs : List String) : Fits inputs (ofInputs inputs) := by
  induction inputs using List.reverseRecOn with
  | nil => exact ⟨rfl, rfl, List.forall_mem_nil _⟩
  | append_singleton inputs input ih =>
    rw [ofInputs_append]
    exact ih.add input

theorem length_put (positions : List Nat) (result : Except TypeError ConcreteType × Nat) :
    (put inputs positions slots result).length = slots.length := by
  unfold put
  split
  · rfl
  · exact List.length_set

section Append

variable {positions : List Nat} (within : ∀ position ∈ positions, position < inputs.length)
  (sameLength : slots.length = inputs.length) (input : String) (slot : Option Outcome)
  (later : List Nat)

include within sameLength

/-- A result for one of the first inputs leaves the slot behind them alone. -/
theorem put_append {result : Except TypeError ConcreteType × Nat}
    (numbered : result.2 < positions.length) :
    put (inputs ++ [input]) (positions ++ later) (slots ++ [slot]) result =
      put inputs positions slots result ++ [slot] := by
  have inside := within _ (List.getElem_mem numbered)
  unfold put
  rw [List.getElem?_append_left numbered, List.getElem?_eq_getElem numbered]
  dsimp only
  rw [List.getElem?_append_left inside, List.set_append_left _ _ (by omega)]

theorem foldl_put_append {results : List (Except TypeError ConcreteType × Nat)}
    (numbered : ∀ result ∈ results, result.2 < positions.length) :
    results.foldl (put (inputs ++ [input]) (positions ++ later)) (slots ++ [slot]) =
      results.foldl (put inputs positions) slots ++ [slot] := by
  induction results generalizing slots with
  | nil => rfl
  | cons result results ih =>
    obtain ⟨here, others⟩ := List.forall_mem_cons.mp numbered
    rw [List.foldl_cons, List.foldl_cons, put_append within sameLength input slot later here]
    exact ih ((length_put positions result).trans sameLength) others

end Append

/-- Every slot is filled with what its input comes to. -/
theorem fill_ofInputs (check : String × Template → Except TypeError ConcreteType)
    (inputs : List String) :
    (ofInputs inputs).fill inputs ((ofInputs inputs).templates.map check) =
      inputs.zipIdx.map fun input => some (outcome check input) := by
  induction inputs using List.reverseRecOn with
  | nil => rfl
  | append_singleton inputs input ih =>
    obtain ⟨slots, templates, positions⟩ := fits_ofInputs inputs
    have numbered : ∀ result ∈ ((ofInputs inputs).templates.map check).zipIdx,
        result.2 < (ofInputs inputs).positions.length := by
      intro result member
      have small := List.snd_lt_of_mem_zipIdx member
      simpa [templates] using small
    have first (slot : Option Outcome) (later : List Nat) :=
      (foldl_put_append positions slots input slot later numbered).trans
        (congrArg (· ++ [slot]) ih)
    rw [ofInputs_append, List.zipIdx_append, List.map_append]
    unfold fill Batch.add
    cases read : Template.parse input with
    | error error =>
      have last : outcome check (input, inputs.length) = ⟨input, .error (.parse error)⟩ := by
        simp [outcome, read]
      simpa [last] using first (some ⟨input, .error (.parse error)⟩) []
    | ok template =>
      have last : outcome check (input, inputs.length) =
          .ofResult input (check (label inputs.length, template)) := by
        simp [outcome, read]
      dsimp only
      rw [List.map_append, List.zipIdx_append, List.foldl_append, first none _]
      simp [put, slots, templates, last]

end Batch

/-- What an input comes to by itself, under the given name. -/
inductive ChecksTo (registry : Registry) (options : CheckOptions) (label input : String) :
    Outcome → Prop where
  | unreadable {error : ParseError} (failed : Template.parse input = .error error) :
      ChecksTo registry options label input ⟨input, .error (.parse error)⟩
  | typed {template : Template} {type : ConcreteType} (read : Template.parse input = .ok template)
      (checked : checkTemplate registry options label template = .ok type) :
      ChecksTo registry options label input ⟨input, .ok type.render⟩
  | refused {template : Template} {error : TypeError} (read : Template.parse input = .ok template)
      (failed : checkTemplate registry options label template = .error (.error error)) :
      ChecksTo registry options label input ⟨input, .error (.type error)⟩

variable {start : StartWorkers} {registry : Registry} {config : Config} {options : CheckOptions}
  {label : String} {outcome : Outcome}

theorem ChecksTo.carries (checks : ChecksTo registry options label input outcome) :
    outcome.input = input := by
  cases checks <;> rfl

theorem ChecksTo.succeeded_iff (checks : ChecksTo registry options label input outcome) :
    outcome.succeeded = true ↔ ∃ template type, Template.parse input = .ok template ∧
      checkTemplate registry options label template = .ok type := by
  cases checks with
  | unreadable failed => simp [Outcome.succeeded, failed]
  | typed read checked => simp [Outcome.succeeded, read, checked]
  | refused read failed => simp [Outcome.succeeded, read, failed]

theorem settle_checkTemplate (registry : Registry) (options : CheckOptions)
    (entry : String × Template) :
    ∃ result, settle (checkTemplate registry options entry.1 entry.2) = .ok result := by
  cases found : checkTemplate registry options entry.1 entry.2 with
  | ok type => exact ⟨_, rfl⟩
  | error failure =>
    cases failure with
    | error error => exact ⟨_, rfl⟩
    | abort message => exact absurd found (checkTemplate_ne_abort _ _ _ _ _)

section Checked

variable {check : String × Template → Except TypeError ConcreteType}
  (checked : ∀ entry : String × Template,
    settle (checkTemplate registry options entry.1 entry.2) = .ok (check entry))

include checked

theorem mapM_settle (entries : List (String × Template)) :
    (entries.map fun entry => checkTemplate registry options entry.1 entry.2).mapM settle =
      .ok (entries.map check) := by
  induction entries with
  | nil => rfl
  | cons entry entries ih =>
    rw [List.map_cons, List.mapM_cons, checked, ih]
    rfl

theorem checksTo_outcome (input : String) (position : Nat) :
    ChecksTo registry options (Batch.label position) input
      (Batch.outcome check (input, position)) := by
  unfold Batch.outcome
  cases read : Template.parse input with
  | error error => exact .unreadable read
  | ok template =>
    have settled := checked (Batch.label position, template)
    dsimp only at settled ⊢
    cases found : checkTemplate registry options (Batch.label position) template with
    | ok type =>
      rw [found] at settled
      rw [← Except.ok.inj settled]
      exact .typed read found
    | error failure =>
      cases failure with
      | error error =>
        rw [found] at settled
        rw [← Except.ok.inj settled]
        exact .refused read found
      | abort message => exact absurd found (checkTemplate_ne_abort _ _ _ _ _)

end Checked

theorem checkInputs_eq {check : String × Template → Except TypeError ConcreteType}
    (checked : ∀ entry : String × Template,
      settle (checkTemplate registry config.checkOptions entry.1 entry.2) = .ok (check entry))
    (serves : start.Serves config.workers) (inputs : List String) :
    checkInputs start registry config inputs =
      .ok (inputs.zipIdx.map (Batch.outcome check)) := by
  have results := mapM_settle checked (Batch.ofInputs inputs).templates
  unfold checkInputs
  dsimp only
  rw [checkBatch_of_serves serves, Except.mapError, except_ok_bind, results, except_ok_bind,
    Batch.fill_ofInputs, List.filterMap_map]
  exact congrArg Except.ok (congrFun List.filterMap_eq_map _)

theorem exit_report (config : Config) (colored : Bool) (outcomes : List Outcome) :
    (Outcome.report config colored outcomes).exit = 0 ↔
      ∀ outcome ∈ outcomes, outcome.succeeded = true := by
  rw [← List.all_eq_true]
  unfold Outcome.report
  dsimp only
  split <;> cases outcomes.all Outcome.succeeded <;> simp

/-- A check stops if its workers cannot be started. Otherwise there is an outcome for every input,
in the place of the input, and it is what the input comes to by itself. The exit code is zero
exactly if every input can be read and has a type. -/
theorem checkInputs_in_place (start : StartWorkers) (registry : Registry) (config : Config)
    (colored : Bool) (inputs : List String) :
    (∀ message, config.workers ≠ 0 → start config.workers = .error message →
      execute start registry config colored (.check inputs) = .error (.workers message)) ∧
    (start.Serves config.workers →
      ∃ outcomes, checkInputs start registry config inputs = .ok outcomes ∧
        outcomes.length = inputs.length ∧
        (∀ position input, inputs[position]? = some input →
          ∃ outcome, outcomes[position]? = some outcome ∧ outcome.input = input ∧
            ChecksTo registry config.checkOptions (Batch.label position) input outcome) ∧
        execute start registry config colored (.check inputs) =
          .ok (Outcome.report config colored outcomes) ∧
        ((Outcome.report config colored outcomes).exit = 0 ↔
          ∀ position input, inputs[position]? = some input →
            ∃ template type, Template.parse input = .ok template ∧
              checkTemplate registry config.checkOptions (Batch.label position) template =
                .ok type)) := by
  constructor
  · intro message some failed
    rw [execute, checkInputs, checkBatch_of_error some failed]
    rfl
  intro serves
  choose check checked using settle_checkTemplate registry config.checkOptions
  have done := checkInputs_eq checked serves inputs
  have found (position : Nat) (input : String) (present : inputs[position]? = some input) :
      (inputs.zipIdx.map (Batch.outcome check))[position]? =
        some (Batch.outcome check (input, position)) := by
    simp [present]
  refine ⟨_, done, by simp, fun position input present => ?_, ?_, ?_⟩
  · have checks := checksTo_outcome checked input position
    exact ⟨_, found position input present, checks.carries, checks⟩
  · rw [execute, done]
    rfl
  · rw [exit_report]
    constructor
    · intro all position input present
      exact (checksTo_outcome checked input position).succeeded_iff.mp
        (all _ (List.mem_of_getElem? (found position input present)))
    · intro each outcome member
      obtain ⟨⟨input, position⟩, numbered, rfl⟩ := List.mem_map.mp member
      have present := List.mem_zipIdx_iff_getElem?.mp numbered
      exact (checksTo_outcome checked input position).succeeded_iff.mpr
        (each position input present)

theorem checkInputs_in_place_texts :
    let start : StartWorkers := fun workers => if workers ≤ 4 then .ok () else .error "no room"
    let config : Config := { workers := 4 }
    let inputs := ["TEXT", "(", "NUMBER {m}"]
    execute start .builtin { config with workers := 5 } false (.check inputs) =
        .error (.workers "no room") ∧
      ∃ outcomes, checkInputs start .builtin config inputs = .ok outcomes ∧
        outcomes.length = 3 ∧ outcomes[1]?.map Outcome.input = some "(" ∧
        (Outcome.report config false outcomes).exit ≠ 0 := by
  intro start config inputs
  obtain ⟨stops, _⟩ := checkInputs_in_place start .builtin { config with workers := 5 } false inputs
  obtain ⟨_, checks⟩ := checkInputs_in_place start .builtin config false inputs
  obtain ⟨outcomes, done, length, each, _, exits⟩ := checks (.inr rfl)
  obtain ⟨outcome, present, carries, _⟩ := each 1 "(" rfl
  refine ⟨stops "no room" (by decide) rfl, outcomes, done, length, ?_, fun zero => ?_⟩
  · rw [present, ← carries]
    rfl
  · obtain ⟨template, _, read, _⟩ := exits.mp zero 1 "(" rfl
    have unreadable : (Template.parse "(").toOption = none := by decide +kernel
    rw [read] at unreadable
    cases unreadable

end CommandLine

end SheetTypes
