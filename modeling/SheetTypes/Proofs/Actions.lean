import Mathlib.Logic.Relation

/-!
Reasoning about actions on a state. An action is described from a given state on: which kind of
steps it makes, and what holds of its result and of the state at the end. Two actions agree if
they do the same from that state; walks along links are compared that way with walks that may take
more of them.
-/

set_option autoImplicit false

namespace SheetTypes

/-- An action that may fail; what it has changed before then stays. -/
abbrev Attempt (ε σ : Type) := ExceptT ε (StateM σ)

section Running

variable {σ ε α β : Type} {state after : σ} {error : ε} {next : α → Except ε β}
  {result : Except ε α} {value : α}

theorem get_bind_apply (next : σ → Attempt ε σ β) :
    ((get : Attempt ε σ σ) >>= next) state = next state state := rfl

theorem state_get_bind_apply (next : σ → StateM σ β) :
    ((get : StateM σ σ) >>= next) state = next state state := rfl

theorem state_bind_apply (action : StateM σ α) (next : α → StateM σ β) :
    (action >>= next) state = next (action state).1 (action state).2 := rfl

theorem lift_bind_apply (action : StateM σ α) (next : α → Attempt ε σ β) :
    ((liftM action : Attempt ε σ α) >>= next) state =
      next (action state).1 (action state).2 := rfl

theorem ok_bind_apply {action : Attempt ε σ α} (done : action state = (.ok value, after))
    (next : α → Attempt ε σ β) : (action >>= next : Attempt ε σ β) state = next value after := by
  change ExceptT.bindCont next (action state).1 (action state).2 = _
  rw [done]
  rfl

theorem error_bind_apply {action : Attempt ε σ α} (failed : action state = (.error error, after))
    (next : α → Attempt ε σ β) :
    (action >>= next : Attempt ε σ β) state = (.error error, after) := by
  change ExceptT.bindCont next (action state).1 (action state).2 = _
  rw [failed]
  rfl

/-- A sequence of actions succeeds exactly if the actions do, one after the other. -/
theorem bind_eq_ok {action : Attempt ε σ α} {next : α → Attempt ε σ β} {value : β} :
    (action >>= next : Attempt ε σ β) state = (.ok value, after) ↔
      ∃ first middle, action state = (.ok first, middle) ∧
        next first middle = (.ok value, after) := by
  rcases outcome : action state with ⟨result, middle⟩
  cases result with
  | error error =>
    rw [error_bind_apply outcome]
    constructor
    · intro done
      cases done
    · rintro ⟨_, _, done, _⟩
      cases done
  | ok first =>
    rw [ok_bind_apply outcome]
    constructor
    · exact fun done => ⟨first, middle, rfl, done⟩
    · rintro ⟨_, _, same, done⟩
      cases same
      exact done

/-- A sequence of actions fails exactly if the first does, or the rest does after it. -/
theorem bind_eq_error {action : Attempt ε σ α} {next : α → Attempt ε σ β} :
    (action >>= next : Attempt ε σ β) state = (.error error, after) ↔
      action state = (.error error, after) ∨
        ∃ first middle, action state = (.ok first, middle) ∧
          next first middle = (.error error, after) := by
  rcases outcome : action state with ⟨result, middle⟩
  cases result with
  | error error =>
    rw [error_bind_apply outcome]
    constructor
    · intro failed
      cases failed
      exact .inl rfl
    · rintro (failed | ⟨_, _, done, _⟩)
      · cases failed
        rfl
      · cases done
  | ok first =>
    rw [ok_bind_apply outcome]
    constructor
    · exact fun failed => .inr ⟨first, middle, rfl, failed⟩
    · rintro (failed | ⟨_, _, same, failed⟩)
      · cases failed
      · cases same
        exact failed

theorem result_bind_eq_ok {next : α → Attempt ε σ β} {value : β} :
    ((ExceptT.mk (pure result) : Attempt ε σ α) >>= next : Attempt ε σ β) state =
        (.ok value, after) ↔
      ∃ first, result = .ok first ∧ next first state = (.ok value, after) := by
  rw [bind_eq_ok]
  constructor
  · rintro ⟨first, middle, here, done⟩
    cases here
    exact ⟨first, rfl, done⟩
  · rintro ⟨first, rfl, done⟩
    exact ⟨first, state, rfl, done⟩

@[simp]
theorem except_ok_bind (value : α) (next : α → Except ε β) :
    ((.ok value : Except ε α) >>= next) = next value := rfl

theorem except_error_ne_ok : (.error error : Except ε α) ≠ .ok value := by
  intro same
  cases same

theorem except_getD_of_ok {default : α} (done : result = .ok value) :
    result.toOption.getD default = value := by
  rw [done]
  rfl

theorem except_bind_eq_ok {value : β} :
    (result >>= next) = .ok value ↔ ∃ first, result = .ok first ∧ next first = .ok value := by
  cases result with
  | error error =>
    constructor
    · intro done
      cases done
    · rintro ⟨_, done, _⟩
      cases done
  | ok first =>
    constructor
    · exact fun done => ⟨first, rfl, done⟩
    · rintro ⟨_, same, done⟩
      cases same
      exact done

theorem except_bind_succeeds :
    (∃ value, (result >>= next) = .ok value) ↔
      ∃ first, result = .ok first ∧ ∃ value, next first = .ok value := by
  simp only [except_bind_eq_ok]
  constructor
  · rintro ⟨value, first, here, rest⟩
    exact ⟨first, here, value, rest⟩
  · rintro ⟨first, here, value, rest⟩
    exact ⟨value, first, here, rest⟩

theorem except_map_succeeds (change : α → β) :
    (∃ value, (result >>= fun first => pure (change first)) = .ok value) ↔
      ∃ first, result = .ok first := by
  rw [except_bind_succeeds]
  constructor
  · rintro ⟨first, here, _⟩
    exact ⟨first, here⟩
  · rintro ⟨first, here⟩
    exact ⟨first, here, change first, rfl⟩

theorem except_both_succeed {γ : Type} {left : Except ε α} {right : Except ε β}
    (join : α → β → γ) :
    (∃ value, (left >>= fun first => right >>= fun second => pure (join first second)) =
        .ok value) ↔
      (∃ first, left = .ok first) ∧ ∃ second, right = .ok second := by
  rw [except_bind_succeeds]
  simp only [except_map_succeeds, exists_and_right]

theorem except_map_eq_ok {make : α → β} {value : β} :
    (result >>= fun first => pure (make first)) = .ok value ↔
      ∃ first, result = .ok first ∧ make first = value := by
  rw [except_bind_eq_ok]
  exact exists_congr fun first => and_congr_right fun _ => ⟨Except.ok.inj, congrArg Except.ok⟩

theorem except_both_eq_ok {γ : Type} {right : α → Except ε β} {join : α → β → γ} {value : γ} :
    (result >>= fun first => right first >>= fun second => pure (join first second)) = .ok value ↔
      ∃ first, result = .ok first ∧ ∃ second, right first = .ok second ∧
        join first second = value := by
  rw [except_bind_eq_ok]
  exact exists_congr fun first => and_congr_right fun _ => except_map_eq_ok

theorem ok_tryCatch_apply {action : Attempt ε σ α} (done : action state = (.ok value, after))
    (handle : ε → Attempt ε σ α) :
    (tryCatch action handle : Attempt ε σ α) state = (.ok value, after) := by
  simp only [tryCatch, tryCatchThe, MonadExceptOf.tryCatch, ExceptT.tryCatch, ExceptT.mk, bind,
    StateT.bind]
  rw [done]
  rfl

theorem error_tryCatch_apply {action : Attempt ε σ α}
    (failed : action state = (.error error, after)) (handle : ε → Attempt ε σ α) :
    (tryCatch action handle : Attempt ε σ α) state = handle error after := by
  simp only [tryCatch, tryCatchThe, MonadExceptOf.tryCatch, ExceptT.tryCatch, ExceptT.mk, bind,
    StateT.bind]
  rw [failed]

end Running

/-- From the given state, two actions do the same: they make steps of one kind, and the result and
the state at the end are as described. -/
structure Agree {σ α : Type} (step : σ → σ → Prop) (state : σ)
    (action other : StateM σ α) (post : α → σ → Prop) : Prop where
  same : action state = other state
  steps : Relation.ReflTransGen step state (action state).2
  ends : post (action state).1 (action state).2

abbrev Yields {σ α : Type} (step : σ → σ → Prop) (state : σ) (action : StateM σ α)
    (post : α → σ → Prop) : Prop :=
  Agree step state action action post

def Results {ε α : Type} (fault : ε → Prop) (post : α → Prop) : Except ε α → Prop
  | .ok value => post value
  | .error error => fault error

def Outcome {σ ε α : Type} (fault : ε → Prop) (post : α → σ → Prop) (result : Except ε α)
    (state : σ) : Prop :=
  Results fault (post · state) result

namespace Results

variable {ε α β : Type} {fault : ε → Prop} {post post' : α → Prop} {result : Except ε α}

theorem mono (holds : Results fault post result) (weaker : ∀ value, post value → post' value) :
    Results fault post' result := by
  cases result with
  | error error => exact holds
  | ok value => exact weaker value holds

theorem of_error {error : ε} (holds : Results fault post result)
    (failed : result = .error error) : fault error := by
  rw [failed] at holds
  exact holds

theorem andThen {last : β → Prop} {next : α → Except ε β} (first : Results fault post result)
    (rest : ∀ value, post value → Results fault last (next value)) :
    Results fault last (result >>= next) := by
  cases result with
  | error error => exact first
  | ok value => exact rest value first

end Results

namespace Agree

variable {σ ε α β : Type} {step step' : σ → σ → Prop} {state : σ}
  {action other : StateM σ α} {post post' : α → σ → Prop} {fault : ε → Prop} {after : σ}
  {holds : α → Prop} {items : List α} {last : β → σ → Prop} {otherTest test : α → StateM σ Bool}
  {value : α}

theorem pure (holds : post value state) : Agree step state (pure value) (pure value) post :=
  ⟨rfl, .refl, holds⟩

theorem bind {next otherNext : α → StateM σ β} (first : Agree step state action other post)
    (rest : ∀ value after, Relation.ReflTransGen step state after → post value after →
      Agree step after (next value) (otherNext value) last) :
    Agree step state (action >>= next) (other >>= otherNext) last := by
  have second := rest _ _ first.steps first.ends
  refine ⟨?_, first.steps.trans second.steps, second.ends⟩
  change next (action state).1 (action state).2 = otherNext (other state).1 (other state).2
  rw [second.same, first.same]

theorem get {next otherNext : σ → StateM σ β}
    (rest : Agree step state (next state) (otherNext state) last) :
    Agree step state (MonadState.get >>= next) (MonadState.get >>= otherNext) last :=
  ⟨rest.same, rest.steps, rest.ends⟩

theorem modify {change : σ → σ} (made : step state (change state)) :
    Yields step state (modify change) fun _ after => after = change state :=
  ⟨rfl, .single made, rfl⟩

theorem mono (agree : Agree step state action other post)
    (weaker : ∀ value after, Relation.ReflTransGen step state after → post value after →
      post' value after) : Agree step state action other post' :=
  ⟨agree.same, agree.steps, weaker _ _ agree.steps agree.ends⟩

theorem of_apply (done : action state = (value, after))
    (steps : Relation.ReflTransGen step state after) (holds : post value after) :
    Yields step state action post := by
  refine ⟨rfl, ?_, ?_⟩
  · rw [done]
    exact steps
  · rw [done]
    exact holds

theorem steps_to (agree : Agree step state action other post)
    (done : action state = (value, after)) : Relation.ReflTransGen step state after := by
  have steps := agree.steps
  rw [done] at steps
  exact steps

theorem left (agree : Agree step state action other post) : Yields step state action post :=
  ⟨rfl, agree.steps, agree.ends⟩

theorem mono_step (agree : Agree step state action other post)
    (included : ∀ before after, step before after → step' before after) :
    Agree step' state action other post :=
  ⟨agree.same, Relation.ReflTransGen.mono included _ _ agree.steps, agree.ends⟩

theorem ok (holds : post value state) :
    Agree step state (Pure.pure value : Attempt ε σ α) (Pure.pure value : Attempt ε σ α)
      (Outcome fault post) :=
  ⟨rfl, .refl, holds⟩

theorem throw {error : ε} (holds : fault error) :
    Agree step state (MonadExcept.throw error : Attempt ε σ α)
      (MonadExcept.throw error : Attempt ε σ α) (Outcome fault post) :=
  ⟨rfl, .refl, holds⟩

theorem lift (agree : Agree step state action other post) :
    Agree step state (liftM action : Attempt ε σ α) (liftM other : Attempt ε σ α)
      (Outcome fault post) := by
  refine ⟨?_, agree.steps, agree.ends⟩
  change (Except.ok (action state).1, (action state).2) =
    (Except.ok (other state).1, (other state).2)
  rw [agree.same]

theorem andThen {first otherFirst : Attempt ε σ α} {next otherNext : α → Attempt ε σ β}
    (begins : Agree step state first otherFirst (Outcome fault post))
    (rest : ∀ value after, Relation.ReflTransGen step state after → post value after →
      Agree step after (next value) (otherNext value) (Outcome fault last)) :
    Agree step state (first >>= next : Attempt ε σ β) (otherFirst >>= otherNext : Attempt ε σ β)
      (Outcome fault last) := by
  obtain ⟨same, steps, ends⟩ := begins
  generalize outcome : first state = result at same steps ends
  obtain ⟨found, after⟩ := result
  cases found with
  | error error =>
    have stops := error_bind_apply outcome next
    refine ⟨?_, ?_, ?_⟩
    · rw [stops, error_bind_apply same.symm]
    · rw [stops]
      exact steps
    · rw [stops]
      exact ends
  | ok value =>
    have second := rest value after steps ends
    have continues := ok_bind_apply outcome next
    refine ⟨?_, ?_, ?_⟩
    · rw [continues, ok_bind_apply same.symm]
      exact second.same
    · rw [continues]
      exact steps.trans second.steps
    · rw [continues]
      exact second.ends

theorem read {next otherNext : σ → Attempt ε σ β}
    (rest : Agree step state (next state) (otherNext state) (Outcome fault last)) :
    Agree step state (MonadState.get >>= next : Attempt ε σ β)
      (MonadState.get >>= otherNext : Attempt ε σ β) (Outcome fault last) :=
  ⟨rest.same, rest.steps, rest.ends⟩

theorem infer_mono {action other : Attempt ε σ α} {fault' : ε → Prop}
    (agree : Agree step state action other (Outcome fault post))
    (weaker : ∀ value after, Relation.ReflTransGen step state after → post value after →
      post' value after)
    (fewer : ∀ error, fault error → fault' error) :
    Agree step state action other (Outcome fault' post') := by
  refine agree.mono fun found after steps holds => ?_
  cases found with
  | ok value => exact weaker value after steps holds
  | error error => exact fewer error holds

theorem recover {action : Attempt ε σ α} {handle : ε → Attempt ε σ α}
    (begins : Yields step state action (Outcome fault post))
    (rest : ∀ error after, Relation.ReflTransGen step state after → fault error →
      Yields step after (handle error) (Outcome fault post)) :
    Yields step state (tryCatch action handle : Attempt ε σ α) (Outcome fault post) := by
  obtain ⟨_, steps, ends⟩ := begins
  generalize outcome : action state = result at steps ends
  obtain ⟨found, after⟩ := result
  cases found with
  | ok value => exact .of_apply (ok_tryCatch_apply outcome handle) steps ends
  | error error =>
    have second := rest error after steps ends
    have whole := error_tryCatch_apply outcome handle
    refine ⟨rfl, ?_, ?_⟩
    · rw [whole]
      exact steps.trans second.steps
    · rw [whole]
      exact second.ends

theorem anyM
    (each : ∀ item ∈ items, ∀ later, Relation.ReflTransGen step state later →
      Agree step later (test item) (otherTest item) fun found _ => found = true ↔ holds item) :
    Agree step state (items.anyM test) (items.anyM otherTest)
      fun found _ => found = true ↔ ∃ item ∈ items, holds item := by
  induction items generalizing state with
  | nil => exact .pure (by simp)
  | cons item items ih =>
    have first := each item (List.mem_cons_self ..) state .refl
    refine first.bind fun found after steps answer => ?_
    cases found with
    | true => exact .pure ⟨fun _ => ⟨item, List.mem_cons_self .., answer.mp rfl⟩, fun _ => rfl⟩
    | false =>
      refine (ih fun other member later further =>
        each other (List.mem_cons_of_mem _ member) later (steps.trans further)).mono ?_
      intro found last _ rest
      rw [rest]
      constructor
      · rintro ⟨other, member, here⟩
        exact ⟨other, List.mem_cons_of_mem _ member, here⟩
      · rintro ⟨other, member, here⟩
        rcases List.mem_cons.mp member with same | later
        · subst same
          exact absurd (answer.mpr here) (by simp)
        · exact ⟨other, later, here⟩

theorem allM
    (each : ∀ item ∈ items, ∀ later, Relation.ReflTransGen step state later →
      Agree step later (test item) (otherTest item) fun found _ => found = true ↔ holds item) :
    Agree step state (items.allM test) (items.allM otherTest)
      fun found _ => found = true ↔ ∀ item ∈ items, holds item := by
  induction items generalizing state with
  | nil => exact .pure (by simp)
  | cons item items ih =>
    have first := each item (List.mem_cons_self ..) state .refl
    refine first.bind fun found after steps answer => ?_
    cases found with
    | true =>
      refine (ih fun other member later further =>
        each other (List.mem_cons_of_mem _ member) later (steps.trans further)).mono ?_
      intro found last _ rest
      rw [rest, List.forall_mem_cons]
      exact (and_iff_right (answer.mp rfl)).symm
    | false =>
      refine .pure (iff_of_false Bool.false_ne_true fun all => ?_)
      exact Bool.false_ne_true (answer.mpr (all item (List.mem_cons_self ..)))

/-- What holds after each item, and stays, holds of all items in the end. -/
theorem forM {visit otherVisit : α → Attempt ε σ PUnit} (holds : α → σ → Prop)
    (stays : ∀ item middle after, Relation.ReflTransGen step state middle →
      Relation.ReflTransGen step middle after → holds item middle → holds item after)
    (each : ∀ item ∈ items, ∀ later, Relation.ReflTransGen step state later →
      Agree step later (visit item) (otherVisit item)
        (Outcome fault fun _ after => holds item after)) :
    Agree step state (items.forM visit : Attempt ε σ PUnit)
      (items.forM otherVisit : Attempt ε σ PUnit)
      (Outcome fault fun _ after => ∀ item ∈ items, holds item after) := by
  induction items generalizing state with
  | nil => exact .ok (by simp)
  | cons item items ih =>
    have first := each item (List.mem_cons_self ..) state .refl
    refine first.andThen fun _ after steps here => ?_
    have rest := ih
      (fun other middle last reached => stays other middle last (steps.trans reached))
      fun other member later further =>
        each other (List.mem_cons_of_mem _ member) later (steps.trans further)
    refine rest.infer_mono (fun _ last further others => ?_) fun _ holds => holds
    intro other member
    rcases List.mem_cons.mp member with same | later
    · rw [same]
      exact stays item after last steps further here
    · exact others other later

end Agree

end SheetTypes
