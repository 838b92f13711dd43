import SheetTypes.Proofs.Store.Separation
import SheetTypes.Proofs.Unification.Types

/-!
Unification with a spare variable. A type variable that is created before a unification and does not
take part in it makes no difference: the same steps are made, and the variable is left as it is. The
numbers of links and levels that are followed at most depend on how many variables there are, so it
is shown as well that more of them change nothing. Unified with a type, the variable is linked to
what the type stands for.
-/

set_option autoImplicit false

namespace SheetTypes

namespace Store

open Unification

variable {α β : Type} {store : Store} {count : Nat} {after before : Store} {links : Nat}
  {requirements : Requirements} {type : InferredType} {var : TypeVar}

/-- The store with one more type variable, of which nothing is required. -/
def withSpare (store : Store) : Store := store.withType .none

theorem typeLink?_withSpare (store : Store) : store.withSpare.typeLink? = store.typeLink? :=
  typeLink?_withType store .none

theorem types_size_withSpare (store : Store) :
    store.withSpare.types.size = store.types.size + 1 :=
  types_size_withType store .none

theorem types_size_withSpare_lt (store : Store) :
    store.withSpare.types.size < store.types.size + 2 := by
  rw [types_size_withSpare]
  exact Nat.lt_succ_self _

theorem getElem?_withSpare {index : Nat} (within : index < store.types.size) :
    store.withSpare.types[index]? = store.types[index]? := by
  unfold withSpare withType
  rw [Array.getElem?_push, if_neg (Nat.ne_of_lt within)]

theorem requirements?_withSpare (within : var.index < store.types.size) :
    store.withSpare.requirements? var = store.requirements? var := by
  unfold requirements?
  rw [getElem?_withSpare within]

theorem requirements?_withSpare_of_found (found : store.requirements? var = some requirements) :
    store.withSpare.requirements? var = some requirements :=
  (requirements?_withSpare (index_lt_of_requirements found)).trans found

theorem setType_withSpare (within : var.index < store.types.size) (cell : TypeCell) :
    store.withSpare.setType var cell = (store.setType var cell).withSpare := by
  unfold withSpare withType setType
  congr 1
  apply Array.ext_getElem?
  intro index
  grind

theorem Wellformed.withSpare (wellformed : store.Wellformed) : store.withSpare.Wellformed := by
  refine wellformed.of_links store.typeLink?_withSpare rfl ?_ (Nat.le_refl _)
  rw [types_size_withSpare]
  exact Nat.le_succ _

theorem Covers.withSpare (covered : store.Covers type) : store.withSpare.Covers type := by
  refine ⟨fun var has => ?_, covered.2⟩
  rw [types_size_withSpare]
  exact Nat.lt_succ_of_lt (covered.1 var has)

/-- Whether a spare variable makes no difference to an action from a store, and is left alone. -/
structure Spares (store : Store) (action : StateM Store α) (post : α → Store → Prop) : Prop where
  same : action store.withSpare = ((action store).1, (action store).2.withSpare)
  ends : post (action store).1 (action store).2

def SparesAttempt (store : Store) (action : Infer α) (post : α → Store → Prop) : Prop :=
  (∃ value after, action store = (.ok value, after) ∧
    action store.withSpare = (.ok value, after.withSpare) ∧ post value after) ∨
  (∃ error, (action store).1 = .error error) ∧ ∃ error, (action store.withSpare).1 = .error error

namespace Spares

variable {action : StateM Store α} {post post' : α → Store → Prop}

theorem pure {value : α} (holds : post value store) : Spares store (Pure.pure value) post :=
  ⟨rfl, holds⟩

theorem bind {next : α → StateM Store β} {last : β → Store → Prop}
    (first : Spares store action post)
    (rest : ∀ value after, post value after → Spares after (next value) last) :
    Spares store (action >>= next) last := by
  obtain ⟨same, ends⟩ := first
  obtain ⟨sameRest, endsRest⟩ := rest _ _ ends
  refine ⟨?_, endsRest⟩
  rw [state_bind_apply, state_bind_apply, same]
  exact sameRest

theorem anyM {items : List α} {test : α → StateM Store Bool} {keep : Store → Prop}
    (each : ∀ item ∈ items, ∀ now, keep now → Spares now (test item) fun _ after => keep after)
    (holds : keep store) : Spares store (items.anyM test) fun _ after => keep after := by
  induction items generalizing store with
  | nil => exact .pure holds
  | cons item items ih =>
    obtain ⟨here, others⟩ := List.forall_mem_cons.mp each
    refine (here store holds).bind fun found after kept => ?_
    cases found with
    | true => exact .pure kept
    | false => exact ih others kept

end Spares

namespace SparesAttempt

variable {action : Infer α} {post post' : α → Store → Prop} {last : β → Store → Prop}
  {next : α → Infer β}

theorem ok {value : α} (holds : post value store) : SparesAttempt store (pure value) post :=
  .inl ⟨value, store, rfl, rfl, holds⟩

theorem mono (spares : SparesAttempt store action post)
    (weaker : ∀ value after, action store = (.ok value, after) → post value after →
      post' value after) : SparesAttempt store action post' := by
  rcases spares with ⟨value, after, ran, ranSpare, holds⟩ | failed
  · exact .inl ⟨value, after, ran, ranSpare, weaker value after ran holds⟩
  · exact .inr failed

/-- Only what an action does from the two stores matters. -/
theorem congr {other : Infer α} (spares : SparesAttempt store other post)
    (same : action store = other store)
    (sameSpare : action store.withSpare = other store.withSpare) :
    SparesAttempt store action post := by
  unfold SparesAttempt
  rw [same, sameSpare]
  exact spares

theorem lift {action : StateM Store α} (spares : Spares store action post) :
    SparesAttempt store (liftM action) post := by
  refine .inl ⟨(action store).1, (action store).2, rfl, ?_, spares.ends⟩
  change (Except.ok (action store.withSpare).1, (action store.withSpare).2) = _
  rw [spares.same]

theorem andThen (first : SparesAttempt store action post)
    (rest : ∀ value after, action store = (.ok value, after) → post value after →
      SparesAttempt after (next value) last) : SparesAttempt store (action >>= next) last := by
  rcases first with ⟨value, after, ran, ranSpare, holds⟩ | ⟨⟨error, failed⟩, other, failedSpare⟩
  · exact (rest value after ran holds).elim
      (fun done => .inl (by rwa [ok_bind_apply ran, ok_bind_apply ranSpare]))
      fun fails => .inr (by rwa [ok_bind_apply ran, ok_bind_apply ranSpare])
  · refine .inr ⟨⟨error, ?_⟩, other, ?_⟩
    · rw [error_bind_apply (Prod.ext failed rfl) next]
    · rw [error_bind_apply (Prod.ext failedSpare rfl) next]

/-- An action of another kind may come first. -/
theorem follow {action : StateM Store α} (first : Spares store action post)
    (rest : ∀ value after, post value after → SparesAttempt after (next value) last) :
    SparesAttempt store (bind (m := StateM Store) action next) last := by
  unfold SparesAttempt
  rw [state_bind_apply, state_bind_apply, first.same]
  exact rest _ _ first.ends

theorem read {next : Store → Infer β} (reads : next store.withSpare = next store)
    (rest : SparesAttempt store (next store) last) : SparesAttempt store (get >>= next) last := by
  refine rest.congr (get_bind_apply next) ?_
  rw [get_bind_apply, reads]

theorem forM {items : List α} {visit : α → Infer PUnit} {keep : Store → Prop}
    (each : ∀ item ∈ items, ∀ now, keep now →
      SparesAttempt now (visit item) fun _ after => keep after)
    (holds : keep store) : SparesAttempt store (items.forM visit) fun _ after => keep after := by
  induction items generalizing store with
  | nil => exact .ok holds
  | cons item items ih =>
    obtain ⟨here, others⟩ := List.forall_mem_cons.mp each
    exact (here store holds).andThen fun _ _ _ kept => ih others kept

theorem of_commutes (commutes : Commutes withSpare action)
    (holds : ∀ value after, action store = (.ok value, after) → post value after) :
    SparesAttempt store action post := by
  have same := commutes store
  generalize ran : action store = run at same holds
  obtain ⟨found, after⟩ := run
  cases found with
  | error error =>
    refine .inr ⟨⟨error, by rw [ran]⟩, error, by rw [same]⟩
  | ok value => exact .inl ⟨value, after, ran, same, holds value after rfl⟩

/-- What shows a text in an error fails, with a spare variable or without. -/
theorem fail (text : StateM Store String) (error : String → TypeError) :
    SparesAttempt store (do throw (error (← text)) : Infer α) post :=
  .inr ⟨⟨_, rfl⟩, _, rfl⟩

end SparesAttempt

theorem follow_withSpare (store : Store) (links : Nat) (type : InferredType) :
    store.withSpare.follow links type = store.follow links type := by
  induction links generalizing type with
  | zero => rfl
  | succ links ih =>
    cases type with
    | var var =>
      simp only [follow, typeLink?_withSpare]
      cases store.typeLink? var with
      | none => rfl
      | some target => simp only [ih]
    | _ => rfl

/-- No more links are followed than the rank of a variable. -/
theorem follow_enough {rank : TypeVar → Nat} (ranking : store.TypeRanking rank) {more : Nat}
    (enough : rank var ≤ links) (moreEnough : rank var ≤ more) :
    store.follow links (.var var) = store.follow more (.var var) := by
  induction links generalizing var more with
  | zero =>
    have free := typeLink?_of_rank_zero ranking (Nat.le_zero.mp enough)
    rw [follow_unbound free, follow_unbound free]
  | succ links ih =>
    cases linked : store.typeLink? var with
    | none => rw [follow_unbound linked, follow_unbound linked]
    | some target =>
      have positive := ranking.positive var (isTypeBound_iff.mpr ⟨target, linked⟩)
      obtain ⟨more, rfl⟩ := Nat.exists_eq_add_of_lt (Nat.lt_of_lt_of_le positive moreEnough)
      rw [Nat.zero_add, follow_link linked, follow_link linked]
      rcases target.var_or_compound with ⟨next, rfl⟩ | compound
      · have less := ranking.below var next
          ⟨_, linked, by simp [TypeTerm.HasVar, TypeTerm.leaves]⟩
        rw [ih (by omega) (by omega : rank next ≤ more)]
      · rw [follow_of_not_var compound, follow_of_not_var compound]

theorem index_lt_of_followed (passed : var ∈ (store.follow links type).2) :
    var.index < store.types.size := by
  induction links generalizing type with
  | zero => cases passed
  | succ links ih =>
    rcases type.var_or_compound with ⟨first, rfl⟩ | compound
    · cases linked : store.typeLink? first with
      | none =>
        rw [follow_unbound linked] at passed
        cases passed
      | some target =>
        rw [follow_link linked] at passed
        rcases List.mem_cons.mp passed with rfl | later
        · exact index_lt_of_typeLink linked
        · exact ih later
    · rw [follow_of_not_var compound] at passed
      cases passed

private theorem foldl_setType_withSpare {vars : List TypeVar}
    (within : ∀ var ∈ vars, var.index < store.types.size) (cell : TypeCell) :
    vars.foldl (fun store var => store.setType var cell) store.withSpare =
      (vars.foldl (fun store var => store.setType var cell) store).withSpare := by
  induction vars generalizing store with
  | nil => rfl
  | cons var vars ih =>
    obtain ⟨here, others⟩ := List.forall_mem_cons.mp within
    rw [List.foldl_cons, List.foldl_cons, setType_withSpare here]
    refine ih fun other member => ?_
    rw [types_size_setType]
    exact others other member

theorem prune_withSpare (wellformed : store.Wellformed) (type : InferredType) :
    prune type store.withSpare = ((prune type store).1, (prune type store).2.withSpare) := by
  rcases type.var_or_compound with ⟨var, rfl⟩ | compound
  · obtain ⟨rank, ranking, small⟩ := wellformed.exists_typeRanking
    have followed : store.withSpare.follow store.withSpare.types.size (.var var) =
        store.follow store.types.size (.var var) := by
      rw [follow_withSpare, types_size_withSpare]
      exact follow_enough ranking (Nat.le_succ_of_le (small var)) (small var)
    have within (other : TypeVar) := @index_lt_of_followed store store.types.size (.var var) other
    generalize walked : store.follow store.types.size (.var var) = result at followed within
    obtain ⟨last, passed⟩ := result
    rw [prune_apply followed, prune_apply walked, foldl_setType_withSpare within]
    split <;> rfl
  · rw [prune_of_not_var compound, prune_of_not_var compound]

structure Sound (count : Nat) (store : Store) : Prop where
  wellformed : store.Wellformed
  typeCount : store.types.size = count

theorem Sound.settled (sound : before.Sound count) (settled : before.Settled after) :
    after.Sound count :=
  ⟨settled.wellformed sound.wellformed, settled.typeCount.trans sound.typeCount⟩

theorem prune_spares (wellformed : store.Wellformed) (type : InferredType) :
    Spares store (prune type) fun result after =>
      store.Shortens after ∧ after.Reaches type result ∧
        ∀ last, result = .var last → after.typeLink? last = none :=
  have yields := prune_yields wellformed type
  ⟨prune_withSpare wellformed type, yields.steps, yields.ends⟩

/-- What links lead to from a variable is over the variables that there are. -/
theorem Sound.index_lt (sound : store.Sound count) {first : TypeVar} {result : InferredType}
    (within : first.index < count) (reaches : store.Reaches (.var first) result)
    (has : result.HasVar var) : var.index < count := by
  rw [← sound.typeCount] at within ⊢
  exact (reaches.covers sound.wellformed (covers_var.mpr within)).1 var has

private theorem anyVarM_spares {test : TypeVar → StateM Store Bool}
    (covered : ∀ var, type.HasVar var → var.index < count)
    (each : ∀ var, var.index < count → ∀ now : Store, now.Sound count →
      Spares now (test var) fun _ after => after.Sound count) (sound : store.Sound count) :
    Spares store (type.anyVarM test) fun _ after => after.Sound count := by
  induction type using TypeTerm.induction_children generalizing store with
  | step type ih =>
    rcases type.var_or_compound with ⟨var, rfl⟩ | compound
    · exact each var (covered var (TypeTerm.hasVar_var.mpr rfl)) store sound
    · rw [TypeTerm.anyVarM_children test compound]
      refine .anyM (fun child member now nowSound => ?_) sound
      exact ih child member
        (fun var has => covered var (TypeTerm.mem_leaves_of_child member has)) nowSound

private theorem occurrence_spares (var : TypeVar) (links : Nat) {candidate : TypeVar}
    (within : candidate.index < count) (sound : store.Sound count) :
    Spares store (occurrence var (fun _ => return false) links candidate)
      fun _ after => after.Sound count := by
  induction links generalizing store candidate with
  | zero => exact .pure sound
  | succ links ih =>
    refine (prune_spares sound.wellformed _).bind fun type after holds => ?_
    obtain ⟨steps, reaches, _⟩ := holds
    have afterSound := sound.settled (Shortens.settled steps)
    rcases type.var_or_compound with ⟨last, rfl⟩ | compound
    · exact .pure afterSound
    · have deeper := anyVarM_spares (fun next has => afterSound.index_lt within reaches has)
        (fun next inside now nowSound => ih inside nowSound) afterSound
      cases type with
      | var name => cases compound
      | _ => exact deeper

theorem occurs_spares (wellformed : store.Wellformed) (var : TypeVar)
    (covered : store.Covers type) :
    Spares store (occurs var type) fun found after =>
      store.Shortens after ∧ (found = true ↔ (store.shape type).HasVar var) := by
  have own := occurs_agree wellformed var covered (fun _ => return false)
    (Nat.lt_add_of_pos_right Nat.zero_lt_two)
  have spare := occurs_agree wellformed.withSpare var covered.withSpare (fun _ => return false)
    store.types_size_withSpare_lt
  refine ⟨?_, own.steps, own.ends⟩
  rw [own.same, spare.same]
  exact (anyVarM_spares covered.1 (fun _ within _ sound => occurrence_spares var _ within sound)
    ⟨wellformed, rfl⟩).same

theorem addRequirements_spares (found : store.requirements? var = some requirements)
    (extra : Requirements) :
    SparesAttempt store (addRequirements var extra) fun _ after =>
      after = store.setType var (.unbound (requirements.union extra)) := by
  refine .inl ⟨(), _, addRequirements_apply found extra, ?_, rfl⟩
  rw [addRequirements_apply (requirements?_withSpare_of_found found),
    setType_withSpare (index_lt_of_requirements found)]

private theorem enforceTerm_spares (required : Requirements) {onVar : TypeVar → Infer Unit}
    (covered : ∀ var, type.HasVar var → var.index < count)
    (each : ∀ var, var.index < count → ∀ now : Store, now.Sound count →
      SparesAttempt now (onVar var) fun _ after => after.Sound count) (sound : store.Sound count) :
    SparesAttempt store (enforceTerm onVar required type) fun _ after => after.Sound count := by
  induction type using TypeTerm.induction_children generalizing store with
  | step type ih =>
    rcases type.var_or_compound with ⟨var, rfl⟩ | compound
    · exact each var (covered var (TypeTerm.hasVar_var.mpr rfl)) store sound
    · have checked : SparesAttempt store (checkOffered required type)
          fun _ after => after.Sound count := by
        unfold checkOffered
        split
        · exact .fail _ _
        · exact .ok sound
      rw [enforceTerm_children onVar compound]
      refine checked.andThen fun _ middle _ middleSound => ?_
      split
      · refine .forM (fun child member now nowSound => ?_) middleSound
        exact ih child member
          (fun var has => covered var (TypeTerm.mem_leaves_of_child member has)) nowSound
      · exact .ok middleSound

private theorem enforcement_spares (required : Requirements) (links : Nat)
    (within : var.index < count) (sound : store.Sound count) :
    SparesAttempt store (enforcement required (fun _ => pure ()) links var)
      fun _ after => after.Sound count := by
  induction links generalizing store var with
  | zero => exact .ok sound
  | succ links ih =>
    refine SparesAttempt.follow (prune_spares sound.wellformed _) fun type after holds => ?_
    obtain ⟨steps, reaches, free⟩ := holds
    have afterSound := sound.settled (Shortens.settled steps)
    rcases type.var_or_compound with ⟨last, rfl⟩ | compound
    · have inside := afterSound.index_lt within reaches (TypeTerm.hasVar_var.mpr rfl)
      rw [← afterSound.typeCount] at inside
      obtain ⟨requirements, found⟩ := exists_requirements inside (free last rfl)
      refine (addRequirements_spares found required).mono fun _ later _ made => ?_
      rw [made]
      exact afterSound.settled (Adjustment.require found required).settled
    · have deeper := enforceTerm_spares required
        (fun next has => afterSound.index_lt within reaches has)
        (fun next inside now nowSound => ih inside nowSound) afterSound
      cases type with
      | var name => cases compound
      | _ => exact deeper

theorem enforce_spares (wellformed : store.Wellformed) (covered : store.Covers type)
    (required : Requirements) :
    SparesAttempt store (enforce required type) fun _ after =>
      Demands required (store.shape type).HasVar store after := by
  have own := enforce_agree wellformed covered required (fun _ => pure ())
    (Nat.lt_add_of_pos_right Nat.zero_lt_two)
  have spare := enforce_agree wellformed.withSpare covered.withSpare required (fun _ => pure ())
    store.types_size_withSpare_lt
  have walks : SparesAttempt store
      (if required.isEmpty then pure ()
        else enforceTerm (enforcement required (fun _ => pure ()) (store.types.size + 2)) required
          type : Infer Unit) fun _ _ => True := by
    split
    · exact .ok trivial
    · exact (enforceTerm_spares required covered.1
        (fun _ within _ sound => enforcement_spares required _ within sound)
        ⟨wellformed, rfl⟩).mono fun _ _ _ _ => trivial
  exact (walks.congr own.same spare.same).mono fun value after ran _ => own.steps_to ran

theorem linkType_spares (found : store.requirements? var = some requirements)
    (target : InferredType) : SparesAttempt store (linkType var target) fun _ _ => True := by
  refine .inl ⟨(), _, linkType_apply found, ?_, trivial⟩
  rw [linkType_apply (requirements?_withSpare_of_found found),
    setType_withSpare (index_lt_of_requirements found)]

def spare (store : Store) : TypeVar := ⟨store.types.size⟩

theorem spare_eq (count : after.types.size = before.types.size) :
    before.spare = after.spare := congrArg TypeVar.mk count.symm

theorem Wellformed.index_lt_of_hasVar_shape (wellformed : store.Wellformed)
    (covered : store.Covers type) (has : (store.shape type).HasVar var) :
    var.index < store.types.size := by
  obtain ⟨rank, ranking⟩ := wellformed.typesRanked
  have inside (outer : TypeVar) (within : outer.index < store.types.size)
      (has : (store.shape (.var outer)).HasVar var) : var.index < store.types.size := by
    induction outer using ranking.induction with
    | step outer ih =>
      cases linked : store.typeLink? outer with
      | none =>
        rw [shape_unbound linked, TypeTerm.hasVar_var] at has
        rw [has]
        exact within
      | some target =>
        rw [wellformed.shape_link linked] at has
        obtain ⟨next, member, deeper⟩ := hasVar_shape.mp has
        exact ih next ⟨target, linked, member⟩
          ((wellformed.typesCovered outer target linked).1 next member) deeper
  obtain ⟨outer, member, deeper⟩ := hasVar_shape.mp has
  exact inside outer (covered.1 outer member) deeper

/-- The store with one more type variable, which is linked to a type. -/
def withAlias (store : Store) (target : InferredType) : Store :=
  ⟨store.types.push (.link target), store.units, store.exact⟩

theorem requirements?_spare (store : Store) :
    store.withSpare.requirements? store.spare = some .none :=
  requirements?_eq_some.mpr Array.getElem?_push_size

theorem typeLink?_spare (store : Store) : store.withSpare.typeLink? store.spare = none :=
  typeLink?_of_requirements store.requirements?_spare

theorem setType_spare (store : Store) (target : InferredType) :
    store.withSpare.setType store.spare (.link target) = store.withAlias target := by
  unfold withSpare withType setType withAlias
  congr 1
  apply Array.ext_getElem?
  intro index
  grind [spare]

theorem setType_of_getElem? {cell : TypeCell} (found : store.types[var.index]? = some cell) :
    store.setType var cell = store := by
  unfold setType
  congr 1
  apply Array.ext_getElem?
  intro index
  grind

end Store

namespace Unification

open Store

variable {registry : Option Registry} {store : Store} {depth levels : Nat}
  {left right : InferredType} {type : InferredType} {α : Type}

/-! ### Unification -/

theorem bindVar_spares {var : TypeVar} {requirements : Requirements}
    (wellformed : store.Wellformed) (found : store.requirements? var = some requirements)
    (covered : store.Covers type) : SparesAttempt store (bindVar var type) fun _ _ => True := by
  refine (SparesAttempt.lift (occurs_spares wellformed var covered)).andThen
    fun occurring middle _ answer => ?_
  obtain ⟨steps, occurs⟩ := answer
  have settled := Shortens.settled steps
  have present : middle.requirements? var = some requirements :=
    (Shortens.requirements steps var).trans found
  cases occurring with
  | true => exact .fail _ _
  | false =>
    have absent : ¬(middle.shape type).HasVar var := by
      rw [settled.shape wellformed, ← occurs]
      exact Bool.false_ne_true
    refine .read ?_ ?_
    · simp only [requirements?_withSpare (index_lt_of_requirements present)]
    · rw [present]
      refine (enforce_spares (settled.wellformed wellformed) (settled.covers.mpr covered)
        requirements).andThen fun _ last _ demands => ?_
      have kept := (Demands.requirements demands absent).trans present
      exact (linkType_spares kept type).andThen fun _ _ _ _ => .ok trivial

theorem mergeVars_spares {first second : TypeVar} {firstRequired secondRequired : Requirements}
    (firstFound : store.requirements? first = some firstRequired)
    (secondFound : store.requirements? second = some secondRequired) (different : first ≠ second) :
    SparesAttempt store (mergeVars first second) fun _ _ => True := by
  have absorb {survivor linked : TypeVar} {own other : Requirements}
      (ownFound : store.requirements? survivor = some own)
      (otherFound : store.requirements? linked = some other) (apart : linked ≠ survivor) :
      SparesAttempt store (do
        addRequirements survivor ((store.requirements? linked).getD .none)
        linkType linked (.var survivor)
        return .var survivor : Infer InferredType) fun _ _ => True := by
    refine (addRequirements_spares ownFound _).andThen fun _ middle _ made => ?_
    have kept : middle.requirements? linked = some other := by
      rw [made, requirements?_setType_of_ne apart]
      exact otherFound
    exact (linkType_spares kept _).andThen fun _ _ _ _ => .ok trivial
  unfold mergeVars
  split
  next survivor linked chosen =>
    split at chosen
    next =>
      cases chosen
      refine .read ?_ (absorb firstFound secondFound different.symm)
      rw [requirements?_withSpare (index_lt_of_requirements secondFound)]
    next =>
      cases chosen
      refine .read ?_ (absorb secondFound firstFound different)
      rw [requirements?_withSpare (index_lt_of_requirements firstFound)]

private theorem beside_withSpare : Beside withSpare := ⟨fun _ => rfl, fun _ _ _ => rfl⟩

private theorem mismatch_spares {post : α → Store → Prop} :
    SparesAttempt store (mismatch left right) post :=
  .inr ⟨⟨_, rfl⟩, _, rfl⟩

def UnifiesAlike (registry : Option Registry) (depth levels : Nat) : Prop :=
  ∀ ⦃store : Store⦄ ⦃left right : InferredType⦄, store.Bounded depth → store.Fits depth left →
    store.Fits depth right → SparesAttempt store (unifyWithin registry levels left right)
      fun _ after => Relation.ReflTransGen (Solving depth) store after

section Pruned

variable (recursion : UnifiesAlike registry depth levels) (bounded : store.Bounded depth)

include recursion bounded

private theorem solveEquations_spares (left right : InferredType) {equations : List Equation}
    (fits : ∀ equation ∈ equations, equation.Fits store depth) :
    SparesAttempt store
      (solveEquations registry (unifyWithin registry levels) left right equations)
      fun _ _ => True := by
  induction equations generalizing store with
  | nil => exact .ok trivial
  | cons equation equations ih =>
    obtain ⟨here, others⟩ := List.forall_mem_cons.mp fits
    have rest (after : Store) (steps : Relation.ReflTransGen (Solving depth) store after) :=
      ih (bounded.run steps) fun other member => (others other member).run steps
    cases equation with
    | types first second =>
      rw [solveEquations, discard_bind]
      exact (recursion bounded here.1 here.2).andThen fun _ after _ steps => rest after steps
    | units first second =>
      have solves := unifyUnits_solves depth registry bounded.wellformed here.1 here.2
      exact (SparesAttempt.of_commutes (unifyUnits_commutes beside_withSpare registry first
        second) fun _ after ran => solves.yields.steps_to ran).andThen
        fun _ after _ steps => rest after steps
    | clash => exact mismatch_spares

private theorem unifyPruned_spares (leftFits : store.Fits depth left)
    (rightFits : store.Fits depth right)
    (leftFree : ∀ var, left = .var var → store.typeLink? var = none)
    (rightFree : ∀ var, right = .var var → store.typeLink? var = none) :
    SparesAttempt store (unifyPruned registry levels left right) fun _ _ => True := by
  have wellformed := bounded.wellformed
  have required {var : TypeVar} (fits : store.Fits depth (.var var))
      (free : store.typeLink? var = none) :=
    exists_requirements (covers_var.mp fits.covered) free
  rcases left.var_or_compound with ⟨leftVar, rfl⟩ | leftCompound
  · obtain ⟨leftRequired, leftFound⟩ := required leftFits (leftFree leftVar rfl)
    rcases right.var_or_compound with ⟨rightVar, rfl⟩ | rightCompound
    · obtain ⟨rightRequired, rightFound⟩ := required rightFits (rightFree rightVar rfl)
      rw [unifyPruned]
      split
      next => exact .ok trivial
      next different => exact mergeVars_spares leftFound rightFound different
    · rw [unifyPruned_var_left registry levels leftVar rightCompound]
      exact bindVar_spares wellformed leftFound rightFits.covered
  · rcases right.var_or_compound with ⟨rightVar, rfl⟩ | rightCompound
    · obtain ⟨rightRequired, rightFound⟩ := required rightFits (rightFree rightVar rfl)
      rw [unifyPruned_var_right registry levels rightVar leftCompound]
      exact bindVar_spares wellformed rightFound leftFits.covered
    · rw [unifyPruned_compound registry levels leftCompound rightCompound]
      cases found : decompose left right with
      | none => exact mismatch_spares
      | some equations =>
        have among := among_of_decompose found
        refine (solveEquations_spares recursion bounded left right fun equation member =>
          fits_of_among (among equation member) leftFits rightFits).andThen fun _ _ _ _ => ?_
        exact .ok trivial

end Pruned

theorem unifyWithin_spares (registry : Option Registry) (depth levels : Nat) :
    UnifiesAlike registry depth levels := by
  induction levels with
  | zero => exact fun _ _ _ _ _ _ => mismatch_spares
  | succ levels ih =>
    intro store left right bounded leftFits rightFits
    have solves := unifyWithin_solves registry depth (levels + 1) bounded leftFits rightFits
    suffices spares : SparesAttempt store (unifyWithin registry (levels + 1) left right)
        fun _ _ => True by
      exact spares.mono fun value after ran _ => solves.yields.steps_to ran
    rw [unifyWithin_succ]
    refine (SparesAttempt.lift (prune_spares bounded.wellformed left)).andThen
      fun first between _ firstEnds => ?_
    obtain ⟨firstSteps, firstReaches, firstFree⟩ := firstEnds
    have firstRun := Shortens.solving firstSteps depth
    have betweenBounded := bounded.run firstRun
    refine (SparesAttempt.lift (prune_spares betweenBounded.wellformed right)).andThen
      fun second middle _ secondEnds => ?_
    obtain ⟨secondSteps, secondReaches, secondFree⟩ := secondEnds
    have secondRun := Shortens.solving secondSteps depth
    have middleBounded := betweenBounded.run secondRun
    have firstFits := (leftFits.run firstRun).reaches betweenBounded firstReaches
    have secondFits :=
      (rightFits.run (firstRun.trans secondRun)).reaches middleBounded secondReaches
    exact unifyPruned_spares ih middleBounded (firstFits.run secondRun) secondFits
      (fun var same => (Shortens.settled secondSteps).typeLink?_none.mpr (firstFree var same))
      secondFree

private theorem bind_same {β : Type} {action other : Infer α} {next otherNext : α → Infer β}
    (same : action store = other store)
    (rest : ∀ value after, other store = (.ok value, after) →
      next value after = otherNext value after) :
    (action >>= next) store = (other >>= otherNext) store := by
  generalize ran : other store = run at same rest
  obtain ⟨found, after⟩ := run
  cases found with
  | error error => rw [error_bind_apply same, error_bind_apply ran]
  | ok value => rw [ok_bind_apply same, ok_bind_apply ran, rest value after rfl]

section More

variable {more : Nat}
  (recursion : ∀ {now : Store} {first second : InferredType},
    Comparable now depth levels first second →
      unifyWithin registry more first second now = unifyWithin registry levels first second now)

include recursion

private theorem solveEquations_more (left right : InferredType) {equations : List Equation}
    (comparable : ∀ equation ∈ equations, equation.Comparable store depth levels) :
    solveEquations registry (unifyWithin registry more) left right equations store =
      solveEquations registry (unifyWithin registry levels) left right equations store := by
  induction equations generalizing store with
  | nil => rfl
  | cons equation equations ih =>
    obtain ⟨here, others⟩ := List.forall_mem_cons.mp comparable
    have rest (after : Store) (steps : Relation.ReflTransGen (Solving depth) store after) :=
      ih fun other member => (others other member).run steps
    cases equation with
    | types first second =>
      have pair : Comparable store depth levels first second := here
      have solves := unifyWithin_solves registry depth levels pair.bounded pair.leftFits
        pair.rightFits
      rw [solveEquations, solveEquations, discard_bind, discard_bind]
      exact bind_same (recursion pair) fun value after ran =>
        rest after (solves.yields.steps_to ran)
    | units first second =>
      have solves := unifyUnits_solves depth registry here.1 here.2.1 here.2.2
      rw [solveEquations, solveEquations]
      exact bind_same rfl fun value after ran => rest after (solves.yields.steps_to ran)
    | clash => rfl

private theorem unifyPruned_more (comparable : Comparable store depth (levels + 1) left right) :
    unifyPruned registry more left right store =
      unifyPruned registry levels left right store := by
  rcases left.var_or_compound with ⟨leftVar, rfl⟩ | leftCompound
  · rcases right.var_or_compound with ⟨rightVar, rfl⟩ | rightCompound
    · rfl
    · rw [unifyPruned_var_left registry more leftVar rightCompound,
        unifyPruned_var_left registry levels leftVar rightCompound]
  · rcases right.var_or_compound with ⟨rightVar, rfl⟩ | rightCompound
    · rw [unifyPruned_var_right registry more rightVar leftCompound,
        unifyPruned_var_right registry levels rightVar leftCompound]
    · rw [unifyPruned_compound registry more leftCompound rightCompound,
        unifyPruned_compound registry levels leftCompound rightCompound]
      cases found : decompose left right with
      | none => rfl
      | some equations =>
        exact bind_same (solveEquations_more recursion left right
          (comparable.decompose leftCompound found)) fun _ _ _ => rfl

end More

/-- More levels than are enough make no difference. -/
theorem unifyWithin_more {more : Nat} (comparable : Comparable store depth levels left right)
    (enough : levels ≤ more) :
    unifyWithin registry more left right store =
      unifyWithin registry levels left right store := by
  induction levels generalizing store left right more with
  | zero => exact absurd (comparable.stays store .refl) (Nat.not_lt_zero _)
  | succ levels ih =>
    obtain ⟨more, rfl⟩ := Nat.exists_eq_add_of_lt enough
    have firstEnds := prune_yields comparable.bounded.wellformed left
    have between := (Shortens.settled firstEnds.steps).wellformed comparable.bounded.wellformed
    have secondEnds := prune_yields between right
    rw [unifyWithin_succ, unifyWithin_succ, lift_bind_apply, lift_bind_apply, lift_bind_apply,
      lift_bind_apply]
    refine unifyPruned_more (fun comparable => ih comparable (by omega)) ?_
    exact comparable.pruned firstEnds.steps firstEnds.ends.1 secondEnds.steps secondEnds.ends.1

/-! ### Whole unifications -/

theorem unify_of_ok {after : Store}
    (ran : unifyWithin registry (unificationLevels store left right) left right store =
      (.ok type, after)) : unify registry left right store = (.ok type, after) := by
  rw [unify, get_bind_apply]
  exact ok_tryCatch_apply ran _

theorem unify_of_error
    (failed : ∃ error, (unifyWithin registry (unificationLevels store left right) left right
      store).1 = .error error) :
    ∃ error, (unify registry left right store).1 = .error error := by
  obtain ⟨error, failed⟩ := failed
  rw [unify, get_bind_apply, error_tryCatch_apply (Prod.ext failed rfl)]
  exact ⟨_, rfl⟩

/-- Unification comes to the same with a spare variable, whatever number of levels is followed
there, as long as it is enough. -/
theorem unify_spares (wellformed : store.Wellformed) (leftCovered : store.Covers left)
    (rightCovered : store.Covers right)
    (comparable : Comparable store.withSpare depth levels left right) :
    (∃ type after, unify registry left right store = (.ok type, after) ∧
      unifyWithin registry levels left right store.withSpare = (.ok type, after.withSpare) ∧
      store.Extends after ∧ after.types.size = store.types.size) ∨
    (∃ error, (unify registry left right store).1 = .error error) ∧
      ∃ error, (unifyWithin registry levels left right store.withSpare).1 = .error error := by
  have own := comparable_unificationLevels wellformed leftCovered rightCovered
  have most := unifyWithin_spares registry _ (max (unificationLevels store left right) levels)
    own.bounded own.leftFits own.rightFits
  unfold SparesAttempt at most
  rw [unifyWithin_more own (Nat.le_max_left ..),
    unifyWithin_more comparable (Nat.le_max_right ..)] at most
  rcases most with ⟨type, after, ran, ranSpare, steps⟩ | ⟨failed, failedSpare⟩
  · exact .inl ⟨type, after, unify_of_ok ran, ranSpare, Solving.run_extends steps,
      Solving.run_typeCount steps⟩
  · exact .inr ⟨unify_of_error failed, failedSpare⟩

section Alias

variable {type target : InferredType} {var : TypeVar}

theorem mergeVars_spare {requirements : Requirements}
    (found : store.requirements? var = some requirements) :
    mergeVars var store.spare store.withSpare = (.ok (.var var), store.withAlias (.var var)) := by
  have present := requirements?_withSpare_of_found found
  have kept : store.withSpare.setType var (.unbound (requirements.union .none)) =
      store.withSpare := setType_of_getElem? (requirements?_eq_some.mp present)
  have lower : var.index < store.spare.index := index_lt_of_requirements found
  unfold mergeVars
  rw [if_pos lower]
  change (get >>= _ : Infer InferredType) store.withSpare = _
  rw [get_bind_apply, requirements?_spare, Option.getD_some,
    ok_bind_apply (addRequirements_apply present .none), kept,
    ok_bind_apply (linkType_apply store.requirements?_spare), setType_spare]
  rfl

theorem bindVar_spare (wellformed : store.Wellformed) (covered : store.Covers type) :
    ∃ now, store.Shortens now ∧
      bindVar store.spare type store.withSpare = (.ok type, now.withAlias type) := by
  obtain ⟨same, steps, answer⟩ := occurs_spares wellformed store.spare covered
  generalize ran : occurs store.spare type store = found at same steps answer
  obtain ⟨occurring, now⟩ := found
  have absent : occurring = false := by
    refine Bool.eq_false_iff.mpr fun present => ?_
    exact Nat.lt_irrefl _ (wellformed.index_lt_of_hasVar_shape covered (answer.mp present))
  have next : store.spare = now.spare := spare_eq (Shortens.settled steps).typeCount
  refine ⟨now, steps, ?_⟩
  unfold bindVar
  rw [lift_bind_apply, same, absent]
  change (get >>= _ : Infer InferredType) now.withSpare = _
  rw [get_bind_apply, next, requirements?_spare, Option.getD_some,
    ok_bind_apply (show enforce .none type now.withSpare = (.ok (), now.withSpare) from rfl),
    ok_bind_apply (linkType_apply now.requirements?_spare), setType_spare]
  rfl

theorem unifyWithin_spare (registry : Option Registry) (levels : Nat)
    (wellformed : store.Wellformed) (covered : store.Covers type) :
    ∃ now, (prune type store).2.Shortens now ∧
      unifyWithin registry (levels + 1) type (.var store.spare) store.withSpare =
        (.ok (prune type store).1, now.withAlias (prune type store).1) := by
  obtain ⟨pruned, steps, reaches, free⟩ := prune_spares wellformed type
  generalize prune type store = found at pruned steps reaches free ⊢
  obtain ⟨last, middle⟩ := found
  have settled := Shortens.settled steps
  have next : store.spare = middle.spare := spare_eq settled.typeCount
  have stays : prune (.var middle.spare) middle.withSpare =
      (.var middle.spare, middle.withSpare) :=
    prune_apply (follow_unbound middle.typeLink?_spare _)
  have lastCovered := reaches.covers (settled.wellformed wellformed) (settled.covers.mpr covered)
  rw [unifyWithin_succ, lift_bind_apply, lift_bind_apply, pruned, next, stays]
  rcases last.var_or_compound with ⟨var, rfl⟩ | compound
  · have within := covers_var.mp lastCovered
    obtain ⟨requirements, found⟩ := exists_requirements within (free var rfl)
    have different : var ≠ middle.spare := fun same => Nat.lt_irrefl _ (same ▸ within)
    refine ⟨middle, .refl, ?_⟩
    rw [unifyPruned, if_neg different]
    exact mergeVars_spare found
  · rw [unifyPruned_var_right registry levels middle.spare compound]
    exact bindVar_spare (settled.wellformed wellformed) lastCovered

end Alias

end Unification

end SheetTypes
