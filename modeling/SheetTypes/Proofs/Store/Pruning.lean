import SheetTypes.Proofs.Store.Separation

/-!
Pruning two types. Pruning a variable links all variables that its chain passes to the end of the
chain, and changes no other link. So the ends of all chains stay where they are, and it does not
matter which of two types is pruned first.
-/

set_option autoImplicit false

namespace SheetTypes.Store

variable {store before after : Store} {var other : TypeVar} {type last target : InferredType}
  {left right : TypeVar} {leftEnd rightEnd : InferredType} {middle : Store}

inductive Ends (store : Store) : TypeVar → InferredType → Prop where
  | free {var : TypeVar} (free : store.typeLink? var = none) : Ends store var (.var var)
  | target {var : TypeVar} {target : InferredType} (linked : store.typeLink? var = some target)
      (compound : target.isVar = false) : Ends store var target
  | next {var middle : TypeVar} {last : InferredType}
      (linked : store.typeLink? var = some (.var middle)) (rest : Ends store middle last) :
      Ends store var last

inductive Passes (store : Store) : TypeVar → TypeVar → Prop where
  | here {var : TypeVar} {target : InferredType} (linked : store.typeLink? var = some target) :
      Passes store var var
  | next {var middle other : TypeVar} (linked : store.typeLink? var = some (.var middle))
      (rest : Passes store middle other) : Passes store var other

theorem Ends.of_link {middle : TypeVar} (ends : store.Ends var last)
    (linked : store.typeLink? var = some (.var middle)) : store.Ends middle last := by
  cases ends with
  | free free =>
    rw [free] at linked
    cases linked
  | target found compound =>
    rw [found, Option.some.injEq] at linked
    exact absurd linked (TypeTerm.ne_var compound middle)
  | next found rest =>
    rw [found] at linked
    cases linked
    exact rest

theorem Ends.unique {firstEnd secondEnd : InferredType} (first : store.Ends var firstEnd)
    (second : store.Ends var secondEnd) : firstEnd = secondEnd := by
  induction first with
  | free free =>
    cases second with
    | free => rfl
    | target linked _ =>
      rw [free] at linked
      cases linked
    | next linked _ =>
      rw [free] at linked
      cases linked
  | target linked compound =>
    cases second with
    | free free =>
      rw [free] at linked
      cases linked
    | target found _ =>
      rw [found] at linked
      cases linked
      rfl
    | next found _ =>
      rw [found] at linked
      cases linked
      cases compound
  | next linked _ ih => exact ih (second.of_link linked)

theorem Ends.leads (ends : store.Ends var last) (linked : store.typeLink? var = some target) :
    store.Leads var last := by
  induction ends generalizing target with
  | free free =>
    rw [free] at linked
    cases linked
  | target found _ => exact .last found
  | @next var middle last found rest ih =>
    cases further : store.typeLink? middle with
    | none =>
      rw [rest.unique (.free further)]
      exact .last found
    | some deeper => exact .next found (ih further)

/-- A type that links lead to is the end of the chain or on the way to it. -/
theorem Leads.ends (leads : store.Leads var target) (ends : store.Ends var last) :
    target.isVar = false ∧ target = last ∨
      ∃ middle, target = .var middle ∧ store.Ends middle last := by
  induction leads with
  | @last var target linked =>
    rcases target.var_or_compound with ⟨middle, rfl⟩ | compound
    · exact .inr ⟨middle, rfl, ends.of_link linked⟩
    · exact .inl ⟨compound, (Ends.target linked compound).unique ends⟩
  | next linked _ ih => exact ih (ends.of_link linked)

namespace Passes

theorem bound (passes : store.Passes var other) :
    ∃ target, store.typeLink? other = some target := by
  induction passes with
  | here linked => exact ⟨_, linked⟩
  | next _ _ ih => exact ih

theorem start_bound (passes : store.Passes var other) :
    ∃ target, store.typeLink? var = some target := by
  cases passes with
  | here linked => exact ⟨_, linked⟩
  | next linked _ => exact ⟨_, linked⟩

theorem not_of_free (free : store.typeLink? var = none) : ¬store.Passes var other := by
  intro passes
  obtain ⟨target, linked⟩ := passes.start_bound
  rw [free] at linked
  cases linked

theorem iff_of_link (linked : store.typeLink? var = some target) :
    store.Passes var other ↔
      other = var ∨ ∃ middle, target = .var middle ∧ store.Passes middle other := by
  constructor
  · intro passes
    cases passes with
    | here => exact .inl rfl
    | next found rest =>
      rw [linked, Option.some.injEq] at found
      exact .inr ⟨_, found, rest⟩
  · rintro (rfl | ⟨middle, rfl, rest⟩)
    · exact .here linked
    · exact .next linked rest

theorem trans {middle : TypeVar} (first : store.Passes var middle)
    (second : store.Passes middle other) : store.Passes var other := by
  induction first with
  | here => exact second
  | next linked _ ih => exact .next linked (ih second)

theorem ends (passes : store.Passes var other) (ends : store.Ends var last) :
    store.Ends other last := by
  induction passes with
  | here => exact ends
  | next linked _ ih => exact ih (ends.of_link linked)

theorem of_leads {middle : TypeVar} (leads : store.Leads var (.var middle))
    (rest : store.Passes middle other) : store.Passes var other := by
  generalize whole : (.var middle : InferredType) = target at leads
  induction leads with
  | last linked =>
    rw [← whole] at linked
    exact .next linked rest
  | next linked _ ih => exact .next linked (ih whole)

end Passes

structure Shorter (after before : Store) : Prop where
  bound : ∀ var, after.typeLink? var = none ↔ before.typeLink? var = none
  leads : ∀ var target, after.typeLink? var = some target → before.Leads var target

namespace Shorter

theorem passes (shorter : after.Shorter before) (passes : after.Passes var other) :
    before.Passes var other := by
  induction passes with
  | @here var target linked =>
    cases found : before.typeLink? var with
    | none =>
      rw [(shorter.bound var).mpr found] at linked
      cases linked
    | some target => exact .here found
  | next linked _ ih => exact .of_leads (shorter.leads _ _ linked) ih

theorem ends (shorter : after.Shorter before) (wellformed : after.Wellformed)
    (ends : before.Ends var last) : after.Ends var last := by
  obtain ⟨rank, ranking⟩ := wellformed.typesRanked
  induction var using ranking.induction with
  | step var ih =>
    cases linked : after.typeLink? var with
    | none =>
      rw [ends.unique (.free ((shorter.bound var).mp linked))]
      exact .free linked
    | some target =>
      have leads := shorter.leads var target linked
      rcases leads.ends ends with ⟨compound, rfl⟩ | ⟨middle, rfl, rest⟩
      · exact .target linked compound
      · refine .next linked (ih middle ⟨_, linked, ?_⟩ rest)
        simp [TypeTerm.HasVar, TypeTerm.leaves]

end Shorter

private theorem typeLink?_of_alone (wellformed : store.Wellformed) (ends : store.Ends var last)
    (linked : store.typeLink? var = some target)
    (alone : ∀ other, store.Passes var other → other = var) : store.typeLink? var = some last := by
  cases ends with
  | free free =>
    rw [free] at linked
    cases linked
  | target found _ => exact found
  | @next _ middle _ found rest =>
    cases further : store.typeLink? middle with
    | none =>
      rw [rest.unique (.free further)]
      exact found
    | some deeper =>
      have same := alone middle (.next found (.here further))
      obtain ⟨rank, ranking⟩ := wellformed.typesRanked
      have edge : store.TypeEdge var middle :=
        ⟨_, found, by simp [TypeTerm.HasVar, TypeTerm.leaves]⟩
      rw [same] at edge
      exact absurd (ranking.below var var edge) (Nat.lt_irrefl _)

private theorem follow_ends {rank : TypeVar → Nat} (ranking : store.TypeRanking rank)
    (links : Nat) (var : TypeVar) (enough : rank var ≤ links) :
    store.Ends var (store.follow links (.var var)).1 ∧
      ∀ other, other ∈ (store.follow links (.var var)).2 ↔ store.Passes var other := by
  have stops {var : TypeVar} (free : store.typeLink? var = none) (links : Nat) :
      store.Ends var (store.follow links (.var var)).1 ∧
        ∀ other, other ∈ (store.follow links (.var var)).2 ↔ store.Passes var other := by
    rw [follow_unbound free]
    exact ⟨.free free, fun other => iff_of_false List.not_mem_nil (Passes.not_of_free free)⟩
  induction links generalizing var with
  | zero => exact stops (typeLink?_of_rank_zero ranking (Nat.le_zero.mp enough)) 0
  | succ links ih =>
    cases linked : store.typeLink? var with
    | none => exact stops linked (links + 1)
    | some target =>
      rw [follow_link linked]
      simp only [List.mem_cons, Passes.iff_of_link linked]
      rcases target.var_or_compound with ⟨middle, rfl⟩ | compound
      · have less := ranking.below var middle
          ⟨_, linked, by simp [TypeTerm.HasVar, TypeTerm.leaves]⟩
        obtain ⟨ends, passed⟩ := ih middle (by omega)
        refine ⟨.next linked ends, fun other => ?_⟩
        rw [passed]
        simp
      · rw [follow_of_not_var compound]
        refine ⟨.target linked compound, fun other => ?_⟩
        have different (middle : TypeVar) := TypeTerm.ne_var compound middle
        simp [different]

private theorem typeLink?_foldl (last : InferredType) (passed : List TypeVar)
    (within : ∀ var ∈ passed, var.index < store.types.size) (other : TypeVar) :
    (passed.foldl (fun store var => store.setType var (.link last)) store).typeLink? other =
      if other ∈ passed then some last else store.typeLink? other := by
  induction passed generalizing store with
  | nil => rfl
  | cons first rest ih =>
    obtain ⟨here, later⟩ := List.forall_mem_cons.mp within
    rw [List.foldl_cons, ih (by simpa using later)]
    by_cases same : other = first
    · rw [same, typeLink?_setType_self here]
      simp
    · rw [typeLink?_setType_of_ne same]
      simp [same]

/-- What pruning a variable does to links: those that its chain passes go to the end of it. -/
structure Compresses (before : Store) (var : TypeVar) (last : InferredType) (after : Store) :
    Prop where
  ends : before.Ends var last
  passed : ∀ other, before.Passes var other → after.typeLink? other = some last
  others : ∀ other, ¬before.Passes var other → after.typeLink? other = before.typeLink? other

theorem prune_compresses (wellformed : store.Wellformed) (var : TypeVar) :
    store.Compresses var (prune (.var var) store).1 (prune (.var var) store).2 := by
  obtain ⟨rank, ranking, small⟩ := wellformed.exists_typeRanking
  have walk := follow_ends ranking store.types.size var (small var)
  generalize walked : store.follow store.types.size (.var var) = result at walk
  obtain ⟨last, passed⟩ := result
  obtain ⟨ends, members⟩ :
    store.Ends var last ∧ ∀ other, other ∈ passed ↔ store.Passes var other := walk
  rw [prune_apply walked]
  split
  next =>
    have within (other : TypeVar) (member : other ∈ passed) : other.index < store.types.size := by
      obtain ⟨target, linked⟩ := ((members other).mp member).bound
      exact index_lt_of_typeLink linked
    have links := typeLink?_foldl last passed within
    refine ⟨ends, fun other passes => ?_, fun other outside => ?_⟩
    · rw [links, if_pos ((members other).mpr passes)]
    · rw [links, if_neg fun member => outside ((members other).mp member)]
  next short =>
    refine ⟨ends, fun other passes => ?_, fun _ _ => rfl⟩
    obtain ⟨target, linked⟩ := passes.start_bound
    have alone (next : TypeVar) (further : store.Passes var next) : next = var := by
      have own := (members var).mpr (.here linked)
      have listed := (members next).mpr further
      obtain ⟨only, all⟩ : ∃ only, passed = [only] := by
        rw [← List.length_eq_one_iff]
        have positive := List.length_pos_of_mem own
        omega
      rw [all, List.mem_singleton] at own listed
      rw [own, listed]
    rw [alone other passes]
    exact typeLink?_of_alone wellformed ends linked alone

theorem Compresses.shorter (compresses : before.Compresses var last after) :
    after.Shorter before := by
  refine ⟨fun other => ?_, fun other target linked => ?_⟩
  · by_cases passes : before.Passes var other
    · obtain ⟨target, linked⟩ := passes.bound
      rw [compresses.passed other passes, linked]
      simp
    · rw [compresses.others other passes]
  · by_cases passes : before.Passes var other
    · obtain ⟨target, found⟩ := passes.bound
      rw [compresses.passed other passes] at linked
      cases linked
      exact (passes.ends compresses.ends).leads found
    · rw [compresses.others other passes] at linked
      exact .last linked

/-- Pruning leaves the part of another chain that it has not in common with its own. -/
theorem Compresses.passes {start : TypeVar} (compresses : before.Compresses var last after)
    (passes : before.Passes start other) (apart : ¬before.Passes var other) :
    after.Passes start other := by
  induction passes with
  | @here start _ linked => exact .here ((compresses.others start apart).trans linked)
  | @next start middle other linked rest ih =>
    have outside : ¬before.Passes var start := fun passes =>
      apart (passes.trans (.next linked rest))
    exact .next ((compresses.others start outside).trans linked) (ih apart)

open Classical in
/-- Links after two types have been pruned, in terms of the chains before. -/
theorem Compresses.typeLink?_both (first : before.Compresses left leftEnd middle)
    (second : middle.Compresses right rightEnd after) (ends : before.Ends right rightEnd)
    (other : TypeVar) :
    after.typeLink? other =
      if before.Passes right other then some rightEnd
      else if before.Passes left other then some leftEnd else before.typeLink? other := by
  split
  next passes =>
    by_cases again : middle.Passes right other
    · exact second.passed other again
    · -- The chain has been cut short where it met the first one, and shares its end.
      have shared : before.Passes left other :=
        Decidable.byContradiction fun apart => again (first.passes passes apart)
      rw [second.others other again, first.passed other shared,
        (shared.ends first.ends).unique (passes.ends ends)]
  next outside =>
    rw [second.others other fun passes => outside (first.shorter.passes passes)]
    split
    next passes => exact first.passed other passes
    next apart => exact first.others other apart

theorem Compresses.comm {middle' after' : Store}
    (leftFirst : before.Compresses left leftEnd middle)
    (rightSecond : middle.Compresses right rightEnd after)
    (rightFirst : before.Compresses right rightEnd middle')
    (leftSecond : middle'.Compresses left leftEnd after') (other : TypeVar) :
    after.typeLink? other = after'.typeLink? other := by
  rw [leftFirst.typeLink?_both rightSecond rightFirst.ends,
    rightFirst.typeLink?_both leftSecond leftFirst.ends]
  by_cases fromLeft : before.Passes left other
  · by_cases fromRight : before.Passes right other
    · have same := (fromLeft.ends leftFirst.ends).unique (fromRight.ends rightFirst.ends)
      rw [if_pos fromRight, if_pos fromLeft, same]
    · rw [if_neg fromRight, if_pos fromLeft, if_pos fromLeft]
  · rw [if_neg fromLeft, if_neg fromLeft]

/-- Links and requirements make up the cells of a store. -/
theorem types_eq_of_links (links : ∀ var, after.typeLink? var = before.typeLink? var)
    (requirements : ∀ var, after.requirements? var = before.requirements? var) :
    after.types = before.types := by
  have cell (store : Store) (var : TypeVar) : store.types[var.index]? =
      (store.typeLink? var).elim ((store.requirements? var).map .unbound) (some <| .link ·) := by
    unfold typeLink? requirements?
    cases store.types[var.index]? with
    | none => rfl
    | some cell => cases cell <;> rfl
  apply Array.ext_getElem?
  intro index
  rw [cell after ⟨index⟩, cell before ⟨index⟩, links, requirements]

theorem Wellformed.prune (wellformed : store.Wellformed) (type : InferredType) :
    (Store.prune type store).2.Wellformed :=
  (Shortens.settled (prune_yields wellformed type).steps).wellformed wellformed

theorem Wellformed.requirements?_prune (wellformed : store.Wellformed) (type : InferredType)
    (var : TypeVar) : (Store.prune type store).2.requirements? var = store.requirements? var :=
  Shortens.requirements (prune_yields wellformed type).steps var

private theorem prune_comm_vars (wellformed : store.Wellformed) (left right : TypeVar) :
    prune (.var right) (prune (.var left) store).2 =
      ((prune (.var right) store).1, (prune (.var left) (prune (.var right) store).2).2) := by
  have leftFirst := prune_compresses wellformed left
  have rightFirst := prune_compresses wellformed right
  have rightSecond := prune_compresses (wellformed.prune (.var left)) right
  have leftSecond := prune_compresses (wellformed.prune (.var right)) left
  have sameRight := rightSecond.ends.unique
    (leftFirst.shorter.ends (wellformed.prune (.var left)) rightFirst.ends)
  have sameLeft := leftSecond.ends.unique
    (rightFirst.shorter.ends (wellformed.prune (.var right)) leftFirst.ends)
  rw [sameRight] at rightSecond
  rw [sameLeft] at leftSecond
  have sameTypes : (prune (.var right) (prune (.var left) store).2).2.types =
      (prune (.var left) (prune (.var right) store).2).2.types := by
    apply types_eq_of_links
    · exact leftFirst.comm rightSecond rightFirst leftSecond
    · intro var
      rw [(wellformed.prune _).requirements?_prune, wellformed.requirements?_prune,
        (wellformed.prune _).requirements?_prune, wellformed.requirements?_prune]
  refine Prod.ext sameRight ?_
  rw [(prune_onTypes (.var right)).keeps, (prune_onTypes (.var left)).keeps (prune _ store).2,
    sameTypes, (prune_onTypes (.var left)).keeps store, (prune_onTypes (.var right)).keeps store]

theorem prune_comm (wellformed : store.Wellformed) (left right : InferredType) :
    prune right (prune left store).2 =
      ((prune right store).1, (prune left (prune right store).2).2) := by
  rcases left.var_or_compound with ⟨leftVar, rfl⟩ | compound
  · rcases right.var_or_compound with ⟨rightVar, rfl⟩ | compound
    · exact prune_comm_vars wellformed leftVar rightVar
    · simp only [prune_of_not_var compound]
  · simp only [prune_of_not_var compound]
    rfl

end SheetTypes.Store
