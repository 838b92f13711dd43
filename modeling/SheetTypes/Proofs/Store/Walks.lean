import SheetTypes.Proofs.Actions
import SheetTypes.Proofs.Store.Evolution
import SheetTypes.Unification

/-!
Walks along links. Pruning follows a chain of variables to its end and shortens it. Other walks go
on from there into the type at the end. They are all one walk, with different things to do at
unbound variables and at types; since ranks fall along links, it never takes more links than there
are variables, and what it would do after that does not matter.
-/

set_option autoImplicit false

namespace SheetTypes

namespace TypeTerm

variable {ν υ : Type} {m : Type → Type} [Monad m]

private theorem anyItemVarM_eq (test : ν → m Bool) (items : List (TypeTerm ν υ)) :
    anyItemVarM test items = items.anyM (anyVarM test) := by
  induction items with
  | nil => rfl
  | cons item items ih =>
    rw [anyItemVarM, List.anyM, ih]
    refine bind_congr fun found => ?_
    cases found <;> rfl

private theorem anyFieldVarM_eq (test : ν → m Bool) (fields : List (String × TypeTerm ν υ)) :
    anyFieldVarM test fields = (fields.map Prod.snd).anyM (anyVarM test) := by
  induction fields with
  | nil => rfl
  | cons field fields ih =>
    obtain ⟨name, type⟩ := field
    rw [anyFieldVarM, List.map_cons, List.anyM, ih]
    refine bind_congr fun found => ?_
    cases found <;> rfl

private theorem anyOperandVarM_eq (test : ν → m Bool)
    (operands : List (Operand (TypeTerm ν υ) υ)) :
    anyOperandVarM test operands = (operandTypes operands).anyM (anyVarM test) := by
  induction operands with
  | nil => rfl
  | cons operand operands ih =>
    cases operand with
    | type value =>
      rw [anyOperandVarM, ih]
      change _ = (value :: operandTypes operands).anyM (anyVarM test)
      rw [List.anyM]
      refine bind_congr fun found => ?_
      cases found <;> rfl
    | unit value => exact ih

variable [LawfulMonad m]

private theorem anyM_append (test : TypeTerm ν υ → m Bool) (first second : List (TypeTerm ν υ)) :
    (first ++ second).anyM test = (do
      if ← first.anyM test then return true
      second.anyM test) := by
  induction first with
  | nil => simp [List.anyM]
  | cons item items ih =>
    rw [List.cons_append, List.anyM, List.anyM, bind_assoc]
    refine bind_congr fun found => ?_
    cases found with
    | true => simp
    | false => exact ih

private theorem anyM_singleton (test : TypeTerm ν υ → m Bool) (item : TypeTerm ν υ) :
    [item].anyM test = test item := by
  rw [List.anyM]
  refine Eq.trans ?_ (bind_pure (test item))
  refine bind_congr fun found => ?_
  cases found <;> rfl

/-- The search through a type that is no variable goes through its children. -/
theorem anyVarM_children (test : ν → m Bool) {type : TypeTerm ν υ} (compound : type.isVar = false) :
    type.anyVarM test = type.children.anyM (anyVarM test) := by
  cases type with
  | var name => cases compound
  | number unit => rfl
  | text => rfl
  | boolean => rfl
  | date kind => rfl
  | tuple items => exact anyItemVarM_eq test items
  | array item => exact (anyM_singleton _ item).symm
  | function params result =>
    rw [anyVarM, children, anyM_append, anyM_singleton, anyItemVarM_eq]
  | record fields => exact anyFieldVarM_eq test fields
  | tagged name operands => exact anyOperandVarM_eq test operands

end TypeTerm

namespace Store

variable {store before after : Store} {var : TypeVar} {type result : InferredType}
  {holds : TypeVar → Prop} {last : InferredType} {links more : Nat} {passed : List TypeVar}

/-- Whether links lead from a type that is a variable to another type, if to a new one at all. -/
def Reaches (store : Store) (type result : InferredType) : Prop :=
  result = type ∨ ∃ var, type = .var var ∧ store.Leads var result

theorem Reaches.value {ν G : Type} [UnitGroup G] {valuation : Valuation ν G}
    (reaches : store.Reaches type result) (satisfies : valuation.Satisfies store) :
    valuation.type result = valuation.type type := by
  rcases reaches with same | ⟨var, rfl, leads⟩
  · rw [same]
  · exact (leads.value satisfies).symm

theorem Reaches.read {readout : Readout} (reaches : store.Reaches type result)
    (reads : readout.Reads store) : readout.type result = readout.type type := by
  rcases reaches with same | ⟨var, rfl, leads⟩
  · rw [same]
  · exact (leads.read reads).symm

theorem Reaches.shape (wellformed : store.Wellformed) (reaches : store.Reaches type result) :
    store.shape result = store.shape type :=
  reaches.value (wellformed.extend_satisfies _)

theorem Wellformed.shape_leads (wellformed : store.Wellformed) (leads : store.Leads var type) :
    store.shape (.var var) = store.shape type :=
  leads.value (wellformed.extend_satisfies _)

theorem Reaches.covers (wellformed : store.Wellformed) (reaches : store.Reaches type result)
    (covered : store.Covers type) : store.Covers result := by
  rcases reaches with same | ⟨var, rfl, leads⟩
  · rw [same]
    exact covered
  · obtain ⟨holder, linked⟩ := leads.exists_link
    exact wellformed.typesCovered holder result linked

theorem Reaches.depth_le {bound : Nat} (reaches : store.Reaches type result)
    (own : type.depth ≤ bound)
    (links : ∀ var target, store.typeLink? var = some target → target.depth ≤ bound) :
    result.depth ≤ bound := by
  rcases reaches with same | ⟨var, rfl, leads⟩
  · rw [same]
    exact own
  · obtain ⟨holder, linked⟩ := leads.exists_link
    exact links holder result linked

theorem follow_of_not_var (compound : type.isVar = false) (links : Nat) :
    store.follow links type = (type, []) := by
  cases type with
  | var name => cases compound
  | number unit => cases links <;> rfl
  | text => cases links <;> rfl
  | boolean => cases links <;> rfl
  | date kind => cases links <;> rfl
  | tuple items => cases links <;> rfl
  | array item => cases links <;> rfl
  | function params result => cases links <;> rfl
  | record fields => cases links <;> rfl
  | tagged name operands => cases links <;> rfl

theorem follow_unbound (free : store.typeLink? var = none) (links : Nat) :
    store.follow links (.var var) = (.var var, []) := by
  cases links with
  | zero => rfl
  | succ links => simp [follow, free]

theorem follow_link {target : InferredType} (linked : store.typeLink? var = some target)
    (links : Nat) :
    store.follow (links + 1) (.var var) =
      ((store.follow links target).1, var :: (store.follow links target).2) := by
  simp [follow, linked]

private structure Followed (store : Store) (var : TypeVar) (last : InferredType)
    (passed : List TypeVar) : Prop where
  reaches : store.Reaches (.var var) last
  free : ∀ final, last = .var final → store.typeLink? final = none
  chain : ∀ other ∈ passed, store.Leads other last

private theorem followed_unbound (free : store.typeLink? var = none) :
    store.Followed var (.var var) [] where
  reaches := .inl rfl
  free final same := by
    cases same
    exact free
  chain _ member := by cases member

private theorem followed_link (leads : store.Leads var last)
    (free : ∀ final, last = .var final → store.typeLink? final = none)
    (chain : ∀ other ∈ passed, store.Leads other last) :
    store.Followed var last (var :: passed) where
  reaches := .inr ⟨var, rfl, leads⟩
  free := free
  chain other member := by
    rcases List.mem_cons.mp member with same | later
    · rw [same]
      exact leads
    · exact chain other later

private theorem follow_var {rank : TypeVar → Nat} (ranking : store.TypeRanking rank) (links : Nat)
    (var : TypeVar) (enough : rank var ≤ links) :
    store.Followed var (store.follow links (.var var)).1 (store.follow links (.var var)).2 := by
  induction links generalizing var with
  | zero => exact followed_unbound (typeLink?_of_rank_zero ranking (Nat.le_zero.mp enough))
  | succ links ih =>
    cases linked : store.typeLink? var with
    | none =>
      rw [follow_unbound linked]
      exact followed_unbound linked
    | some target =>
      rw [follow_link linked]
      rcases target.var_or_compound with ⟨next, rfl⟩ | compound
      · have less := ranking.below var next
          ⟨_, linked, by simp [TypeTerm.HasVar, TypeTerm.leaves]⟩
        obtain ⟨reaches, free, chain⟩ := ih next (by omega)
        refine followed_link ?_ free chain
        rcases reaches with same | ⟨_, ⟨⟩, leads⟩
        · rw [same]
          exact .last linked
        · exact .next linked leads
      · rw [follow_of_not_var compound]
        exact followed_link (.last linked)
          (fun final same => absurd same (TypeTerm.ne_var compound final)) (by simp)

/-- Linking variables of a chain to its end, one after the other. -/
theorem skip_chain {step : Store → Store → Prop}
    (skip : ∀ (store : Store) (other : TypeVar), store.Leads other last →
      step store (store.setType other (.link last))) (passed : List TypeVar) (store : Store)
    (chain : ∀ other ∈ passed, store.Leads other last) :
    Relation.ReflTransGen step store
        (passed.foldl (fun store other => store.setType other (.link last)) store) ∧
      ∀ other, store.Leads other last →
        (passed.foldl (fun store other => store.setType other (.link last)) store).Leads
          other last := by
  induction passed generalizing store with
  | nil => exact ⟨.refl, fun _ leads => leads⟩
  | cons first rest ih =>
    have leads := chain first (List.mem_cons_self ..)
    have kept (other : TypeVar) (before : store.Leads other last) :
        (store.setType first (.link last)).Leads other last :=
      before.setType leads.index_lt
    obtain ⟨steps, keeps⟩ := ih (store.setType first (.link last)) fun other member =>
      kept other (chain other (List.mem_cons_of_mem _ member))
    exact ⟨.head (skip store first leads) steps,
      fun other before => keeps other (kept other before)⟩

theorem Shortens.settled (shortens : before.Shortens after) : before.Settled after := by
  induction shortens with
  | refl => exact .refl _
  | tail _ step ih => exact ih.trans step.settled

theorem Shortens.solving (shortens : before.Shortens after) (depth : Nat) :
    Relation.ReflTransGen (Solving depth) before after :=
  Relation.ReflTransGen.mono (fun _ _ step => .adjust (.shorten step)) _ _ shortens

theorem Shortens.requirements (shortens : before.Shortens after) (var : TypeVar) :
    after.requirements? var = before.requirements? var := by
  induction shortens with
  | refl => rfl
  | tail _ step ih => rw [step.requirements, ih]

theorem prune_apply (followed : store.follow store.types.size type = (last, passed)) :
    prune type store = (last,
      if 1 < passed.length then
        passed.foldl (fun store other => store.setType other (.link last)) store
      else store) := by
  have whole : prune type store = (do
      if 1 < (store.follow store.types.size type).2.length then
        set ((store.follow store.types.size type).2.foldl
          (fun before other =>
            before.setType other (.link (store.follow store.types.size type).1)) store)
      return (store.follow store.types.size type).1 : StateM Store InferredType) store := rfl
  rw [whole, followed]
  split <;> rfl

theorem prune_of_not_var (compound : type.isVar = false) : prune type store = (type, store) :=
  prune_apply (follow_of_not_var compound store.types.size)

/-- Pruning shortens links and ends at an unbound variable or at a type that is none. -/
theorem prune_yields (wellformed : store.Wellformed) (type : InferredType) :
    Yields Shortening store (prune type) fun result after =>
      after.Reaches type result ∧ ∀ last, result = .var last → after.typeLink? last = none := by
  rcases type.var_or_compound with ⟨var, rfl⟩ | compound
  · obtain ⟨rank, ranking, small⟩ := wellformed.exists_typeRanking
    have followed := follow_var ranking store.types.size var (small var)
    generalize found : store.follow store.types.size (.var var) = walked at followed
    obtain ⟨last, passed⟩ := walked
    obtain ⟨reaches, free, chain⟩ := followed
    obtain ⟨shortens, keeps⟩ :=
      skip_chain (fun _ _ leads => Shortening.type leads) passed store chain
    refine ⟨rfl, ?_, ?_⟩
    · rw [prune_apply found]
      split
      · exact shortens
      · exact .refl
    · rw [prune_apply found]
      split
      · refine ⟨?_, fun final same =>
        (Shortens.settled shortens).typeLink?_none.mpr (free final same)⟩
        rcases reaches with same | ⟨_, ⟨⟩, leads⟩
        · exact .inl same
        · exact .inr ⟨var, rfl, keeps var leads⟩
      · exact ⟨reaches, free⟩
  · refine ⟨rfl, ?_, ?_⟩
    · rw [prune_of_not_var compound]
    · rw [prune_of_not_var compound]
      exact ⟨.inl rfl, fun last same => absurd same (TypeTerm.ne_var compound last)⟩

/-- The walk along links from a variable: `onLast` is done at an unbound variable, and `onTarget`
at a type that is none, with the way to go on from its variables. `stop` is done where no more
links may be taken. -/
def walk {β : Type} (onLast : TypeVar → StateM Store β)
    (onTarget : (TypeVar → StateM Store β) → InferredType → StateM Store β)
    (stop : TypeVar → StateM Store β) : Nat → TypeVar → StateM Store β
  | 0, var => stop var
  | links + 1, var => do
      match ← prune (.var var) with
      | .var last => onLast last
      | target => onTarget (walk onLast onTarget stop links) target

variable {β : Type} {step : Store → Store → Prop} {start : Store} {rank : TypeVar → Nat}

/-- Two walks that may both take more links than the rank of a variable agree, no matter what they
do otherwise, if the parts of the walk agree where the rest of it does. The variables that a walk
can come to are `visited`. -/
theorem walk_agree (onLast : TypeVar → StateM Store β)
    (onTarget : (TypeVar → StateM Store β) → InferredType → StateM Store β)
    (visited : TypeVar → Prop) (post : TypeVar → β → Store → Prop)
    (wellformed : start.Wellformed) (ranking : start.TypeRanking rank)
    (shortens : ∀ before after, Shortening before after → step before after)
    (settles : ∀ before after, Relation.ReflTransGen step before after → before.Settled after)
    (further : ∀ store, Relation.ReflTransGen step start store → ∀ var type next, visited var →
      store.Leads var type → type.HasVar next → visited next)
    (lasts : ∀ store, Relation.ReflTransGen step start store → ∀ var last, visited var →
      store.Reaches (.var var) (.var last) → last.index < store.types.size →
        store.typeLink? last = none → Yields step store (onLast last) (post var))
    (targets : ∀ store, Relation.ReflTransGen step start store → ∀ var type,
      store.Leads var type → type.isVar = false → ∀ first second,
        (∀ next, type.HasVar next → ∀ later, Relation.ReflTransGen step store later →
          Agree step later (first next) (second next) (post next)) →
        Agree step store (onTarget first type) (onTarget second type) (post var))
    (stop otherStop : TypeVar → StateM Store β) (links more : Nat) (var : TypeVar)
    (within : var.index < start.types.size) (visits : visited var) (store : Store)
    (reached : Relation.ReflTransGen step start store) (enough : rank var < links)
    (moreEnough : rank var < more) :
    Agree step store (walk onLast onTarget stop links var)
      (walk onLast onTarget otherStop more var) (post var) := by
  -- On the links left. Neither walk reaches its stop, since both have more links than the
  -- variable's rank.
  induction links generalizing more var store with
  | zero => cases enough
  | succ links ih =>
    cases more with
    | zero => cases moreEnough
    | succ more =>
      have settled := settles start store reached
      have pruned :=
        (prune_yields (settled.wellformed wellformed) (.var var)).mono_step shortens
      refine pruned.bind fun type after steps ends => ?_
      obtain ⟨reaches, free⟩ := ends
      have along := reached.trans steps
      have settledAfter := settles start after along
      have wellformedAfter := settledAfter.wellformed wellformed
      rcases type.var_or_compound with ⟨last, rfl⟩ | compound
      · have covered := reaches.covers wellformedAfter (covers_var.mpr (by
          rw [settledAfter.typeCount]
          exact within))
        exact lasts after along var last visits reaches (covers_var.mp covered) (free last rfl)
      · obtain ⟨_, ⟨⟩, leads⟩ := reaches.resolve_left (TypeTerm.ne_var compound var)
        have deeper := targets after along var type leads compound
          (walk onLast onTarget stop links) (walk onLast onTarget otherStop more)
          fun next has later steps => by
            have less := leads.rank_lt (settledAfter.typeRanked rank ranking) has
            obtain ⟨holder, linked⟩ := leads.exists_link
            have covered := wellformedAfter.typesCovered holder type linked
            have inside := settledAfter.covers.mp covered
            exact ih more next (inside.1 next has)
              (further after along var type next visits leads has) later (along.trans steps)
              (by omega) (by omega)
        cases type with
        | var name => cases compound
        | _ => exact deeper

private theorem anyVarM_agree {test otherTest : TypeVar → StateM Store Bool}
    (each : ∀ var, type.HasVar var → ∀ later, Relation.ReflTransGen step store later →
      Agree step later (test var) (otherTest var) fun found _ => found = true ↔ holds var) :
    Agree step store (type.anyVarM test) (type.anyVarM otherTest)
      fun found _ => found = true ↔ ∃ var, type.HasVar var ∧ holds var := by
  induction type using TypeTerm.induction_children generalizing store with
  | step type ih =>
    rcases type.var_or_compound with ⟨var, rfl⟩ | compound
    · have here := each var (by simp [TypeTerm.HasVar, TypeTerm.leaves]) store .refl
      exact here.mono fun found _ _ answer => by
        simpa [TypeTerm.HasVar, TypeTerm.leaves] using answer
    · rw [TypeTerm.anyVarM_children test compound, TypeTerm.anyVarM_children otherTest compound]
      refine (Agree.anyM fun child member later steps => ih child member ?_).mono ?_
      · intro var has further more
        exact each var ((TypeTerm.hasVar_iff_child compound).mpr ⟨child, member, has⟩) further
          (steps.trans more)
      · intro found _ _ answer
        rw [answer]
        constructor
        · rintro ⟨child, member, var, has, here⟩
          exact ⟨var, (TypeTerm.hasVar_iff_child compound).mpr ⟨child, member, has⟩, here⟩
        · rintro ⟨var, has, here⟩
          obtain ⟨child, member, inside⟩ := (TypeTerm.hasVar_iff_child compound).mp has
          exact ⟨child, member, var, inside, here⟩

def occurrence (var : TypeVar) (stop : TypeVar → StateM Store Bool) :
    Nat → TypeVar → StateM Store Bool :=
  walk (fun last => return last = var) (fun search type => type.anyVarM search) stop

private theorem occursInVar_eq (var : TypeVar) (links : Nat) :
    Unification.occursInVar var links = occurrence var (fun _ => return false) links := by
  induction links with
  | zero => rfl
  | succ links ih =>
    funext candidate
    rw [Unification.occursInVar, ih]
    rfl

private theorem occurrence_agree (wellformed : start.Wellformed)
    (ranking : start.TypeRanking rank) (var : TypeVar)
    (stop otherStop : TypeVar → StateM Store Bool) {candidate : TypeVar}
    (within : candidate.index < start.types.size) (enough : rank candidate < links)
    (moreEnough : rank candidate < more) (shortens : start.Shortens store) :
    Agree Shortening store (occurrence var stop links candidate)
      (occurrence var otherStop more candidate)
      fun found _ => found = true ↔ (start.shape (.var candidate)).HasVar var := by
  have shape {later : Store} (steps : start.Shortens later) (type : InferredType) :
      start.shape type = later.shape type :=
    ((Shortens.settled steps).shape wellformed type).symm
  refine walk_agree _ _ (fun _ => True)
    (fun candidate found _ => found = true ↔ (start.shape (.var candidate)).HasVar var)
    wellformed ranking (fun _ _ shortening => shortening) (fun _ _ => Shortens.settled)
    (fun _ _ _ _ _ _ _ _ => trivial) ?_ ?_ stop otherStop links more candidate within trivial store
    shortens enough moreEnough
  · intro store steps candidate last _ reaches _ free
    refine .pure ?_
    rw [shape steps, ← reaches.shape ((Shortens.settled steps).wellformed wellformed),
      shape_unbound free]
    simp [TypeTerm.HasVar, TypeTerm.leaves, eq_comm]
  · intro store steps candidate type leads _ first second each
    refine (anyVarM_agree each).mono fun found _ _ answer => ?_
    have here := ((Shortens.settled steps).wellformed wellformed).shape_leads leads
    rw [answer, shape steps, here, hasVar_shape]
    simp only [shape steps]

/-- A variable occurs in a type if it stands in its shape. No number of further links would change
what the search does. -/
theorem occurs_agree (wellformed : store.Wellformed) (var : TypeVar) (covered : store.Covers type)
    (stop : TypeVar → StateM Store Bool) (enough : store.types.size < links) :
    Agree Shortening store (Unification.occurs var type) (type.anyVarM (occurrence var stop links))
      fun found _ => found = true ↔ (store.shape type).HasVar var := by
  obtain ⟨rank, ranking, small⟩ := wellformed.exists_typeRanking
  have agree := anyVarM_agree fun candidate has _ shortens =>
    occurrence_agree wellformed ranking var (fun _ => return false) stop (covered.1 candidate has)
      (Nat.lt_succ_of_le (small candidate)) (Nat.lt_of_le_of_lt (small candidate) enough) shortens
  rw [← occursInVar_eq] at agree
  refine ⟨agree.same, agree.steps, ?_⟩
  rw [hasVar_shape]
  exact agree.ends

private theorem offersItems_eq (onVar : TypeVar → StateM Store Bool) (capability : String)
    (items : List InferredType) :
    offersItems onVar capability items = items.allM (offersTerm onVar capability) := by
  induction items with
  | nil => rfl
  | cons item items ih =>
    rw [offersItems, List.allM, ih]
    refine bind_congr fun found => ?_
    cases found <;> rfl

private theorem offersFields_eq (onVar : TypeVar → StateM Store Bool) (capability : String)
    (fields : List (String × InferredType)) :
    offersFields onVar capability fields =
      (fields.map Prod.snd).allM (offersTerm onVar capability) := by
  induction fields with
  | nil => rfl
  | cons field fields ih =>
    obtain ⟨name, type⟩ := field
    rw [offersFields, List.map_cons, List.allM, ih]
    refine bind_congr fun found => ?_
    cases found <;> rfl

private theorem offersOperands_eq (onVar : TypeVar → StateM Store Bool) (capability : String)
    (operands : List (Operand InferredType InferredUnit)) :
    offersOperands onVar capability operands =
      (TypeTerm.operandTypes operands).allM (offersTerm onVar capability) := by
  induction operands with
  | nil => rfl
  | cons operand operands ih =>
    cases operand with
    | type value =>
      rw [offersOperands, ih]
      change _ = (value :: TypeTerm.operandTypes operands).allM (offersTerm onVar capability)
      rw [List.allM]
      refine bind_congr fun found => ?_
      cases found <;> rfl
    | unit value => exact ih

private theorem pure_eq_ite (answer : Bool) :
    (pure answer : StateM Store Bool) = if answer then pure true else pure false := by
  cases answer <;> rfl

private theorem offersTerm_children (onVar : TypeVar → StateM Store Bool) (capability : String)
    (compound : type.isVar = false) :
    offersTerm onVar capability type =
      if type.offered.contains capability then
        if type.offersThroughChildren then type.children.allM (offersTerm onVar capability)
        else pure true
      else pure false := by
  cases type with
  | var name => cases compound
  | number unit => exact pure_eq_ite _
  | text => exact pure_eq_ite _
  | boolean => exact pure_eq_ite _
  | date kind => exact pure_eq_ite _
  | tuple items =>
    rw [offersTerm, offersItems_eq]
    rfl
  | array item =>
    have single :
        [item].allM (offersTerm onVar capability) = offersTerm onVar capability item := by
      rw [← offersItems_eq]
      refine Eq.trans ?_ (bind_pure (offersTerm onVar capability item))
      refine bind_congr fun found => ?_
      cases found <;> rfl
    rw [offersTerm, ← single]
    rfl
  | function params result => rfl
  | record fields =>
    rw [offersTerm, offersFields_eq]
    rfl
  | tagged name operands =>
    rw [offersTerm, offersOperands_eq]
    rfl

private theorem offersTerm_agree (capability : String)
    {onVar otherOnVar : TypeVar → StateM Store Bool}
    (each : ∀ var, type.HasVar var → ∀ later, Relation.ReflTransGen step store later →
      Agree step later (onVar var) (otherOnVar var) fun found _ => found = true ↔ holds var) :
    Agree step store (offersTerm onVar capability type) (offersTerm otherOnVar capability type)
      fun found _ => found = true ↔ type.Offers holds capability := by
  induction type using TypeTerm.induction_children generalizing store with
  | step type ih =>
    rcases type.var_or_compound with ⟨var, rfl⟩ | compound
    · have here := each var (by simp [TypeTerm.HasVar, TypeTerm.leaves]) store .refl
      exact here.mono fun found _ _ answer => answer.trans TypeTerm.offers_var.symm
    · rw [offersTerm_children onVar capability compound,
        offersTerm_children otherOnVar capability compound]
      simp only [TypeTerm.offers_iff_children compound]
      split
      next offered =>
        have member := List.contains_iff_mem.mp offered
        simp only [and_iff_right member]
        split
        next =>
          refine Agree.allM fun child member later steps => ih child member ?_
          intro var has further more
          exact each var ((TypeTerm.hasVar_iff_child compound).mpr ⟨child, member, has⟩) further
            (steps.trans more)
        next alone =>
          refine .pure (iff_of_true rfl ?_)
          rw [TypeTerm.children_of_offered (List.ne_nil_of_mem member) (by simpa using alone)]
          exact List.forall_mem_nil _
      next missing =>
        refine .pure (iff_of_false Bool.false_ne_true fun offers => ?_)
        exact missing (List.contains_iff_mem.mpr offers.1)

def offering (capability : String) (stop : TypeVar → StateM Store Bool) :
    Nat → TypeVar → StateM Store Bool :=
  walk (fun _ => return true) (fun ask type => offersTerm ask capability type) stop

private theorem offersVar_eq (capability : String) (links : Nat) :
    offersVar capability links = offering capability (fun _ => return true) links := by
  induction links with
  | zero => rfl
  | succ links ih =>
    funext var
    rw [offersVar, ih]
    rfl

private theorem offering_agree (wellformed : start.Wellformed) (ranking : start.TypeRanking rank)
    (capability : String) (stop otherStop : TypeVar → StateM Store Bool)
    (within : var.index < start.types.size) (enough : rank var < links)
    (moreEnough : rank var < more) (shortens : start.Shortens store) :
    Agree Shortening store (offering capability stop links var)
      (offering capability otherStop more var)
      fun found _ => found = true ↔
        (start.shape (.var var)).Offers (fun _ => True) capability := by
  have shape {later : Store} (steps : start.Shortens later) (type : InferredType) :
      start.shape type = later.shape type :=
    ((Shortens.settled steps).shape wellformed type).symm
  refine walk_agree _ _ (fun _ => True)
    (fun var found _ => found = true ↔
      (start.shape (.var var)).Offers (fun _ => True) capability)
    wellformed ranking (fun _ _ shortening => shortening) (fun _ _ => Shortens.settled)
    (fun _ _ _ _ _ _ _ _ => trivial) ?_ ?_ stop otherStop links more var within trivial store
    shortens enough moreEnough
  · intro store steps var last _ reaches _ free
    refine .pure (iff_of_true rfl ?_)
    rw [shape steps, ← reaches.shape ((Shortens.settled steps).wellformed wellformed),
      shape_unbound free]
    exact .var trivial
  · intro store steps var type leads _ first second each
    refine (offersTerm_agree capability each).mono fun found _ _ answer => ?_
    have here := ((Shortens.settled steps).wellformed wellformed).shape_leads leads
    rw [answer, shape steps, here, ← shape steps, shape_eq_substitute]
    exact TypeTerm.offers_substitute.symm

/-- A type offers a capability if its shape does, whatever its variables stand for. Asking shortens
links at most, and no number of further links would change what is done. -/
theorem offers_agree (wellformed : store.Wellformed) (covered : store.Covers type)
    (capability : String) (stop : TypeVar → StateM Store Bool) (enough : store.types.size < links) :
    Agree Shortening store (offers type capability)
      (offersTerm (offering capability stop links) capability type)
      fun found _ => found = true ↔ (store.shape type).Offers (fun _ => True) capability := by
  obtain ⟨rank, ranking, small⟩ := wellformed.exists_typeRanking
  have agree := offersTerm_agree capability fun var has _ shortens =>
    offering_agree wellformed ranking capability (fun _ => return true) stop (covered.1 var has)
      (Nat.lt_succ_of_le (small var)) (Nat.lt_of_le_of_lt (small var) enough) shortens
  rw [← offersVar_eq] at agree
  refine ⟨agree.same, agree.steps, ?_⟩
  rw [shape_eq_substitute, TypeTerm.offers_substitute]
  exact agree.ends

end Store

end SheetTypes
