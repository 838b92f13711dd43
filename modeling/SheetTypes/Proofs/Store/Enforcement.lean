import SheetTypes.Proofs.Faults
import SheetTypes.Proofs.Store.Resolution

/-!
Requiring capabilities. Where it succeeds, the requirement has been passed on to every unbound
variable in the type and there is no function in it; where it fails, the requirements added until
then stay. The links of the store are only shortened.
-/

set_option autoImplicit false

namespace SheetTypes.Store

variable {store : Store} {required : Requirements} {asked : TypeVar → Prop} {after before : Store}
  {links : Nat} {requirements : Requirements} {type : InferredType} {var : TypeVar}

abbrev Harmless (error : TypeError) : Prop := ¬error.BlamesStore

abbrev Adjusts : Store → Store → Prop := Relation.ReflTransGen Adjustment

theorem Adjusts.settled (adjusts : before.Adjusts after) : before.Settled after := by
  induction adjusts with
  | refl => exact .refl _
  | tail _ step ih => exact ih.trans step.settled

/-- A change in requiring capabilities: links are shortened, and the capabilities are required of
unbound variables among the given ones. -/
inductive Demand (required : Requirements) (asked : TypeVar → Prop) : Store → Store → Prop where
  | shorten {before after : Store} (shortening : Shortening before after) :
      Demand required asked before after
  | require {store : Store} {var : TypeVar} {requirements : Requirements} (among : asked var)
      (found : store.requirements? var = some requirements) :
      Demand required asked store (store.setType var (.unbound (requirements.union required)))

theorem Demand.adjustment (demand : Demand required asked before after) :
    Adjustment before after := by
  cases demand with
  | shorten shortening => exact .shorten shortening
  | require _ found => exact .require found required

abbrev Demands (required : Requirements) (asked : TypeVar → Prop) : Store → Store → Prop :=
  Relation.ReflTransGen (Demand required asked)

theorem Demands.adjusts (demands : Demands required asked before after) : before.Adjusts after :=
  Relation.ReflTransGen.mono (fun _ _ => Demand.adjustment) _ _ demands

theorem render_yields (wellformed : store.Wellformed) (type : InferredType) :
    Yields Shortening store (render type) fun _ _ => True := by
  obtain ⟨readout, reads⟩ := wellformed.exists_readout
  exact (resolve_reads wellformed reads type).bind fun _ _ _ _ => .pure trivial

/-- An error because of a type: its shape lacks a capability, whatever its variables offer. -/
def Lacking (required : Requirements) (shape : TypeTerm TypeVar Unit) (error : TypeError) : Prop :=
  Harmless error ∧ ∃ capability ∈ required.names, ¬shape.Offers (fun _ => True) capability

private theorem checkOffered_yields (wellformed : store.Wellformed)
    (compound : type.isVar = false) :
    Yields (Demand required asked) store (checkOffered required type)
      (Outcome (Lacking required (store.shape type))
        fun _ _ => ∀ capability ∈ required.names, capability ∈ type.offered) := by
  unfold checkOffered
  split
  next shortfall found =>
    have rendered : Yields (Demand required asked) store (render type) fun _ _ => True :=
      (render_yields wellformed type).mono_step fun _ _ shortening => .shorten shortening
    refine rendered.lift.andThen fun text _ _ _ => .throw ⟨TypeError.not_blamesStore rfl, ?_⟩
    have missing : ¬∀ capability ∈ required.names, capability ∈ type.offered := by
      rw [← Requirements.shortfall?_eq_none, found]
      exact Option.some_ne_none shortfall
    push Not at missing
    obtain ⟨capability, member, absent⟩ := missing
    refine ⟨capability, member, fun offers => absent ?_⟩
    rw [shape_eq_substitute, TypeTerm.offers_iff_children (TypeTerm.isVar_substitute compound),
      TypeTerm.offered_substitute _ _ compound] at offers
    exact offers.1
  next met => exact .ok (Requirements.shortfall?_eq_none.mp met)

private theorem Lacking.of_child {child : InferredType} {error : TypeError}
    (compound : type.isVar = false) (member : child ∈ type.children)
    (lacking : Lacking required (store.shape child) error) :
    Lacking required (store.shape type) error := by
  obtain ⟨harmless, capability, needed, missing⟩ := lacking
  refine ⟨harmless, capability, needed, fun offers => missing ?_⟩
  rw [shape_eq_substitute, TypeTerm.offers_iff_children (TypeTerm.isVar_substitute compound),
    TypeTerm.children_substitute _ _ compound] at offers
  exact offers.2 _ (List.mem_map_of_mem member)

private theorem enforceItems_eq (onVar : TypeVar → Infer Unit) (items : List InferredType) :
    enforceItems onVar required items = items.forM (enforceTerm onVar required) := by
  induction items with
  | nil => rfl
  | cons item items ih =>
    rw [enforceItems, ih]
    rfl

private theorem enforceFields_eq (onVar : TypeVar → Infer Unit)
    (fields : List (String × InferredType)) :
    enforceFields onVar required fields =
      (fields.map Prod.snd).forM (enforceTerm onVar required) := by
  induction fields with
  | nil => rfl
  | cons field fields ih =>
    obtain ⟨name, type⟩ := field
    rw [enforceFields, ih]
    rfl

private theorem enforceOperands_eq (onVar : TypeVar → Infer Unit)
    (operands : List (Operand InferredType InferredUnit)) :
    enforceOperands onVar required operands =
      (TypeTerm.operandTypes operands).forM (enforceTerm onVar required) := by
  induction operands with
  | nil => rfl
  | cons operand operands ih =>
    cases operand with
    | type value =>
      rw [enforceOperands, ih]
      rfl
    | unit value => exact ih

theorem enforceTerm_children (onVar : TypeVar → Infer Unit) (compound : type.isVar = false) :
    enforceTerm onVar required type = (do
      checkOffered required type
      if type.offersThroughChildren then type.children.forM (enforceTerm onVar required)) := by
  have alone : checkOffered required type = (do
      checkOffered required type
      pure ()) := (bind_pure _).symm
  cases type with
  | var name => cases compound
  | number unit => exact alone
  | text => exact alone
  | boolean => exact alone
  | date kind => exact alone
  | function params result => exact alone
  | tuple items =>
    rw [enforceTerm, enforceItems_eq]
    rfl
  | array item =>
    have single : [item].forM (enforceTerm onVar required) = enforceTerm onVar required item :=
      bind_pure _
    rw [enforceTerm, ← single]
    rfl
  | record fields =>
    rw [enforceTerm, enforceFields_eq]
    rfl
  | tagged name operands =>
    rw [enforceTerm, enforceOperands_eq]
    rfl

def Holds (store : Store) (required : Requirements) (capability : String) (var : TypeVar) : Prop :=
  ∃ requirements, store.requirements? var = some requirements ∧
    capability ∈ requirements.names ∧
      ∀ origin ∈ required.originsOf capability, origin ∈ requirements.originsOf capability

/-- Whether a type offers all of some requirements, and its unbound variables hold them. -/
def Placed (store : Store) (required : Requirements) (type : InferredType) : Prop :=
  ∀ capability ∈ required.names,
    (store.shape type).Offers (store.Holds required capability) capability

/-- Whether all of some requirements have been passed on to what a type stands for. -/
def Meets (store : Store) (required : Requirements) (type : InferredType) : Prop :=
  ∀ capability origin, origin ∈ required.originsOf capability →
    store.Carries capability origin type

theorem Placed.meets (placed : store.Placed required type) : store.Meets required type := by
  intro capability origin member
  have offers := placed capability (Requirements.mem_names_of_origin member)
  refine ⟨offers.hasFunction_eq_false, fun var has => ?_⟩
  obtain ⟨requirements, found, _, origins⟩ := offers.of_hasVar has
  exact ⟨requirements, found, origins origin member⟩

/-- Requirements that a variable holds are never taken from it. -/
theorem Demands.holds {capability : String} {needed : Requirements}
    (demands : Demands required asked before after) (holds : before.Holds needed capability var) :
    after.Holds needed capability var := by
  induction demands with
  | refl => exact holds
  | tail _ step ih =>
    obtain ⟨requirements, found, named, origins⟩ := ih
    cases step with
    | shorten shortening =>
      exact ⟨requirements, (shortening.requirements var).trans found, named, origins⟩
    | @require changed old _ foundOld =>
      by_cases same : var = changed
      · subst same
        rw [found] at foundOld
        cases foundOld
        refine ⟨_, requirements?_setType_self (index_lt_of_requirements found),
          Requirements.mem_names_union.mpr (.inl named), fun origin member => ?_⟩
        exact Requirements.mem_originsOf_union.mpr (.inl (origins origin member))
      · exact ⟨requirements, (requirements?_setType_of_ne same).trans found, named, origins⟩

theorem Placed.later (placed : before.Placed required type) (wellformed : before.Wellformed)
    (demands : Demands required asked before after) : after.Placed required type := by
  intro capability member
  rw [(Adjusts.settled (Demands.adjusts demands)).shape wellformed]
  exact (placed capability member).mono fun _ => Demands.holds demands

private theorem placed_of_children (compound : type.isVar = false)
    (offered : ∀ capability ∈ required.names, capability ∈ type.offered)
    (children : ∀ child ∈ type.children, store.Placed required child) :
    store.Placed required type := by
  intro capability member
  rw [shape_eq_substitute, TypeTerm.offers_iff_children (TypeTerm.isVar_substitute compound),
    TypeTerm.offered_substitute _ _ compound, TypeTerm.children_substitute _ _ compound]
  refine ⟨offered capability member, fun shape inside => ?_⟩
  obtain ⟨child, own, rfl⟩ := List.mem_map.mp inside
  exact children child own capability member

private theorem enforceTerm_agree (wellformed : store.Wellformed) (covered : store.Covers type)
    {onVar otherOnVar : TypeVar → Infer Unit}
    (each : ∀ var, type.HasVar var → ∀ later, Demands required asked store later →
      Agree (Demand required asked) later (onVar var) (otherOnVar var)
        (Outcome (Lacking required (store.shape (.var var)))
          fun _ after => after.Placed required (.var var))) :
    Agree (Demand required asked) store (enforceTerm onVar required type)
      (enforceTerm otherOnVar required type)
      (Outcome (Lacking required (store.shape type))
        fun _ after => after.Placed required type) := by
  induction type using TypeTerm.induction_children generalizing store with
  | step type ih =>
    rcases type.var_or_compound with ⟨var, rfl⟩ | compound
    · exact each var (by simp [TypeTerm.HasVar, TypeTerm.leaves]) store .refl
    · rw [enforceTerm_children onVar compound, enforceTerm_children otherOnVar compound]
      refine (checkOffered_yields wellformed compound).andThen fun _ middle steps offered => ?_
      have settled {later : Store} (reached : Demands required asked store later) :
          store.Settled later := Adjusts.settled (Demands.adjusts reached)
      have wellformedLater {later : Store} (reached : Demands required asked middle later) :
          later.Wellformed := (settled (steps.trans reached)).wellformed wellformed
      split
      next =>
        refine (Agree.forM (fun child after => after.Placed required child) ?_ ?_).infer_mono ?_
          fun _ lacking => lacking
        · intro child before after reached further placed
          exact placed.later (wellformedLater reached) further
        · intro child member later reached
          have along := steps.trans reached
          have visit := ih child member (wellformedLater reached)
            ((settled along).covers.mpr (covered.child member)) fun var has next further => by
              rw [(settled along).shape wellformed]
              exact each var (TypeTerm.mem_leaves_of_child member has) next (along.trans further)
          rw [(settled along).shape wellformed] at visit
          exact visit.infer_mono (fun _ _ _ met => met) fun _ => Lacking.of_child compound member
        · intro _ after _ children
          exact placed_of_children compound offered children
      next alone =>
        refine .ok fun capability member => ?_
        refine placed_of_children compound offered (fun child inside => ?_) capability member
        have offers := List.ne_nil_of_mem (offered capability member)
        rw [TypeTerm.children_of_offered offers (by simpa using alone)] at inside
        cases inside

theorem addRequirements_apply (found : store.requirements? var = some requirements)
    (extra : Requirements) :
    addRequirements var extra store =
      (.ok (), store.setType var (.unbound (requirements.union extra))) := by
  rw [addRequirements, get_bind_apply, requirements?_eq_some.mp found]
  rfl

private theorem addRequirements_yields {fault : TypeError → Prop} (among : asked var)
    (found : store.requirements? var = some requirements) :
    Yields (Demand required asked) store (addRequirements var required)
      (Outcome fault fun _ after =>
        after = store.setType var (.unbound (requirements.union required))) :=
  .of_apply (addRequirements_apply found required) (.single (.require among found)) rfl

def enforcement (required : Requirements) (stop : TypeVar → Infer Unit) :
    Nat → TypeVar → Infer Unit :=
  walk (fun last => addRequirements last required)
    (fun enforce type => enforceTerm enforce required type) stop

private theorem enforceVar_eq (required : Requirements) (links : Nat) :
    enforceVar required links = enforcement required (fun _ => pure ()) links := by
  induction links with
  | zero => rfl
  | succ links ih =>
    funext var
    rw [enforceVar, ih]
    rfl

private theorem enforcement_agree {start : Store} {rank : TypeVar → Nat} (required : Requirements)
    (wellformed : start.Wellformed) (ranking : start.TypeRanking rank)
    (stop otherStop : TypeVar → Infer Unit) {more : Nat} (within : var.index < start.types.size)
    (visits : ∀ last, (start.shape (.var var)).HasVar last → asked last)
    (enough : rank var < links) (moreEnough : rank var < more)
    (demands : Demands required asked start store) :
    Agree (Demand required asked) store (enforcement required stop links var)
      (enforcement required otherStop more var)
      (Outcome (Lacking required (start.shape (.var var)))
        fun _ after => after.Placed required (.var var)) := by
  have settles {before after : Store} (steps : Demands required asked before after) :
      before.Settled after := Adjusts.settled (Demands.adjusts steps)
  refine walk_agree _ _ (fun var => ∀ last, (start.shape (.var var)).HasVar last → asked last)
    (fun var => Outcome (Lacking required (start.shape (.var var)))
      fun _ after => after.Placed required (.var var))
    wellformed ranking (fun _ _ shortening => .shorten shortening) (fun _ _ => settles) ?_ ?_ ?_
    stop otherStop links more var within visits store demands enough moreEnough
  · intro now steps var type next visits leads has last inside
    apply visits last
    have wellformedNow := (settles steps).wellformed wellformed
    rw [← (settles steps).shape wellformed] at inside ⊢
    rw [wellformedNow.shape_leads leads]
    exact hasVar_shape.mpr ⟨next, has, inside⟩
  · intro now steps var last visits reaches inside free
    have wellformedNow := (settles steps).wellformed wellformed
    obtain ⟨requirements, found⟩ := exists_requirements inside free
    have among : asked last := by
      apply visits last
      rw [← (settles steps).shape wellformed, ← reaches.shape wellformedNow, shape_unbound free]
      simp [TypeTerm.HasVar, TypeTerm.leaves]
    refine (addRequirements_yields among found).infer_mono ?_ fun _ lacking => lacking
    intro _ after further same capability member
    rw [(settles further).shape wellformedNow, ← reaches.shape wellformedNow, shape_unbound free]
    refine .var ⟨requirements.union required, ?_, Requirements.mem_names_union.mpr (.inr member),
      fun origin among => Requirements.mem_originsOf_union.mpr (.inr among)⟩
    rw [same]
    exact requirements?_setType_self inside
  · intro now steps var type leads _ first second each
    have wellformedNow := (settles steps).wellformed wellformed
    obtain ⟨holder, linked⟩ := leads.exists_link
    have covered := wellformedNow.typesCovered holder type linked
    simp only [← (settles steps).shape wellformed] at each ⊢
    have visit := enforceTerm_agree wellformedNow covered each
    rw [← wellformedNow.shape_leads leads] at visit
    refine visit.infer_mono ?_ fun _ lacking => lacking
    intro _ after further placed capability member
    have settled := settles further
    rw [settled.shape wellformedNow, wellformedNow.shape_leads leads, ← settled.shape wellformedNow]
    exact placed capability member

/-- Requiring capabilities of a type adds to the requirements of the unbound variables that are in
it. Where it succeeds, the type offers all of them and the unbound variables in it hold them; it
fails only if the type cannot offer one. No number of further links would change what is done. -/
theorem enforce_agree (wellformed : store.Wellformed) (covered : store.Covers type)
    (required : Requirements) (stop : TypeVar → Infer Unit) (enough : store.types.size < links) :
    Agree (Demand required (store.shape type).HasVar) store (enforce required type)
      (if required.isEmpty then pure ()
        else enforceTerm (enforcement required stop links) required type : Infer Unit)
      (Outcome (Lacking required (store.shape type))
        fun _ after => after.Placed required type) := by
  obtain ⟨rank, ranking, small⟩ := wellformed.exists_typeRanking
  have agree := enforceTerm_agree wellformed covered fun var has _ demands =>
    enforcement_agree required wellformed ranking (fun _ => pure ()) stop (covered.1 var has)
      (fun last inside => hasVar_shape.mpr ⟨var, has, inside⟩)
      (Nat.lt_succ_of_le (small var)) (Nat.lt_of_le_of_lt (small var) enough) demands
  rw [← enforceVar_eq] at agree
  unfold enforce
  by_cases empty : required.isEmpty = true
  · rw [if_pos empty, if_pos empty]
    refine .ok fun capability member => ?_
    rw [Requirements.names_of_isEmpty empty] at member
    cases member
  · rw [if_neg empty, if_neg empty]
    exact ⟨agree.same, agree.steps, agree.ends⟩

end SheetTypes.Store
