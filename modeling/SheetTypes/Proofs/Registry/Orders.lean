import Mathlib.Data.List.Basic
import SheetTypes.Proofs.Registry.Entries

/-!
Declaring one item after the other. That succeeds in an order in which every name is new and every
reference declared before it is used. Which such order it was cannot be told from the registry
afterwards, as far as lookups go.
-/

set_option autoImplicit false

namespace SheetTypes

section Orders

variable {δ ε : Type} {source : δ → Item} {item : ε → Item} {has has' : Subject → Prop}
  {entries : List ε}

/-- Whether items can be declared one after the other beside what there is: the name of each is new
by then, and what it refers to is there. -/
def Founded (item : ε → Item) (has : Subject → Prop) : List ε → Prop
  | [] => True
  | entry :: entries =>
    ¬has (item entry).subject ∧ (∀ subject, (item entry).Needs subject → has subject) ∧
      Founded item (fun subject => has subject ∨ subject = (item entry).subject) entries

theorem Founded.fresh (founded : Founded item has entries) :
    ∀ entry ∈ entries, ¬has (item entry).subject := by
  induction entries generalizing has with
  | nil => exact List.forall_mem_nil _
  | cons entry entries ih =>
    obtain ⟨fresh, _, rest⟩ := founded
    refine List.forall_mem_cons.mpr ⟨fresh, fun other member known => ?_⟩
    exact ih rest other member (.inl known)

theorem Founded.distinct (founded : Founded item has entries) :
    (entries.map fun entry => (item entry).subject).Nodup := by
  induction entries generalizing has with
  | nil => exact List.nodup_nil
  | cons entry entries ih =>
    obtain ⟨_, _, rest⟩ := founded
    refine List.nodup_cons.mpr ⟨fun again => ?_, ih rest⟩
    obtain ⟨other, member, same⟩ := List.mem_map.mp again
    exact rest.fresh other member (.inr same)

theorem Founded.needs (founded : Founded item has entries) {entry : ε} (member : entry ∈ entries)
    {subject : Subject} (needs : (item entry).Needs subject) :
    has subject ∨ ∃ other ∈ entries, subject = (item other).subject := by
  induction entries generalizing has with
  | nil => cases member
  | cons first entries ih =>
    obtain ⟨_, supported, rest⟩ := founded
    rcases List.mem_cons.mp member with rfl | later
    · exact .inl (supported subject needs)
    · rcases ih rest later with (known | same) | ⟨other, inside, same⟩
      · exact .inl known
      · exact .inr ⟨first, List.mem_cons_self, same⟩
      · exact .inr ⟨other, List.mem_cons_of_mem _ inside, same⟩

/-- Items that refer only to what there is can be declared in any order. -/
theorem founded_of_supported (fresh : ∀ entry ∈ entries, ¬has (item entry).subject)
    (supported : ∀ entry ∈ entries, ∀ subject, (item entry).Needs subject → has subject)
    (distinct : (entries.map fun entry => (item entry).subject).Nodup) :
    Founded item has entries := by
  induction entries generalizing has with
  | nil => trivial
  | cons entry entries ih =>
    obtain ⟨here, others⟩ := List.forall_mem_cons.mp fresh
    obtain ⟨hereSupported, othersSupported⟩ := List.forall_mem_cons.mp supported
    obtain ⟨new, rest⟩ := List.nodup_cons.mp distinct
    refine ⟨here, hereSupported, ih ?_ ?_ rest⟩
    · rintro other member (known | same)
      · exact others other member known
      · exact new (List.mem_map.mpr ⟨other, member, same⟩)
    · exact fun other member subject needs => .inl (othersSupported other member subject needs)

/-- Items that are picked out of an order keep it, wherever the relevant ones among those left out
are there already. -/
theorem Founded.filterMap {pick : δ → Option ε} {relevant : Subject → Prop} {order : List δ}
    (founded : Founded source has order)
    (same : ∀ entry picked, pick entry = some picked → item picked = source entry)
    (wanted : ∀ entry ∈ order, pick entry ≠ none → ∀ subject, (source entry).Needs subject →
      relevant subject)
    (more : ∀ subject, relevant subject → has subject → has' subject)
    (left : ∀ entry ∈ order, pick entry = none → relevant (source entry).subject →
      has' (source entry).subject)
    (fresh : ∀ entry ∈ order, pick entry ≠ none → ¬has' (source entry).subject) :
    Founded item has' (order.filterMap pick) := by
  induction order generalizing has has' with
  | nil => trivial
  | cons entry order ih =>
    obtain ⟨new, supported, rest⟩ := founded
    obtain ⟨hereWanted, wanted⟩ := List.forall_mem_cons.mp wanted
    obtain ⟨hereLeft, left⟩ := List.forall_mem_cons.mp left
    obtain ⟨hereFresh, fresh⟩ := List.forall_mem_cons.mp fresh
    cases picked : pick entry with
    | none =>
      rw [List.filterMap_cons_none picked]
      refine ih rest wanted (fun subject matters known => ?_) left fresh
      rcases known with known | rfl
      · exact more subject matters known
      · exact hereLeft picked matters
    | some found =>
      have some : pick entry ≠ none := by simp [picked]
      rw [List.filterMap_cons_some picked]
      refine ⟨?_, ?_, ?_⟩
      · rw [same entry found picked]
        exact hereFresh some
      · rw [same entry found picked]
        exact fun subject needs =>
          more subject (hereWanted some subject needs) (supported subject needs)
      · rw [same entry found picked]
        refine ih rest wanted (fun subject matters known => ?_) ?_ ?_
        · exact known.imp_left (more subject matters)
        · exact fun other member out matters => .inl (left other member out matters)
        · rintro other member kept (known | again)
          · exact fresh other member kept known
          · exact rest.fresh other member (.inr again)

end Orders

/-- Whether two registries answer every lookup alike. -/
def Registry.Alike (registry other : Registry) : Prop :=
  ∀ name, registry.unit? name = other.unit? name ∧ registry.type? name = other.type? name

theorem Registry.Keeps.antisymm {registry other : Registry} (keeps : registry.Keeps other)
    (back : other.Keeps registry) : registry.Alike other := by
  refine fun name => ⟨Option.ext fun definition => ?_, Option.ext fun definition => ?_⟩
  · exact ⟨keeps.units name definition, back.units name definition⟩
  · exact ⟨keeps.types name definition, back.types name definition⟩

section Sequences

variable {ε : Type} {item : ε → Item} {registry later : Registry} {entries : List ε}
  {declare : ε → Declaring Unit} {other : Registry}

theorem forM_cons_eq_ok {entry : ε} :
    ((entry :: entries).forM declare : Declaring PUnit) registry = (.ok (), later) ↔
      ∃ middle, declare entry registry = (.ok (), middle) ∧
        (entries.forM declare : Declaring PUnit) middle = (.ok (), later) := by
  refine bind_eq_ok.trans ⟨?_, ?_⟩
  · rintro ⟨_, middle, here, rest⟩
    exact ⟨middle, here, rest⟩
  · rintro ⟨middle, here, rest⟩
    exact ⟨(), middle, here, rest⟩

theorem forM_append_eq_ok {others : List ε} {middle : Registry}
    (first : (entries.forM declare : Declaring PUnit) registry = (.ok (), middle))
    (rest : (others.forM declare : Declaring PUnit) middle = (.ok (), later)) :
    ((entries ++ others).forM declare : Declaring PUnit) registry = (.ok (), later) := by
  have joined : ((entries ++ others).forM declare : Declaring PUnit) = (do
      entries.forM declare
      others.forM declare) := List.forM_append
  rw [joined]
  exact bind_eq_ok.mpr ⟨(), middle, first, rest⟩

theorem forM_map (item : ε → Item) (entries : List ε) :
    ((entries.map item).forM Item.declare : Declaring PUnit) =
      entries.forM fun entry => (item entry).declare := by
  induction entries with
  | nil => rfl
  | cons entry entries ih =>
    exact congrArg (fun rest : Declaring PUnit => (item entry).declare >>= fun _ => rest) ih

/-- Valid items can be declared one after the other exactly if they are in order. -/
theorem forM_succeeds :
    (∃ later, (entries.forM fun entry => (item entry).declare : Declaring PUnit) registry =
        (.ok (), later)) ↔
      (∀ entry ∈ entries, (item entry).Valid) ∧ Founded item registry.Has entries := by
  induction entries generalizing registry with
  | nil => exact iff_of_true ⟨registry, rfl⟩ ⟨List.forall_mem_nil _, trivial⟩
  | cons entry entries ih =>
    have grown (middle : Registry) (done : (item entry).declare registry = (.ok (), middle)) :
        middle.Has = fun subject => registry.Has subject ∨ subject = (item entry).subject :=
      funext fun subject => propext ((Item.taken_of_declared done).has subject)
    constructor
    · rintro ⟨later, done⟩
      obtain ⟨middle, here, rest⟩ := forM_cons_eq_ok.mp done
      obtain ⟨valid, fresh, supported⟩ := Item.declare_succeeds.mp ⟨middle, here⟩
      obtain ⟨others, founded⟩ := ih.mp ⟨later, rest⟩
      rw [grown middle here] at founded
      exact ⟨List.forall_mem_cons.mpr ⟨valid, others⟩, fresh, supported, founded⟩
    · rintro ⟨valid, fresh, supported, founded⟩
      obtain ⟨own, others⟩ := List.forall_mem_cons.mp valid
      obtain ⟨middle, here⟩ := Item.declare_succeeds.mpr ⟨own, fresh, supported⟩
      rw [← grown middle here] at founded
      obtain ⟨later, rest⟩ := ih.mpr ⟨others, founded⟩
      exact ⟨later, forM_cons_eq_ok.mpr ⟨middle, here, rest⟩⟩

structure AllTaken (item : ε → Item) (entries : List ε) (registry later : Registry) : Prop where
  keeps : registry.Keeps later
  has : ∀ subject, later.Has subject ↔
    registry.Has subject ∨ ∃ entry ∈ entries, subject = (item entry).subject
  recorded : ∀ entry ∈ entries, (item entry).Recorded later

theorem allTaken_of_forM
    (done : (entries.forM fun entry => (item entry).declare : Declaring PUnit) registry =
      (.ok (), later)) : AllTaken item entries registry later := by
  induction entries generalizing registry with
  | nil =>
    cases done
    exact ⟨.refl _, by simp, List.forall_mem_nil _⟩
  | cons entry entries ih =>
    obtain ⟨middle, here, rest⟩ := forM_cons_eq_ok.mp done
    have first := Item.taken_of_declared here
    have others := ih rest
    refine ⟨first.keeps.trans others.keeps, fun subject => ?_, ?_⟩
    · rw [others.has, first.has, or_assoc, List.exists_mem_cons_iff]
    · exact List.forall_mem_cons.mpr ⟨first.recorded.mono others.keeps, others.recorded⟩

theorem AllTaken.perm {order : List ε} (taken : AllTaken item order registry later)
    (same : order.Perm entries) : AllTaken item entries registry later := by
  refine ⟨taken.keeps, fun subject => ?_, ?_⟩
  · simp only [taken.has, same.mem_iff]
  · exact fun entry member => taken.recorded entry (same.mem_iff.mpr member)

private theorem AllTaken.keepsOther (taken : AllTaken item entries registry later)
    (again : AllTaken item entries registry other) : later.Keeps other := by
  constructor
  · intro name definition found
    have known : later.Has (.unit name) := Option.isSome_of_mem found
    rcases (taken.has _).mp known with old | ⟨entry, member, same⟩
    · obtain ⟨before, inside⟩ := Option.isSome_iff_exists.mp old
      cases found.symm.trans (taken.keeps.units name before inside)
      exact again.keeps.units name definition inside
    · have here := taken.recorded entry member
      have there := again.recorded entry member
      cases entryItem : item entry with
      | unit declared =>
        rw [entryItem] at here there same
        cases same
        obtain ⟨own, means, inside⟩ := here
        obtain ⟨otherOwn, otherMeans, otherInside⟩ := there
        cases found.symm.trans inside
        rw [otherInside, means.unique otherMeans]
      | type declared =>
        rw [entryItem] at same
        cases same
  · intro name definition found
    have known : later.Has (.type name) := Option.isSome_of_mem found
    rcases (taken.has _).mp known with old | ⟨entry, member, same⟩
    · obtain ⟨before, inside⟩ := Option.isSome_iff_exists.mp old
      cases found.symm.trans (taken.keeps.types name before inside)
      exact again.keeps.types name definition inside
    · have here := taken.recorded entry member
      have there := again.recorded entry member
      cases entryItem : item entry with
      | unit declared =>
        rw [entryItem] at same
        cases same
      | type declared =>
        rw [entryItem] at here there same
        cases same
        cases found.symm.trans here
        exact there

theorem AllTaken.alike (taken : AllTaken item entries registry later)
    (again : AllTaken item entries registry other) : later.Alike other :=
  (taken.keepsOther again).antisymm (again.keepsOther taken)

end Sequences

end SheetTypes
