/-!
Finite maps kept as lists of entries in ascending key order, so that equal maps are equal lists.
`find?` is the view of a map: `find?_alter` says what the one updating operation does to it, and
`ext_find?` that the view determines the map.
-/

set_option autoImplicit false

namespace SheetTypes

/-- A finite map whose entries stand in strictly ascending key order. -/
structure OrderedMap (κ β : Type) [Ord κ] where
  entries : List (κ × β)
  ascending : entries.Pairwise (fun left right => compare left.1 right.1 = .lt)

namespace OrderedMap

variable {κ β γ : Type} [Ord κ]

instance [DecidableEq κ] [DecidableEq β] : DecidableEq (OrderedMap κ β) := fun left right =>
  decidable_of_iff (left.entries = right.entries) (by
    cases left
    cases right
    simp)

def empty : OrderedMap κ β := ⟨[], List.Pairwise.nil⟩

instance : Inhabited (OrderedMap κ β) := ⟨empty⟩

def keys (map : OrderedMap κ β) : List κ := map.entries.map Prod.fst

def isEmpty (map : OrderedMap κ β) : Bool := map.entries.isEmpty

def size (map : OrderedMap κ β) : Nat := map.entries.length

def findEntry (key : κ) : List (κ × β) → Option β
  | [] => none
  | (here, value) :: rest =>
      match compare key here with
      | .eq => some value
      | _ => findEntry key rest

def find? (map : OrderedMap κ β) (key : κ) : Option β := findEntry key map.entries

def contains (map : OrderedMap κ β) (key : κ) : Bool := (map.find? key).isSome

def consEntry (key : κ) (value : Option β) (rest : List (κ × β)) : List (κ × β) :=
  match value with
  | none => rest
  | some value => (key, value) :: rest

def alterEntry (key : κ) (change : Option β → Option β) : List (κ × β) → List (κ × β)
  | [] => consEntry key (change none) []
  | (here, value) :: rest =>
      match compare key here with
      | .lt => consEntry key (change none) ((here, value) :: rest)
      | .eq => consEntry here (change (some value)) rest
      | .gt => (here, value) :: alterEntry key change rest

theorem mem_alterEntry {key : κ} {change : Option β → Option β} {entries : List (κ × β)}
    {entry : κ × β} (member : entry ∈ alterEntry key change entries) :
    entry ∈ entries ∨
      (entry.1 = key ∨ ∃ value, (entry.1, value) ∈ entries) ∧ ∃ old, change old = some entry.2 := by
  have front {here : κ} {old : Option β} {rest : List (κ × β)}
      (member : entry ∈ consEntry here (change old) rest) :
      entry ∈ rest ∨ entry.1 = here ∧ ∃ old, change old = some entry.2 := by
    cases made : change old with
    | none =>
        rw [made] at member
        exact .inl member
    | some value =>
        rw [made] at member
        rcases List.mem_cons.mp member with same | later
        · rw [same]
          exact .inr ⟨rfl, old, made⟩
        · exact .inl later
  induction entries with
  | nil =>
      rcases front member with later | ⟨same, made⟩
      · exact .inl later
      · exact .inr ⟨.inl same, made⟩
  | cons head rest ih =>
      obtain ⟨here, value⟩ := head
      simp only [alterEntry] at member
      split at member
      · rcases front member with later | ⟨same, made⟩
        · exact .inl later
        · exact .inr ⟨.inl same, made⟩
      · rcases front member with later | ⟨same, made⟩
        · exact .inl (List.mem_cons_of_mem _ later)
        · exact .inr ⟨.inr ⟨value, same ▸ List.mem_cons_self⟩, made⟩
      · rcases List.mem_cons.mp member with same | later
        · exact .inl (same ▸ List.mem_cons_self)
        · rcases ih later with old | ⟨same | ⟨found, earlier⟩, made⟩
          · exact .inl (List.mem_cons_of_mem _ old)
          · exact .inr ⟨.inl same, made⟩
          · exact .inr ⟨.inr ⟨found, List.mem_cons_of_mem _ earlier⟩, made⟩

theorem alterEntry_ascending [Std.TransOrd κ] (key : κ) (change : Option β → Option β)
    (entries : List (κ × β))
    (ascending : entries.Pairwise (fun left right => compare left.1 right.1 = .lt)) :
    (alterEntry key change entries).Pairwise
      (fun left right => compare left.1 right.1 = .lt) := by
  induction entries with
  | nil =>
      simp only [alterEntry, consEntry]
      split <;> simp
  | cons head rest ih =>
      obtain ⟨here, value⟩ := head
      obtain ⟨before, restAscending⟩ := List.pairwise_cons.mp ascending
      simp only [alterEntry]
      split
      next below =>
        simp only [consEntry]
        split
        · exact ascending
        · refine List.pairwise_cons.mpr ⟨?_, ascending⟩
          intro entry member
          rcases List.mem_cons.mp member with same | later
          · simpa [same] using below
          · exact Std.TransCmp.lt_trans below (before entry later)
      next =>
        simp only [consEntry]
        split
        · exact restAscending
        · exact List.pairwise_cons.mpr ⟨before, restAscending⟩
      next above =>
        refine List.pairwise_cons.mpr ⟨?_, ih restAscending⟩
        intro entry member
        rcases mem_alterEntry member with old | ⟨same | ⟨found, earlier⟩, _⟩
        · exact before entry old
        · rw [same]
          exact Std.OrientedCmp.gt_iff_lt.mp above
        · exact before (entry.1, found) earlier

/-- Replaces the value at a key by a function of it; `none` stands for no entry, before and
after. -/
def alter [Std.TransOrd κ] (map : OrderedMap κ β) (key : κ) (change : Option β → Option β) :
    OrderedMap κ β :=
  ⟨alterEntry key change map.entries, alterEntry_ascending key change map.entries map.ascending⟩

def insert [Std.TransOrd κ] (map : OrderedMap κ β) (key : κ) (value : β) : OrderedMap κ β :=
  map.alter key (fun _ => some value)

def erase [Std.TransOrd κ] (map : OrderedMap κ β) (key : κ) : OrderedMap κ β :=
  map.alter key (fun _ => none)

def ofList [Std.TransOrd κ] (entries : List (κ × β)) : OrderedMap κ β :=
  entries.foldl (fun map entry => map.insert entry.1 entry.2) empty

theorem alterEntry_none_alterEntry [Std.TransOrd κ] (key : κ) (value : β)
    (entries : List (κ × β)) :
    alterEntry key (fun _ => none) (alterEntry key (fun _ => some value) entries) =
      alterEntry key (fun _ => none) entries := by
  induction entries with
  | nil => simp [alterEntry, consEntry]
  | cons head rest ih =>
      obtain ⟨here, old⟩ := head
      cases order : compare key here <;> simp [alterEntry, consEntry, order, ih]

theorem erase_insert [Std.TransOrd κ] (map : OrderedMap κ β) (key : κ) (value : β) :
    (map.insert key value).erase key = map.erase key := by
  unfold erase insert alter
  simp only [alterEntry_none_alterEntry]

def mapValues (map : OrderedMap κ β) (change : β → γ) : OrderedMap κ γ :=
  ⟨map.entries.map fun entry => (entry.1, change entry.2), List.pairwise_map.mpr map.ascending⟩

def traverseEntries (change : β → Option γ) : List (κ × β) → Option (List (κ × γ))
  | [] => some []
  | (key, value) :: rest => do return (key, ← change value) :: (← traverseEntries change rest)

omit [Ord κ] in
theorem traverseEntries_eq_some {change : β → Option γ} {entries : List (κ × β)}
    {made : List (κ × γ)} :
    traverseEntries change entries = some made ↔
      (entries.map fun entry => (entry.1, change entry.2)) =
        made.map fun entry => (entry.1, some entry.2) := by
  induction entries generalizing made with
  | nil => cases made <;> simp [traverseEntries]
  | cons head rest ih =>
      obtain ⟨key, value⟩ := head
      simp only [traverseEntries, List.map_cons]
      cases made with
      | nil => cases change value <;> cases traverseEntries change rest <;> simp
      | cons first others =>
          simp only [List.map_cons, List.cons.injEq, ← ih]
          cases change value <;> cases traverseEntries change rest <;> simp [Prod.ext_iff]

theorem ascending_of_traverseEntries {change : β → Option γ} {map : OrderedMap κ β}
    {made : List (κ × γ)} (done : traverseEntries change map.entries = some made) :
    made.Pairwise (fun left right => compare left.1 right.1 = .lt) := by
  have ascending : (map.entries.map fun entry => (entry.1, change entry.2)).Pairwise
      (fun left right => compare left.1 right.1 = .lt) := List.pairwise_map.mpr map.ascending
  rw [traverseEntries_eq_some.mp done, List.pairwise_map] at ascending
  exact ascending

def traverse (map : OrderedMap κ β) (change : β → Option γ) : Option (OrderedMap κ γ) :=
  (traverseEntries change map.entries).pmap mk fun _ => ascending_of_traverseEntries

theorem traverse_eq_some {change : β → Option γ} {map : OrderedMap κ β} {made : OrderedMap κ γ} :
    map.traverse change = some made ↔
      (map.entries.map fun entry => (entry.1, change entry.2)) =
        made.entries.map fun entry => (entry.1, some entry.2) := by
  rw [← traverseEntries_eq_some, traverse, Option.pmap_eq_some_iff]
  constructor
  · rintro ⟨entries, _, done, rfl⟩
    exact done
  · intro done
    exact ⟨made.entries, made.ascending, done, rfl⟩

@[simp]
theorem find?_empty (key : κ) : (empty : OrderedMap κ β).find? key = none := rfl

private theorem findEntry_none_of_below [Std.TransOrd κ] (key : κ) (entries : List (κ × β))
    (below : ∀ entry ∈ entries, compare key entry.1 = .lt) : findEntry key entries = none := by
  induction entries with
  | nil => rfl
  | cons head rest ih =>
      obtain ⟨here, value⟩ := head
      have headBelow : compare key here = .lt := below (here, value) (List.mem_cons_self ..)
      simp only [findEntry, headBelow]
      exact ih (fun entry member => below entry (List.mem_cons_of_mem _ member))

private theorem findEntry_alterEntry [Std.TransOrd κ] [Std.LawfulEqOrd κ] (key query : κ)
    (change : Option β → Option β) (entries : List (κ × β))
    (ascending : entries.Pairwise (fun left right => compare left.1 right.1 = .lt)) :
    findEntry query (alterEntry key change entries) =
      if compare query key = .eq then change (findEntry key entries)
      else findEntry query entries := by
  induction entries with
  | nil =>
      simp only [alterEntry, consEntry, findEntry]
      cases change none with
      | none => simp [findEntry]
      | some value =>
          cases order : compare query key <;> simp [findEntry, order]
  | cons head rest ih =>
      obtain ⟨here, value⟩ := head
      obtain ⟨before, restAscending⟩ := List.pairwise_cons.mp ascending
      simp only [alterEntry]
      split
      next below =>
        have absent : findEntry key ((here, value) :: rest) = none := by
          apply findEntry_none_of_below
          intro entry member
          rcases List.mem_cons.mp member with same | later
          · simpa [same] using below
          · exact Std.TransCmp.lt_trans below (before entry later)
        rw [absent]
        cases change none with
        | none =>
            simp only [consEntry]
            split
            next same =>
              rw [Std.compare_eq_iff_eq.mp same]
              exact absent
            next => rfl
        | some found =>
            cases order : compare query key <;> simp [consEntry, findEntry, order]
      next same =>
        have sameKey : key = here := Std.compare_eq_iff_eq.mp same
        subst sameKey
        have absent : findEntry key rest = none := findEntry_none_of_below key rest before
        have present : findEntry key ((key, value) :: rest) = some value := by
          simp [findEntry]
        rw [present]
        cases change (some value) with
        | none =>
            simp only [consEntry]
            cases order : compare query key with
            | eq =>
                rw [Std.compare_eq_iff_eq.mp order]
                simpa using absent
            | lt => simp [findEntry, order]
            | gt => simp [findEntry, order]
        | some found =>
            cases order : compare query key <;> simp [consEntry, findEntry, order]
      next above =>
        have different : compare query here = .eq → ¬compare query key = .eq := by
          intro sameHere sameKey
          rw [Std.compare_eq_iff_eq.mp sameHere] at sameKey
          rw [Std.compare_eq_iff_eq.mp sameKey] at above
          simp at above
        have skip : findEntry key ((here, value) :: rest) = findEntry key rest := by
          simp [findEntry, above]
        rw [skip]
        cases order : compare query here with
        | eq => simp [findEntry, order, different order]
        | lt => simp [findEntry, order, ih restAscending]
        | gt => simp [findEntry, order, ih restAscending]

theorem find?_alter [Std.TransOrd κ] [Std.LawfulEqOrd κ] (map : OrderedMap κ β) (key query : κ)
    (change : Option β → Option β) :
    (map.alter key change).find? query =
      if compare query key = .eq then change (map.find? key) else map.find? query :=
  findEntry_alterEntry key query change map.entries map.ascending

theorem find?_mapValues (map : OrderedMap κ β) (change : β → γ) (query : κ) :
    (map.mapValues change).find? query = (map.find? query).map change := by
  have each (entries : List (κ × β)) :
      findEntry query (entries.map fun entry => (entry.1, change entry.2)) =
        (findEntry query entries).map change := by
    induction entries with
    | nil => rfl
    | cons head rest ih =>
        simp only [List.map_cons, findEntry]
        cases compare query head.1 with
        | eq => rfl
        | lt => exact ih
        | gt => exact ih
  exact each map.entries

private theorem entries_ext [Std.TransOrd κ] [Std.LawfulEqOrd κ] (left right : List (κ × β))
    (leftAscending : left.Pairwise (fun first second => compare first.1 second.1 = .lt))
    (rightAscending : right.Pairwise (fun first second => compare first.1 second.1 = .lt))
    (same : ∀ key, findEntry key left = findEntry key right) : left = right := by
  induction left generalizing right with
  | nil =>
      cases right with
      | nil => rfl
      | cons head rest =>
          have found := same head.1
          simp [findEntry] at found
  | cons head rest ih =>
      obtain ⟨here, value⟩ := head
      obtain ⟨before, restAscending⟩ := List.pairwise_cons.mp leftAscending
      cases right with
      | nil =>
          have found := same here
          simp [findEntry] at found
      | cons otherHead otherRest =>
          obtain ⟨there, otherValue⟩ := otherHead
          obtain ⟨otherBefore, otherAscending⟩ := List.pairwise_cons.mp rightAscending
          have notBelow : ¬compare here there = .lt := by
            intro below
            have absent : findEntry here ((there, otherValue) :: otherRest) = none := by
              apply findEntry_none_of_below
              intro entry member
              rcases List.mem_cons.mp member with sameEntry | later
              · simpa [sameEntry] using below
              · exact Std.TransCmp.lt_trans below (otherBefore entry later)
            have found := same here
            rw [absent] at found
            simp [findEntry] at found
          have notAbove : ¬compare there here = .lt := by
            intro below
            have absent : findEntry there ((here, value) :: rest) = none := by
              apply findEntry_none_of_below
              intro entry member
              rcases List.mem_cons.mp member with sameEntry | later
              · simpa [sameEntry] using below
              · exact Std.TransCmp.lt_trans below (before entry later)
            have found := same there
            rw [absent] at found
            simp [findEntry] at found
          have sameKey : here = there := by
            cases order : compare here there with
            | lt => exact absurd order notBelow
            | eq => exact Std.compare_eq_iff_eq.mp order
            | gt => exact absurd (Std.OrientedCmp.gt_iff_lt.mp order) notAbove
          subst sameKey
          have sameValue : value = otherValue := by
            have found := same here
            simpa [findEntry] using found
          subst sameValue
          have sameRest : rest = otherRest := by
            apply ih otherRest restAscending otherAscending
            intro key
            cases order : compare key here with
            | eq =>
                rw [Std.compare_eq_iff_eq.mp order, findEntry_none_of_below here rest before,
                  findEntry_none_of_below here otherRest otherBefore]
            | lt => simpa [findEntry, order] using same key
            | gt => simpa [findEntry, order] using same key
          rw [sameRest]

theorem ext_find? [Std.TransOrd κ] [Std.LawfulEqOrd κ] {left right : OrderedMap κ β}
    (same : ∀ key, left.find? key = right.find? key) : left = right := by
  obtain ⟨leftEntries, leftAscending⟩ := left
  obtain ⟨rightEntries, rightAscending⟩ := right
  have sameEntries : leftEntries = rightEntries :=
    entries_ext leftEntries rightEntries leftAscending rightAscending same
  subst sameEntries
  rfl

end OrderedMap

end SheetTypes
