import Mathlib.Order.Bounds.Basic
import Mathlib.Order.Basic
import SheetTypes.Text.EditDistance

/-!
The edit distance is the least number of edits. Edits change a text one character at a time; an
alignment sets two texts against each other column by column and counts the columns that differ.
Sequences of edits and alignments come to the same numbers, and the rows of the distance table
hold the least cost of an alignment, for every prefix of the one text against every prefix of the
other.
-/

set_option autoImplicit false

namespace SheetTypes.Text

/-- Whether one text becomes another by a single insertion, deletion or substitution. -/
inductive EditedOnce : List Char → List Char → Prop
  | insert (before after : List Char) (c : Char) :
      EditedOnce (before ++ after) (before ++ c :: after)
  | delete (before after : List Char) (c : Char) :
      EditedOnce (before ++ c :: after) (before ++ after)
  | substitute (before after : List Char) (c d : Char) :
      EditedOnce (before ++ c :: after) (before ++ d :: after)

inductive Edited : Nat → List Char → List Char → Prop
  | done (text : List Char) : Edited 0 text text
  | next {count : Nat} {source between target : List Char} (earlier : Edited count source between)
      (last : EditedOnce between target) : Edited (count + 1) source target

variable {cost count further : Nat} {c d : Char} {source between target : List Char}

theorem EditedOnce.cons (c : Char) (once : EditedOnce source target) :
    EditedOnce (c :: source) (c :: target) := by
  cases once with
  | insert before after added => exact .insert (c :: before) after added
  | delete before after removed => exact .delete (c :: before) after removed
  | substitute before after old new => exact .substitute (c :: before) after old new

theorem Edited.cons (c : Char) (edited : Edited count source target) :
    Edited count (c :: source) (c :: target) := by
  induction edited with
  | done text => exact .done (c :: text)
  | next earlier last ih => exact .next ih (last.cons c)

theorem Edited.trans (first : Edited count source between)
    (second : Edited further between target) : Edited (count + further) source target := by
  induction second with
  | done text => exact first
  | next earlier last ih => exact .next (ih first) last

theorem Edited.eq_of_zero (edited : Edited 0 source target) : source = target := by
  cases edited
  rfl

/-- Two texts set against each other from the front, with the number of columns that differ: a
column holds a character of both texts, or a character of one and a gap in the other. -/
inductive Aligned : Nat → List Char → List Char → Prop
  | nil : Aligned 0 [] []
  | keep {cost : Nat} {source target : List Char} (c : Char) (rest : Aligned cost source target) :
      Aligned cost (c :: source) (c :: target)
  | substitute {cost : Nat} {source target : List Char} (c d : Char)
      (rest : Aligned cost source target) : Aligned (cost + 1) (c :: source) (d :: target)
  | insert {cost : Nat} {source target : List Char} (d : Char)
      (rest : Aligned cost source target) : Aligned (cost + 1) source (d :: target)
  | delete {cost : Nat} {source target : List Char} (c : Char)
      (rest : Aligned cost source target) : Aligned (cost + 1) (c :: source) target

namespace Aligned

theorem edited (aligned : Aligned cost source target) : Edited cost source target := by
  induction aligned with
  | nil => exact .done []
  | keep c rest ih => exact ih.cons c
  | substitute c d rest ih => exact .next (ih.cons c) (.substitute [] _ c d)
  | insert d rest ih => exact .next ih (.insert [] _ d)
  | delete c rest ih => exact .next (ih.cons c) (.delete [] _ c)

theorem symm (aligned : Aligned cost source target) : Aligned cost target source := by
  induction aligned with
  | nil => exact .nil
  | keep c rest ih => exact .keep c ih
  | substitute c d rest ih => exact .substitute d c ih
  | insert d rest ih => exact .delete d ih
  | delete c rest ih => exact .insert c ih

theorem append {source' target' : List Char} (front : Aligned cost source target)
    (back : Aligned further source' target') :
    Aligned (further + cost) (source ++ source') (target ++ target') := by
  induction front with
  | nil => exact back
  | keep c rest ih => exact .keep c ih
  | substitute c d rest ih => exact .substitute c d ih
  | insert d rest ih => exact .insert d ih
  | delete c rest ih => exact .delete c ih

theorem reverse (aligned : Aligned cost source target) :
    Aligned cost source.reverse target.reverse := by
  induction aligned with
  | nil => exact .nil
  | keep c rest ih =>
    rw [List.reverse_cons, List.reverse_cons]
    simpa using ih.append (.keep c .nil)
  | substitute c d rest ih =>
    rw [List.reverse_cons, List.reverse_cons, Nat.add_comm]
    exact ih.append (.substitute c d .nil)
  | insert d rest ih =>
    rw [List.reverse_cons, Nat.add_comm]
    simpa using ih.append (.insert d .nil)
  | delete c rest ih =>
    rw [List.reverse_cons, Nat.add_comm]
    simpa using ih.append (.delete c .nil)

theorem refl (text : List Char) : Aligned 0 text text := by
  induction text with
  | nil => exact .nil
  | cons c rest ih => exact .keep c ih

theorem deleteAll (source : List Char) : Aligned source.length source [] := by
  induction source with
  | nil => exact .nil
  | cons c rest ih => exact .delete c ih

theorem length_le (aligned : Aligned cost source target) :
    source.length ≤ cost + target.length := by
  induction aligned with
  | nil => exact Nat.le_refl 0
  | keep c rest ih => simpa [← Nat.add_assoc] using ih
  | substitute c d rest ih => simp only [List.length_cons]; omega
  | insert d rest ih => simp only [List.length_cons]; omega
  | delete c rest ih => simp only [List.length_cons]; omega

/-- An alignment comes apart behind the first character of its second text. -/
theorem cut (aligned : Aligned cost source (d :: target)) :
    ∃ front back former latter, source = front ++ back ∧ cost = latter + former ∧
      Aligned former front [d] ∧ Aligned latter back target := by
  generalize whole : d :: target = texts at aligned
  induction aligned with
  | nil => cases whole
  | keep c rest ih =>
    cases whole
    exact ⟨[d], _, 0, _, rfl, rfl, .keep d .nil, rest⟩
  | substitute c d rest ih =>
    cases whole
    exact ⟨[c], _, 1, _, rfl, rfl, .substitute c d .nil, rest⟩
  | insert d rest ih =>
    cases whole
    exact ⟨[], _, 1, _, rfl, rfl, .insert d .nil, rest⟩
  | delete c rest ih =>
    obtain ⟨front, back, former, latter, rfl, rfl, first, second⟩ := ih whole
    exact ⟨c :: front, back, former + 1, latter, rfl, rfl, .delete c first, second⟩

/-- An alignment comes apart wherever its second text does. -/
theorem split (before : List Char) {after : List Char}
    (aligned : Aligned cost source (before ++ after)) :
    ∃ front back former latter, source = front ++ back ∧ cost = latter + former ∧
      Aligned former front before ∧ Aligned latter back after := by
  induction before generalizing cost source with
  | nil => exact ⟨[], source, 0, cost, rfl, rfl, .nil, aligned⟩
  | cons d before ih =>
    obtain ⟨first, others, here, there, rfl, rfl, head, tail⟩ := aligned.cut
    obtain ⟨front, back, former, latter, rfl, rfl, upper, lower⟩ := ih tail
    exact ⟨first ++ front, back, former + here, latter, (List.append_assoc ..).symm,
      Nat.add_assoc .., head.append upper, lower⟩

/-- What is set against one character can as well be set against another, at the cost of one more
column. -/
theorem exchange (aligned : Aligned cost source [c]) (d : Char) :
    ∃ least ≤ cost + 1, Aligned least source [d] := by
  have short : source.length ≤ cost + 1 := aligned.length_le
  cases source with
  | nil => exact ⟨1, Nat.le_add_left 1 cost, .insert d .nil⟩
  | cons e rest => exact ⟨rest.length + 1, short, .substitute e d (deleteAll rest)⟩

/-- One more edit of the second text costs at most one more column. -/
theorem afterEdit (aligned : Aligned cost source between) (once : EditedOnce between target) :
    ∃ least ≤ cost + 1, Aligned least source target := by
  cases once with
  | insert before after added =>
    obtain ⟨front, back, former, latter, rfl, rfl, first, second⟩ := aligned.split before
    exact ⟨latter + 1 + former, by omega, first.append (.insert added second)⟩
  | delete before after removed =>
    obtain ⟨front, back, former, latter, rfl, rfl, first, second⟩ := aligned.split before
    obtain ⟨gone, rest, here, there, rfl, rfl, column, others⟩ := second.cut
    have short : gone.length ≤ here + 1 := column.length_le
    exact ⟨there + gone.length + former, by omega,
      first.append ((deleteAll gone).append others)⟩
  | substitute before after old new =>
    obtain ⟨front, back, former, latter, rfl, rfl, first, second⟩ := aligned.split before
    obtain ⟨part, rest, here, there, rfl, rfl, column, others⟩ := second.cut
    obtain ⟨least, within, exchanged⟩ := column.exchange new
    exact ⟨there + least + former, by omega, first.append (exchanged.append others)⟩

end Aligned

/-- Edits, however they are spread over the text, come to an alignment that costs no more. -/
theorem Edited.aligned (edited : Edited count source target) :
    ∃ least ≤ count, Aligned least source target := by
  induction edited with
  | done text => exact ⟨0, Nat.le_refl 0, .refl text⟩
  | next earlier last ih =>
    obtain ⟨former, formerLe, aligned⟩ := ih
    obtain ⟨least, leastLe, longer⟩ := aligned.afterEdit last
    exact ⟨least, by omega, longer⟩

def leastCost : List Char → List Char → Nat
  | [], target => target.length
  | source, [] => source.length
  | c :: source, d :: target =>
    min (min (leastCost source (d :: target) + 1) (leastCost (c :: source) target + 1))
      (leastCost source target + if c = d then 0 else 1)
termination_by source target => source.length + target.length

@[simp]
theorem leastCost_nil_left (target : List Char) : leastCost [] target = target.length := by
  rw [leastCost]

@[simp]
theorem leastCost_nil_right (source : List Char) : leastCost source [] = source.length := by
  cases source with
  | nil => rw [leastCost]
  | cons c source => rw [leastCost]; exact List.cons_ne_nil c source

theorem leastCost_cons_cons (c d : Char) (source target : List Char) :
    leastCost (c :: source) (d :: target) =
      min (min (leastCost source (d :: target) + 1) (leastCost (c :: source) target + 1))
        (leastCost source target + if c = d then 0 else 1) := by
  rw [leastCost]

theorem aligned_leastCost (source target : List Char) :
    Aligned (leastCost source target) source target := by
  fun_induction leastCost source target with
  | case1 target => exact (Aligned.deleteAll target).symm
  | case2 source => exact .deleteAll source
  | case3 c source d target ihDelete ihInsert ihBoth =>
    have both : Aligned (leastCost source target + if c = d then 0 else 1)
        (c :: source) (d :: target) := by
      split
      next same =>
        rw [same]
        exact .keep d ihBoth
      next => exact .substitute c d ihBoth
    refine min_rec' (Aligned · (c :: source) (d :: target)) ?_ both
    exact min_rec' (Aligned · (c :: source) (d :: target)) (.delete c ihDelete)
      (.insert d ihInsert)

theorem Aligned.leastCost_le (aligned : Aligned cost source target) :
    leastCost source target ≤ cost := by
  induction aligned with
  | nil => simp
  | keep c rest ih =>
    rw [leastCost_cons_cons, if_pos rfl]
    omega
  | substitute c d rest ih =>
    rw [leastCost_cons_cons]
    split <;> omega
  | @insert cost source target d rest ih =>
    cases source with
    | nil => simpa using ih
    | cons c source =>
      rw [leastCost_cons_cons]
      omega
  | @delete cost source target c rest ih =>
    cases target with
    | nil => simpa using ih
    | cons d target =>
      rw [leastCost_cons_cons]
      omega

theorem leastCost_isLeast (source target : List Char) :
    IsLeast { count | Edited count source target } (leastCost source target) := by
  refine ⟨(aligned_leastCost source target).edited, ?_⟩
  intro count edited
  obtain ⟨least, within, aligned⟩ := Edited.aligned edited
  exact aligned.leastCost_le.trans within

theorem leastCost_comm (source target : List Char) :
    leastCost source target = leastCost target source :=
  Nat.le_antisymm (aligned_leastCost target source).symm.leastCost_le
    (aligned_leastCost source target).symm.leastCost_le

theorem leastCost_reverse (source target : List Char) :
    leastCost source.reverse target.reverse = leastCost source target := by
  refine Nat.le_antisymm (aligned_leastCost source target).reverse.leastCost_le ?_
  have back := (aligned_leastCost source.reverse target.reverse).reverse
  rw [List.reverse_reverse, List.reverse_reverse] at back
  exact back.leastCost_le

/-- A row of the distance table, behind its entry for `seen`: the least costs of setting `source`
against `seen` with more and more of the columns in front of it. Both texts stand backwards, the
character that was read last in front. -/
def costsFrom (source seen : List Char) : List Char → List Nat
  | [] => []
  | column :: columns =>
    leastCost source (column :: seen) :: costsFrom source (column :: seen) columns

def costs (source columns : List Char) : List Nat :=
  leastCost source [] :: costsFrom source [] columns

theorem costsFrom_nil (seen columns : List Char) :
    costsFrom [] seen columns = List.range' (seen.length + 1) columns.length := by
  induction columns generalizing seen with
  | nil => rfl
  | cons column columns ih =>
    rw [costsFrom, ih, leastCost_nil_left, List.length_cons, List.length_cons, List.range'_succ]

theorem costs_nil (columns : List Char) : costs [] columns = List.range (columns.length + 1) := by
  rw [costs, costsFrom_nil, leastCost_nil_left, List.range_eq_range', List.range'_succ]
  rfl

/-- Each entry of a row is computed from its neighbours in the row above and from the entry in
front of it. -/
theorem distanceRow_costsFrom (c : Char) (source seen columns : List Char) :
    distanceRow c columns (leastCost source seen) (costsFrom source seen columns)
        (leastCost (c :: source) seen) =
      costsFrom (c :: source) seen columns := by
  induction columns generalizing seen with
  | nil => rfl
  | cons column columns ih =>
    rw [costsFrom, distanceRow, ← leastCost_cons_cons, ih, costsFrom]

theorem nextDistanceRow_costs (c : Char) (source columns : List Char) :
    nextDistanceRow columns (costs source columns) c = costs (c :: source) columns := by
  have first : leastCost source [] + 1 = leastCost (c :: source) [] := by simp
  rw [costs, nextDistanceRow, first, distanceRow_costsFrom, costs]

theorem foldl_nextDistanceRow (text source columns : List Char) :
    text.foldl (nextDistanceRow columns) (costs source columns) =
      costs (text.reverse ++ source) columns := by
  induction text generalizing source with
  | nil => rfl
  | cons c text ih =>
    rw [List.foldl_cons, nextDistanceRow_costs, ih, List.reverse_cons, List.append_assoc]
    rfl

theorem getLast?_costsFrom (source seen columns : List Char) :
    (leastCost source seen :: costsFrom source seen columns).getLast? =
      some (leastCost source (columns.reverse ++ seen)) := by
  induction columns generalizing seen with
  | nil => rfl
  | cons column columns ih =>
    rw [costsFrom, List.getLast?_cons_cons, ih, List.reverse_cons, List.append_assoc]
    rfl

theorem editDistance_eq (left right : String) :
    editDistance left right = leastCost left.toList right.toList := by
  have rows := foldl_nextDistanceRow left.toList [] right.toList
  rw [costs_nil, List.append_nil] at rows
  unfold editDistance
  dsimp only
  rw [rows, costs, getLast?_costsFrom, List.append_nil, Option.getD_some, leastCost_reverse]

theorem editDistance_isLeast (left right : String) :
    IsLeast { count | Edited count left.toList right.toList } (editDistance left right) := by
  rw [editDistance_eq]
  exact leastCost_isLeast left.toList right.toList

theorem editDistance_eq_zero_iff {left right : String} :
    editDistance left right = 0 ↔ left = right := by
  constructor
  · intro zero
    have edited : Edited (editDistance left right) left.toList right.toList :=
      (editDistance_isLeast left right).1
    rw [zero] at edited
    exact String.toList_inj.mp edited.eq_of_zero
  · rintro rfl
    exact Nat.le_zero.mp ((editDistance_isLeast left left).2 (.done left.toList))

theorem similarNames_perm (target : String) (candidates : List String) (limit : Nat) :
    (similarNames target candidates limit).Perm
      (candidates.filter fun name =>
        1 ≤ editDistance target name ∧ editDistance target name ≤ limit) := by
  unfold similarNames
  refine ((List.mergeSort_perm _ nearer).map Prod.fst).trans (.of_eq ?_)
  rw [List.filter_map, List.map_map]
  simp only [Bool.decide_and]
  exact List.map_id _

/-- The table computes the edit distance, the least number of insertions, deletions and
substitutions of single characters that turn one text into the other. So it is symmetric, tells
texts apart and satisfies the triangle inequality, and the similar names are the candidates at a
distance of at least one and within the limit, each as often as it is given. -/
theorem editDistance_least_edits :
    (∀ left right, IsLeast { count | Edited count left.toList right.toList }
      (editDistance left right)) ∧
    (∀ left right, editDistance left right = editDistance right left) ∧
    (∀ left right, editDistance left right = 0 ↔ left = right) ∧
    (∀ first second third,
      editDistance first third ≤ editDistance first second + editDistance second third) ∧
    ∀ target candidates limit,
      (similarNames target candidates limit).Perm
        (candidates.filter fun name =>
          1 ≤ editDistance target name ∧ editDistance target name ≤ limit) := by
  refine ⟨editDistance_isLeast, ?_, fun left right => editDistance_eq_zero_iff, ?_,
    similarNames_perm⟩
  · intro left right
    rw [editDistance_eq, editDistance_eq, leastCost_comm]
  · intro first second third
    have there := (editDistance_isLeast first second).1
    have further := (editDistance_isLeast second third).1
    exact (editDistance_isLeast first third).2 (Edited.trans there further)

end SheetTypes.Text
