import SheetTypes.OrderedMap

/-!
Integer exponents by key. They keep within a fixed limit on both sides, so that each can be
negated, and zero is never stored. The plain operations stop at the limit; the checked ones refuse
to pass it and then change nothing.
-/

set_option autoImplicit false

namespace SheetTypes

/-- The greatest absolute value of an exponent. -/
def exponentLimit : Int := 2147483647

def WithinLimit (number : Int) : Prop :=
  -exponentLimit ≤ number ∧ number ≤ exponentLimit

instance (number : Int) : Decidable (WithinLimit number) :=
  inferInstanceAs (Decidable (_ ∧ _))

def clampToLimit (number : Int) : Int :=
  if number < -exponentLimit then -exponentLimit
  else if exponentLimit < number then exponentLimit
  else number

theorem clampToLimit_within (number : Int) : WithinLimit (clampToLimit number) := by
  unfold clampToLimit WithinLimit exponentLimit
  split
  · omega
  · split <;> omega

theorem clampToLimit_of_within {number : Int} (within : WithinLimit number) :
    clampToLimit number = number := by
  unfold WithinLimit exponentLimit at within
  unfold clampToLimit exponentLimit
  rw [if_neg (by omega), if_neg (by omega)]

theorem clampToLimit_eq_zero_iff (number : Int) : clampToLimit number = 0 ↔ number = 0 := by
  unfold clampToLimit exponentLimit
  split
  · omega
  · split <;> omega

def narrow? (number : Int) : Option Int :=
  if -2147483648 ≤ number ∧ number ≤ 2147483647 then some number else none

def checkedExponent (number : Int) : Option Int :=
  (narrow? number).filter fun narrow => narrow.natAbs ≤ exponentLimit.natAbs

theorem checkedExponent_eq (number : Int) :
    checkedExponent number = if WithinLimit number then some number else none := by
  have limit : exponentLimit.natAbs = 2147483647 := rfl
  have within_iff : WithinLimit number ↔ -2147483647 ≤ number ∧ number ≤ 2147483647 := Iff.rfl
  unfold checkedExponent narrow?
  rw [limit]
  by_cases within : WithinLimit number
  · have bounds := within_iff.mp within
    have small : number.natAbs ≤ 2147483647 := by omega
    rw [if_pos within, if_pos (by omega)]
    simp [Option.filter, small]
  · rw [within_iff] at within
    rw [if_neg (mt within_iff.mp within)]
    split
    · have large : ¬number.natAbs ≤ 2147483647 := by omega
      simp [Option.filter, large]
    · rfl

theorem checkedExponent_eq_some {number made : Int} :
    checkedExponent number = some made ↔ WithinLimit number ∧ clampToLimit number = made := by
  rw [checkedExponent_eq]
  split
  next within => simp [within, clampToLimit_of_within within]
  next beyond => simp [beyond]

/-- Exponents by key; a key that does not occur has exponent zero. -/
structure Powers (κ : Type) [Ord κ] where
  exponents : OrderedMap κ Int
deriving DecidableEq

namespace Powers

variable {κ : Type} [Ord κ]

def empty : Powers κ := ⟨.empty⟩

def exponent (powers : Powers κ) (key : κ) : Int := (powers.exponents.find? key).getD 0

def contains (powers : Powers κ) (key : κ) : Bool := powers.exponents.contains key

def isEmpty (powers : Powers κ) : Bool := powers.exponents.isEmpty

def size (powers : Powers κ) : Nat := powers.exponents.size

def keys (powers : Powers κ) : List κ := powers.exponents.keys

def toList (powers : Powers κ) : List (κ × Int) := powers.exponents.entries

def raise (powers : Powers κ) (number : Int) : Powers κ :=
  if number = 0 then empty
  else ⟨powers.exponents.mapValues fun exponent => clampToLimit (exponent * number)⟩

def checkedRaise (powers : Powers κ) (number : Int) : Option (Powers κ) :=
  if number = 0 then some empty
  else (powers.exponents.traverse fun exponent => checkedExponent (exponent * number)).map mk

section Operations

variable [Std.TransOrd κ]

def add (powers : Powers κ) (key : κ) (number : Int) : Powers κ :=
  let sum := clampToLimit (powers.exponent key + number)
  let entered := powers.exponents.insert key sum
  ⟨if sum = 0 then entered.erase key else entered⟩

/-- Adds to the exponent of a key, and tells whether it did. -/
def checkedAdd (powers : Powers κ) (key : κ) (number : Int) : Option Unit × Powers κ :=
  match checkedExponent (powers.exponent key + number) with
  | none => (none, powers)
  | some sum =>
      (some (), ⟨if sum = 0 then powers.exponents.erase key else powers.exponents.insert key sum⟩)

def remove (powers : Powers κ) (key : κ) : Int × Powers κ :=
  (powers.exponent key, ⟨powers.exponents.erase key⟩)

def single (key : κ) (number : Int) : Powers κ := empty.add key number

def addAll (powers : Powers κ) (list : List (κ × Int)) : Powers κ :=
  list.foldl (fun powers power => powers.add power.1 power.2) powers

def collect (list : List (κ × Int)) : Powers κ := empty.addAll list

def multiply (left right : Powers κ) : Powers κ := left.addAll right.toList

def checkedAddAll : Powers κ → List (κ × Int) → Option (Powers κ)
  | powers, [] => some powers
  | powers, power :: list =>
      match powers.checkedAdd power.1 power.2 with
      | (none, _) => none
      | (some _, grown) => grown.checkedAddAll list

def checkedMultiply (left right : Powers κ) : Option (Powers κ) := left.checkedAddAll right.toList

end Operations

theorem checkedRaise_eq (powers : Powers κ) (number : Int) :
    powers.checkedRaise number =
      if ∀ power ∈ powers.toList, WithinLimit (power.2 * number) then some (powers.raise number)
      else none := by
  unfold checkedRaise raise
  by_cases zero : number = 0
  · have within : WithinLimit 0 := by decide
    simp [zero, within]
  rw [if_neg zero, if_neg zero]
  split
  next within =>
    refine Option.map_eq_some_iff.mpr ⟨_, OrderedMap.traverse_eq_some.mpr ?_, rfl⟩
    rw [OrderedMap.mapValues, List.map_map]
    refine List.map_congr_left fun power member => ?_
    exact congrArg _ (checkedExponent_eq_some.mpr ⟨within power member, rfl⟩)
  next beyond =>
    refine Option.map_eq_none_iff.mpr (Option.eq_none_iff_forall_ne_some.mpr fun made done => ?_)
    refine beyond fun power member => ?_
    have image : (power.1, checkedExponent (power.2 * number)) ∈
        made.entries.map fun entry => (entry.1, some entry.2) := by
      rw [← OrderedMap.traverse_eq_some.mp done]
      exact List.mem_map.mpr ⟨power, member, rfl⟩
    obtain ⟨_, _, same⟩ := List.mem_map.mp image
    exact (checkedExponent_eq_some.mp (congrArg Prod.snd same).symm).1

section Agreement

variable [Std.TransOrd κ] {left right result : Powers κ}

theorem add_eq (powers : Powers κ) (key : κ) (number : Int) :
    powers.add key number =
      let sum := clampToLimit (powers.exponent key + number)
      ⟨if sum = 0 then powers.exponents.erase key else powers.exponents.insert key sum⟩ := by
  unfold add
  simp only [OrderedMap.erase_insert]

theorem checkedAdd_eq (powers : Powers κ) (key : κ) (number : Int) :
    powers.checkedAdd key number =
      if WithinLimit (powers.exponent key + number) then (some (), powers.add key number)
      else (none, powers) := by
  unfold checkedAdd
  rw [checkedExponent_eq]
  by_cases within : WithinLimit (powers.exponent key + number)
  · simp only [if_pos within]
    rw [add_eq, clampToLimit_of_within within]
  · simp only [if_neg within]

theorem checkedAddAll_cons (powers : Powers κ) (power : κ × Int) (list : List (κ × Int)) :
    powers.checkedAddAll (power :: list) =
      if WithinLimit (powers.exponent power.1 + power.2) then
        (powers.add power.1 power.2).checkedAddAll list
      else none := by
  rw [checkedAddAll, checkedAdd_eq]
  by_cases within : WithinLimit (powers.exponent power.1 + power.2)
  · rw [if_pos within, if_pos within]
  · rw [if_neg within, if_neg within]

theorem eq_of_checkedAddAll {powers : Powers κ} {list : List (κ × Int)}
    (done : powers.checkedAddAll list = some result) : result = powers.addAll list := by
  induction list generalizing powers with
  | nil => exact (Option.some.inj done).symm
  | cons power list ih =>
      rw [checkedAddAll_cons, Option.ite_none_right_eq_some] at done
      exact ih done.2

end Agreement

/-- What is stored is not zero, and within the limit. -/
def Normal (powers : Powers κ) : Prop :=
  ∀ power ∈ powers.toList, power.2 ≠ 0 ∧ WithinLimit power.2

theorem normal_empty : (empty : Powers κ).Normal := List.forall_mem_nil _

namespace Normal

variable {powers left right result : Powers κ} {number : Int}

theorem raise (normal : powers.Normal) (number : Int) : (powers.raise number).Normal := by
  unfold Powers.raise
  split
  · exact normal_empty
  next nonzero =>
    intro power member
    obtain ⟨old, inside, rfl⟩ := List.mem_map.mp member
    refine ⟨fun same => ?_, clampToLimit_within _⟩
    rcases Int.mul_eq_zero.mp ((clampToLimit_eq_zero_iff _).mp same) with zero | zero
    · exact (normal old inside).1 zero
    · exact nonzero zero

theorem checkedRaise (normal : powers.Normal) (done : powers.checkedRaise number = some result) :
    result.Normal := by
  rw [checkedRaise_eq] at done
  split at done
  · cases done
    exact normal.raise number
  · cases done

variable [Std.TransOrd κ]

theorem insert (normal : powers.Normal) (key : κ) (nonzero : number ≠ 0)
    (within : WithinLimit number) : Normal ⟨powers.exponents.insert key number⟩ := by
  intro power member
  rcases OrderedMap.mem_alterEntry member with old | ⟨_, _, made⟩
  · exact normal power old
  · cases made
    exact ⟨nonzero, within⟩

theorem remove (normal : powers.Normal) (key : κ) : (powers.remove key).2.Normal := by
  intro power member
  rcases OrderedMap.mem_alterEntry member with old | ⟨_, _, made⟩
  · exact normal power old
  · cases made

theorem add (normal : powers.Normal) (key : κ) (number : Int) :
    (powers.add key number).Normal := by
  rw [add_eq]
  dsimp only
  split
  · exact normal.remove key
  next nonzero => exact normal.insert key nonzero (clampToLimit_within _)

theorem checkedAdd (normal : powers.Normal) (key : κ) (number : Int) :
    (powers.checkedAdd key number).2.Normal := by
  rw [checkedAdd_eq]
  split
  · exact normal.add key number
  · exact normal

theorem addAll (normal : powers.Normal) (list : List (κ × Int)) : (powers.addAll list).Normal := by
  induction list generalizing powers with
  | nil => exact normal
  | cons power list ih => exact ih (normal.add power.1 power.2)

theorem checkedMultiply (normal : left.Normal) (done : left.checkedMultiply right = some result) :
    result.Normal := by
  rw [eq_of_checkedAddAll done]
  exact normal.addAll right.toList

end Normal

end Powers

end SheetTypes
