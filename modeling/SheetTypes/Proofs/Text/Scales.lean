import Mathlib.Algebra.Order.Field.Rat
import Mathlib.Data.List.TakeWhile
import Mathlib.Data.Rat.Lemmas
import Mathlib.Tactic.FieldSimp
import Mathlib.Tactic.Ring
import SheetTypes.Proofs.Text.Characters
import SheetTypes.Scale

/-!
Reading scales. The text of a positive rational is read as that rational, and a decimal as the sum
of its digits, each with the weight of its place. Reading divides by the denominator of a fraction
and by the power of ten of a decimal; neither is ever zero.
-/

set_option autoImplicit false

namespace SheetTypes

namespace Scale

variable {chars front back : List Char}

def wholeValue : List Char → ℚ
  | [] => 0
  | c :: digits => Text.digitValue c * 10 ^ digits.length + wholeValue digits

def fractionValue : List Char → ℚ
  | [] => 0
  | c :: digits => (Text.digitValue c + fractionValue digits) / 10

def decimalValue (whole fraction : List Char) : ℚ := wholeValue whole + fractionValue fraction

theorem foldl_digits (number : Nat) (digits : List Char) :
    ((digits.foldl (fun number c => number * 10 + Text.digitValue c) number : Nat) : ℚ) =
      number * 10 ^ digits.length + wholeValue digits := by
  induction digits generalizing number with
  | nil => simp [wholeValue]
  | cons c digits ih =>
    rw [List.foldl_cons, ih, wholeValue, List.length_cons]
    push_cast
    ring

theorem ofDigits_eq (digits : List Char) : (Text.ofDigits digits : ℚ) = wholeValue digits := by
  rw [Text.ofDigits, foldl_digits, Nat.cast_zero, zero_mul, zero_add]

theorem wholeValue_append (front back : List Char) :
    wholeValue (front ++ back) = wholeValue front * 10 ^ back.length + wholeValue back := by
  induction front with
  | nil => simp [wholeValue]
  | cons c front ih =>
    rw [List.cons_append, wholeValue, wholeValue, ih, List.length_append]
    ring

theorem fractionValue_eq (digits : List Char) :
    fractionValue digits = wholeValue digits / 10 ^ digits.length := by
  induction digits with
  | nil => simp [fractionValue, wholeValue]
  | cons c digits ih =>
    rw [fractionValue, wholeValue, ih, List.length_cons]
    field_simp
    ring

/-- Reading all digits as one number and dividing by the power of ten gives the decimal. -/
theorem decimalValue_eq (whole fraction : List Char) :
    decimalValue whole fraction =
      (Text.ofDigits (whole ++ fraction) : ℚ) / 10 ^ fraction.length := by
  rw [decimalValue, ofDigits_eq, wholeValue_append, fractionValue_eq]
  field_simp

theorem decimalValue_nonneg (whole fraction : List Char) : 0 ≤ decimalValue whole fraction := by
  rw [decimalValue_eq]
  exact div_nonneg (Nat.cast_nonneg _) (pow_nonneg (by decide) _)

theorem parseDigits_of_digits (present : chars ≠ [])
    (digits : ∀ c ∈ chars, Text.isDigit c = true) :
    parseDigits chars = some (Text.ofDigits chars) := by
  have all : (chars.all fun c => Text.isDigit c || c == '_') = true :=
    List.all_eq_true.mpr fun c member => by rw [digits c member, Bool.true_or]
  have kept : chars.filter Text.isDigit = chars := List.filter_eq_self.mpr digits
  unfold parseDigits
  split
  next => exact absurd rfl present
  next rest => exact absurd (digits '_' List.mem_cons_self) (by decide)
  next => rw [if_pos all, kept]

theorem parseInteger_of_digits (present : chars ≠ [])
    (digits : ∀ c ∈ chars, Text.isDigit c = true) :
    parseInteger chars = some (Text.ofDigits chars : Int) := by
  unfold parseInteger
  split
  next rest => exact absurd (digits '-' List.mem_cons_self) (by decide)
  next rest => exact absurd (digits '+' List.mem_cons_self) (by decide)
  next =>
    rw [parseDigits_of_digits present digits]
    rfl

theorem parseInteger_toString (number : Nat) :
    parseInteger (toString number).toList = some (number : Int) := by
  rw [Nat.toString_eq_ofList_toDigits, String.toList_ofList,
    parseInteger_of_digits Nat.toDigits_ne_nil fun c => Text.isDigit_of_mem_toDigits,
    Text.ofDigits_toDigits]

theorem isDigit_of_mem_toString {number : Nat} {c : Char}
    (member : c ∈ (toString number).toList) : Text.isDigit c = true := by
  rw [Nat.toString_eq_ofList_toDigits, String.toList_ofList] at member
  exact Text.isDigit_of_mem_toDigits member

theorem splitOnce_of_not_mem {separator : Char} (absent : separator ∉ chars) :
    splitOnce separator chars = none := by
  have nothing : chars.dropWhile (· != separator) = [] := by
    refine List.dropWhile_eq_nil_iff.mpr fun c member => ?_
    exact bne_iff_ne.mpr fun same => absent (same ▸ member)
  rw [splitOnce, nothing]

theorem splitOnce_append {separator : Char} (back : List Char)
    (absent : separator ∉ front) :
    splitOnce separator (front ++ separator :: back) = some (front, back) := by
  have passed : ∀ c ∈ front, (c != separator) = true := fun c member =>
    bne_iff_ne.mpr fun same => absent (same ▸ member)
  simp [splitOnce, List.dropWhile_append_of_pos passed, List.takeWhile_append_of_pos passed]

theorem not_mem_of_digits (digits : ∀ c ∈ chars, Text.isDigit c = true) {separator : Char}
    (other : Text.isDigit separator = false) : separator ∉ chars := by
  intro member
  rw [digits separator member] at other
  cases other

theorem parseRatio_integer (number : Nat) :
    parseRatio (toString number).toList = some ((number : Int), 1) := by
  have digits : ∀ c ∈ (toString number).toList, Text.isDigit c = true :=
    fun c => isDigit_of_mem_toString
  rw [parseRatio, splitOnce_of_not_mem (not_mem_of_digits digits rfl),
    splitOnce_of_not_mem (not_mem_of_digits digits rfl), parseInteger_toString]
  rfl

theorem parseRatio_fraction (numerator : Nat) {denominator : Nat} (nonzero : denominator ≠ 0) :
    parseRatio ((toString numerator).toList ++ '/' :: (toString denominator).toList) =
      some ((numerator : Int), (denominator : Int)) := by
  have trimmed (number : Nat) : Text.trim (toString number).toList = (toString number).toList :=
    Text.trim_of_visible fun c member =>
      Text.not_isBlank_of_isDigit (isDigit_of_mem_toString member)
  have absent : '/' ∉ (toString numerator).toList :=
    not_mem_of_digits (fun c => isDigit_of_mem_toString) rfl
  have divides : ¬(denominator : Int) = 0 := by omega
  rw [parseRatio, splitOnce_append _ absent]
  dsimp only
  rw [trimmed, trimmed, parseInteger_toString, parseInteger_toString]
  exact if_neg divides

theorem parseRatio_decimal (whole : ∀ c ∈ front, Text.isDigit c = true)
    (fraction : ∀ c ∈ back, Text.isDigit c = true) (present : back ≠ []) :
    parseRatio (front ++ '.' :: back) =
      some ((Text.ofDigits (front ++ back) : Int), 10 ^ back.length) := by
  have digits : ∀ c ∈ front ++ back, Text.isDigit c = true := fun c member =>
    (List.mem_append.mp member).elim (whole c) (fraction c)
  have noSlash : '/' ∉ front ++ '.' :: back := by
    have outside : '/' ∉ front ++ back := not_mem_of_digits digits rfl
    simpa using outside
  have noPoint : '.' ∉ front := not_mem_of_digits whole rfl
  have readable : ¬(back.isEmpty || !back.all Text.isDigit) = true := by
    simpa [List.isEmpty_iff, present] using fraction
  rw [parseRatio, splitOnce_of_not_mem noSlash, splitOnce_append _ noPoint]
  dsimp only
  rw [if_neg readable, parseInteger_of_digits (by simp [present]) digits]
  rfl

theorem parseRatio_nonzero {numerator denominator : Int}
    (read : parseRatio chars = some (numerator, denominator)) : denominator ≠ 0 := by
  unfold parseRatio at read
  split at read
  next =>
    obtain ⟨above, _, rest⟩ := Option.bind_eq_some_iff.mp read
    obtain ⟨below, _, last⟩ := Option.bind_eq_some_iff.mp rest
    split at last
    next => cases last
    next nonzero =>
      cases last
      exact nonzero
  next =>
    split at read
    next whole fraction _ =>
      split at read
      next => cases read
      next =>
        obtain ⟨digits, _, last⟩ := Option.bind_eq_some_iff.mp read
        cases last
        exact pow_ne_zero fraction.length (by decide : (10 : Int) ≠ 0)
    next =>
      obtain ⟨number, _, last⟩ := Option.bind_eq_some_iff.mp read
      cases last
      decide

theorem parse_eq (text : String) :
    parse text =
      ((parseRatio (Text.trim text.toList)).map fun ratio => Rat.divInt ratio.1 ratio.2).filter
        (0 < ·) := by
  unfold parse
  cases parseRatio (Text.trim text.toList) <;> simp [Option.filter]

theorem parse_of_visible {text : String} {ratio : Int × Int}
    (visible : ∀ c ∈ text.toList, Text.isBlank c = false)
    (read : parseRatio text.toList = some ratio) :
    parse text = (some (Rat.divInt ratio.1 ratio.2)).filter (0 < ·) := by
  rw [parse_eq, Text.trim_of_visible visible, read, Option.map_some]

theorem parse_render {scale : Scale} (positive : 0 < scale) : parse scale.render = some scale := by
  obtain ⟨number, numerator⟩ := Int.eq_ofNat_of_zero_le (Rat.num_nonneg.mpr positive.le)
  have spelled : toString scale.num = toString number := by
    rw [numerator]
    rfl
  have visible (number : Nat) (c : Char) (member : c ∈ (toString number).toList) :
      Text.isBlank c = false :=
    Text.not_isBlank_of_isDigit (isDigit_of_mem_toString member)
  have read : parseRatio scale.render.toList = some (scale.num, (scale.den : Int)) ∧
      ∀ c ∈ scale.render.toList, Text.isBlank c = false := by
    unfold render
    rw [spelled, numerator]
    split
    next whole =>
      rw [whole]
      exact ⟨parseRatio_integer number, visible number⟩
    next =>
      rw [String.append_assoc, String.toList_append, String.toList_append]
      refine ⟨parseRatio_fraction number scale.den_nz, fun c member => ?_⟩
      rcases List.mem_append.mp member with above | below
      · exact visible number c above
      · rcases List.mem_cons.mp below with rfl | inside
        · rfl
        · exact visible scale.den c inside
  rw [parse_of_visible read.2 read.1, Rat.num_divInt_den]
  simp [Option.filter, positive]

theorem parse_decimal (whole : ∀ c ∈ front, Text.isDigit c = true)
    (fraction : ∀ c ∈ back, Text.isDigit c = true) (present : back ≠ []) :
    parse (String.ofList (front ++ '.' :: back)) =
      (some (decimalValue front back)).filter (0 < ·) := by
  have visible : ∀ c ∈ (String.ofList (front ++ '.' :: back)).toList, Text.isBlank c = false := by
    intro c member
    rw [String.toList_ofList, List.mem_append, List.mem_cons] at member
    rcases member with inside | rfl | inside
    · exact Text.not_isBlank_of_isDigit (whole c inside)
    · rfl
    · exact Text.not_isBlank_of_isDigit (fraction c inside)
  have read : parseRatio (String.ofList (front ++ '.' :: back)).toList =
      some ((Text.ofDigits (front ++ back) : Int), 10 ^ back.length) := by
    rw [String.toList_ofList]
    exact parseRatio_decimal whole fraction present
  rw [parse_of_visible visible read, Rat.divInt_eq_div, decimalValue_eq]
  push_cast
  rfl

/-- Reading scales is exact: the text of a positive rational is read as that rational, and a decimal
as its value, unless it is zero. Whatever the text, a scale that is read is positive, and the
division that it comes from has a divisor other than zero. -/
theorem parse_exact :
    (∀ scale : Scale, 0 < scale → parse scale.render = some scale) ∧
    (∀ whole fraction : List Char, (∀ c ∈ whole, Text.isDigit c = true) →
      (∀ c ∈ fraction, Text.isDigit c = true) → fraction ≠ [] →
      parse (String.ofList (whole ++ '.' :: fraction)) =
        if decimalValue whole fraction = 0 then none else some (decimalValue whole fraction)) ∧
    (∀ text scale, parse text = some scale → 0 < scale ∧
      ∃ numerator denominator,
        parseRatio (Text.trim text.toList) = some (numerator, denominator) ∧
          scale = Rat.divInt numerator denominator) ∧
    ∀ chars numerator denominator,
      parseRatio chars = some (numerator, denominator) → denominator ≠ 0 := by
  refine ⟨fun scale => parse_render, ?_, ?_, fun chars numerator denominator => parseRatio_nonzero⟩
  · intro whole fraction wholeDigits fractionDigits present
    rw [parse_decimal wholeDigits fractionDigits present]
    rcases (decimalValue_nonneg whole fraction).eq_or_lt with zero | positive
    · simp [Option.filter, ← zero]
    · simp [Option.filter, positive, positive.ne']
  · intro text scale read
    rw [parse_eq, Option.filter_eq_some_iff, Option.map_eq_some_iff] at read
    obtain ⟨⟨ratio, found, rfl⟩, positive⟩ := read
    exact ⟨of_decide_eq_true positive, ratio.1, ratio.2, found, rfl⟩

/-- A fraction in lowest terms, a decimal without digits in front of the point, one with nothing but
zeros, and a fraction with two signs. -/
theorem parse_exact_forms :
    parse (render (Rat.divInt 381 1250)) = some (Rat.divInt 381 1250) ∧
      parse ".0625" = some (Rat.divInt 1 16) ∧ parse "00.000" = none ∧
      parse "-3/-4" = some (Rat.divInt 3 4) ∧ 0 < Rat.divInt 3 4 := by
  obtain ⟨rendered, decimals, positive, _⟩ := parse_exact
  have signed : parse "-3/-4" = some (Rat.divInt 3 4) := by decide +kernel
  have small := decimals [] ['0', '6', '2', '5'] (List.forall_mem_nil _)
    (List.all_eq_true.mp (by decide)) (by decide)
  have zeros := decimals ['0', '0'] ['0', '0', '0'] (List.all_eq_true.mp (by decide))
    (List.all_eq_true.mp (by decide)) (by decide)
  exact ⟨rendered _ (by decide +kernel), small.trans (by decide +kernel),
    zeros.trans (by decide +kernel), signed, (positive _ _ signed).1⟩

end Scale

end SheetTypes
