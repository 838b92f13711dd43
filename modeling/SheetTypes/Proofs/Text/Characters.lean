import SheetTypes.Text.Blank
import SheetTypes.Text.Word

set_option autoImplicit false

namespace SheetTypes.Text

def CodeRange.codes (ranges : List CodeRange) : List Nat :=
  ranges.flatMap fun range => List.range' range.1 (range.2 + 1 - range.1)

theorem CodeRange.mem_codes_of_covers {code : Nat} {ranges : List CodeRange}
    (covered : covers code ranges = true) : code ∈ codes ranges := by
  induction ranges with
  | nil => cases covered
  | cons range rest ih =>
    obtain ⟨first, last⟩ := range
    simp only [codes, List.flatMap_cons, List.mem_append, List.mem_range'_1]
    unfold covers at covered
    split at covered
    next => cases covered
    next =>
      split at covered
      next => exact .inl (by omega)
      next => exact .inr (ih covered)

variable {c : Char}

theorem isDigit_iff : isDigit c = true ↔ 48 ≤ c.toNat ∧ c.toNat ≤ 57 := by
  simp [isDigit, Char.le_def, UInt32.le_iff_toNat_le]

theorem continuesWord_of_isDigit (digit : isDigit c = true) : continuesWord c = true := by
  obtain ⟨lower, upper⟩ := isDigit_iff.mp digit
  have numeric : isNumeric c = true := by
    unfold isNumeric numericRanges CodeRange.covers
    rw [if_neg (by omega), if_pos (by omega)]
  simp [continuesWord, isAlphanumeric, numeric]

theorem continuesWord_of_startsWord (starts : startsWord c = true) : continuesWord c = true := by
  simp only [startsWord, Bool.or_eq_true] at starts
  rcases starts with alphabetic | underscore
  · simp [continuesWord, isAlphanumeric, alphabetic]
  · simp [continuesWord, underscore]

theorem not_startsWord_of_isDigit (digit : isDigit c = true) : startsWord c = false := by
  obtain ⟨lower, upper⟩ := isDigit_iff.mp digit
  have notAlphabetic : isAlphabetic c = false := by
    unfold isAlphabetic alphabeticRanges CodeRange.covers
    rw [if_pos (by omega)]
  have different : c ≠ '_' := by
    rintro rfl
    exact absurd digit (by decide)
  simp [startsWord, notAlphabetic, different]

theorem not_isBlank_of_continuesWord (continues : continuesWord c = true) : isBlank c = false := by
  have apart : ∀ code ∈ CodeRange.codes blankRanges,
      CodeRange.covers code alphabeticRanges = false ∧
        CodeRange.covers code numericRanges = false ∧ code ≠ '_'.toNat := by
    decide +kernel
  refine Bool.eq_false_iff.mpr fun blank => ?_
  obtain ⟨notAlphabetic, notNumeric, notUnderscore⟩ :=
    apart c.toNat (CodeRange.mem_codes_of_covers blank)
  have different : c ≠ '_' := fun same => notUnderscore (congrArg Char.toNat same)
  simp [continuesWord, isAlphanumeric, isAlphabetic, isNumeric, notAlphabetic, notNumeric,
    different] at continues

theorem not_isBlank_of_isDigit (digit : isDigit c = true) : isBlank c = false :=
  not_isBlank_of_continuesWord (continuesWord_of_isDigit digit)

/-- Nothing is cut from a text that neither starts nor ends with a blank. -/
theorem trim_of_ends {chars : List Char} (starts : ∀ c ∈ chars.head?, isBlank c = false)
    (ends : ∀ c ∈ chars.getLast?, isBlank c = false) : trim chars = chars := by
  have keeps {list : List Char} (visible : ∀ c ∈ list.head?, isBlank c = false) :
      list.dropWhile isBlank = list := by
    cases list with
    | nil => rfl
    | cons c list => exact List.dropWhile_cons_of_neg (by simp [visible c rfl])
  rw [trim, trimEnd, trimStart, keeps starts, keeps (by simpa using ends), List.reverse_reverse]

theorem trim_of_visible {chars : List Char} (visible : ∀ c ∈ chars, isBlank c = false) :
    trim chars = chars :=
  trim_of_ends (fun c first => visible c (List.mem_of_head? first)) fun c last =>
    visible c (List.mem_of_getLast? last)

theorem isDigit_of_mem_toDigits {value : Nat} (member : c ∈ Nat.toDigits 10 value) :
    isDigit c = true := by
  have digit : c.isDigit = true := Nat.isDigit_of_mem_toDigits (by decide) (by decide) member
  simpa [Char.isDigit, isDigit, Char.le_def] using digit

theorem ofDigits_toDigits (value : Nat) :
    ofDigits (Nat.toDigits 10 value) = value := by
  refine Eq.trans ?_ Nat.ofDigitChars_ten_toDigits
  unfold ofDigits Nat.ofDigitChars digitValue
  simp only [Nat.mul_comm]

end SheetTypes.Text
