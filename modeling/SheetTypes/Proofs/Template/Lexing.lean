import SheetTypes.Proofs.Actions
import SheetTypes.Proofs.Text.Characters
import SheetTypes.Template.Token
import SheetTypes.Text.Quoted

/-!
How characters are read as tokens. A text is taken apart from its front: each kind of token has a
rule that says which characters stand for it and what may follow them. In the other direction, a
word that is read is one.
-/

set_option autoImplicit false

namespace SheetTypes

namespace Text

/-- What a quoted text is read as: itself. -/
theorem readQuoted_escapeQuotes (content rest : List Char) :
    Token.readQuoted (escapeQuotes content ++ '"' :: rest) = .ok (content, rest) := by
  induction content with
  | nil => rfl
  | cons c content ih =>
    unfold escapeQuotes
    split
    next =>
      rw [List.cons_append, List.cons_append, Token.readQuoted]
      exact except_bind_eq_ok.mpr ⟨_, ih, rfl⟩
    next plain =>
      rw [not_or] at plain
      rw [List.cons_append, Token.readQuoted]
      · exact except_bind_eq_ok.mpr ⟨_, ih, rfl⟩
      · exact plain.1
      · exact fun same _ => plain.2 same
      · exact fun _ _ same _ => plain.2 same

end Text

namespace Token

def Lexes (chars : List Char) (tokens : List Token) : Prop :=
  ∀ stop steps, chars.length ≤ steps →
    ∃ located, readFrom stop steps chars = .ok located ∧
      located.map LocatedToken.token = tokens

variable {c : Char} {chars : List Char} {stop : Nat} {text : String}

theorem readAll_of_lexes {tokens : List Token} (lexes : Lexes text.toList tokens) :
    ∃ located, readAll text = .ok located ∧ located.map LocatedToken.token = tokens :=
  lexes _ _ (Nat.le_refl _)

def Apart (chars : List Char) : Prop := ∀ c ∈ chars.head?, Text.continuesWord c = false

theorem Apart.nil : Apart [] := by simp [Apart]

theorem Apart.cons (chars : List Char) (other : Text.continuesWord c = false) :
    Apart (c :: chars) := by
  simpa [Apart] using other

variable {tokens : List Token} {rest : List Char}

theorem Lexes.nil : Lexes [] [] := by
  intro stop steps _
  cases steps with
  | zero => exact ⟨[], rfl, rfl⟩
  | succ steps => exact ⟨[], rfl, rfl⟩

theorem Lexes.blank (blank : Text.isBlank c = true) (lexes : Lexes rest tokens) :
    Lexes (c :: rest) tokens := by
  intro stop steps enough
  rw [List.length_cons] at enough
  obtain ⟨fewer, rfl⟩ : ∃ fewer, steps = fewer + 1 := ⟨steps - 1, by omega⟩
  unfold readFrom
  rw [if_pos blank]
  exact lexes stop fewer (by omega)

theorem Lexes.token {token : Token} (visible : Text.isBlank c = false)
    (read : ∀ stop offset, readOne stop offset c chars = .ok (token, rest))
    (shorter : rest.length ≤ chars.length) (lexes : Lexes rest tokens) :
    Lexes (c :: chars) (token :: tokens) := by
  intro stop steps enough
  rw [List.length_cons] at enough
  obtain ⟨fewer, rfl⟩ : ∃ fewer, steps = fewer + 1 := ⟨steps - 1, by omega⟩
  obtain ⟨located, found, same⟩ := lexes stop fewer (by omega)
  unfold readFrom
  rw [if_neg (by simp [visible])]
  refine ⟨_, except_bind_eq_ok.mpr ⟨_, read stop _, except_bind_eq_ok.mpr ⟨_, found, rfl⟩⟩, ?_⟩
  rw [List.map_cons, same]

theorem Lexes.sign {mark : Symbol} (sign : Symbol.ofChar? c = some mark)
    (lexes : Lexes rest tokens) : Lexes (c :: rest) (.symbol mark :: tokens) := by
  have visible : Text.isBlank c = false := by
    unfold Symbol.ofChar? at sign
    split at sign <;> first | decide | cases sign
  refine Lexes.token visible (fun stop offset => ?_) (Nat.le_refl _) lexes
  unfold readOne
  rw [sign]

theorem Lexes.arrow (lexes : Lexes rest tokens) :
    Lexes ('-' :: '>' :: rest) (.symbol .arrow :: tokens) :=
  Lexes.token (by decide) (fun _ _ => rfl) (by simp) lexes

theorem Lexes.quoted (text : String) (lexes : Lexes rest tokens) :
    Lexes ((Text.quoted text).toList ++ rest) (.quoted text :: tokens) := by
  have spelled : (Text.quoted text).toList ++ rest =
      '"' :: (Text.escapeQuotes text.toList ++ '"' :: rest) := by
    simp [Text.quoted]
  rw [spelled]
  refine Lexes.token (by decide) (fun stop offset => ?_) (by simp; omega) lexes
  have found := Text.readQuoted_escapeQuotes text.toList rest
  simp [readOne, Symbol.ofChar?, found]

private theorem takeWhile_word {word : List Char} {holds : Char → Bool}
    (all : ∀ c ∈ word, holds c = true) (ends : ∀ c ∈ rest.head?, holds c = false) :
    (word ++ rest).takeWhile holds = word ∧ (word ++ rest).dropWhile holds = rest := by
  rw [List.takeWhile_append_of_pos all, List.dropWhile_append_of_pos all]
  cases rest with
  | nil => simp
  | cons c rest => simp [ends c (by simp)]

theorem Lexes.marker {name : String} (some : name ≠ "")
    (all : ∀ c ∈ name.toList, Text.continuesWord c = true) (apart : Apart rest)
    (lexes : Lexes rest tokens) :
    Lexes ('@' :: name.toList ++ rest) (.marker name :: tokens) := by
  obtain ⟨taken, dropped⟩ := takeWhile_word all apart
  rw [List.cons_append]
  refine Lexes.token (by decide) (fun stop offset => ?_) (by simp) lexes
  simp [readOne, Symbol.ofChar?, taken, dropped, some]

/-- Letters, underscores and digits have no meaning of their own. -/
theorem readOne_of_plain (stop offset : Nat) (chars : List Char)
    (plain : Text.startsWord c = true ∨ Text.isDigit c = true) :
    readOne stop offset c chars =
      if Text.isDigit c then
        if Text.ofDigits (c :: chars.takeWhile Text.isDigit) ≤ integerLimit then
          .ok (.integer (Text.ofDigits (c :: chars.takeWhile Text.isDigit)),
            chars.dropWhile Text.isDigit)
        else
          .error ⟨offset, .integerTooLarge (String.ofList (c :: chars.takeWhile Text.isDigit))⟩
      else
        .ok (.word (String.ofList (c :: chars.takeWhile Text.continuesWord)),
          chars.dropWhile Text.continuesWord) := by
  have differs {special : Char} (notStart : Text.startsWord special = false)
      (notDigit : Text.isDigit special = false) : c ≠ special := by
    rintro rfl
    simp [notStart, notDigit] at plain
  have noSymbol : Symbol.ofChar? c = none := by
    unfold Symbol.ofChar?
    split
    case h_12 => rfl
    all_goals exact absurd rfl (differs (by decide) (by decide))
  unfold readOne
  rw [noSymbol]
  dsimp only
  rw [if_neg (differs (by decide) (by decide)), if_neg (differs (by decide) (by decide)),
    if_neg (differs (by decide) (by decide))]
  split
  next => rfl
  next notDigit => rw [if_pos (plain.resolve_right notDigit)]

theorem Lexes.word (isWord : Text.isWord text = true) (apart : Apart rest)
    (lexes : Lexes rest tokens) : Lexes (text.toList ++ rest) (.word text :: tokens) := by
  unfold Text.isWord at isWord
  split at isWord
  next => cases isWord
  next c chars spelled =>
    rw [Bool.and_eq_true, List.all_eq_true] at isWord
    obtain ⟨starts, continues⟩ := isWord
    have visible := Text.not_isBlank_of_continuesWord (continues c List.mem_cons_self)
    have notDigit : ¬Text.isDigit c = true := by
      intro digit
      rw [Text.not_startsWord_of_isDigit digit] at starts
      cases starts
    obtain ⟨taken, dropped⟩ :=
      takeWhile_word (fun c member => continues c (List.mem_cons_of_mem _ member)) apart
    rw [spelled, List.cons_append]
    refine Lexes.token visible (fun stop offset => ?_) (by simp) lexes
    rw [readOne_of_plain stop offset _ (.inl starts), if_neg notDigit, taken, dropped, ← spelled,
      String.ofList_toList]

theorem Lexes.integer {value : Nat} (small : value ≤ integerLimit) (apart : Apart rest)
    (lexes : Lexes rest tokens) :
    Lexes ((toString value).toList ++ rest) (.integer value :: tokens) := by
  rw [Nat.toString_eq_ofList_toDigits, String.toList_ofList]
  cases spelled : Nat.toDigits 10 value with
  | nil => exact absurd spelled Nat.toDigits_ne_nil
  | cons c chars =>
    have digits (digit : Char) (member : digit ∈ c :: chars) : Text.isDigit digit = true := by
      rw [← spelled] at member
      exact Text.isDigit_of_mem_toDigits member
    have first := digits c List.mem_cons_self
    have ends : ∀ c ∈ rest.head?, Text.isDigit c = false := by
      intro c member
      refine Bool.eq_false_iff.mpr fun digit => ?_
      have continues := Text.continuesWord_of_isDigit digit
      rw [apart c member] at continues
      cases continues
    obtain ⟨taken, dropped⟩ :=
      takeWhile_word (fun c member => digits c (List.mem_cons_of_mem _ member)) ends
    rw [List.cons_append]
    refine Lexes.token (Text.not_isBlank_of_isDigit first) (fun stop offset => ?_) (by simp) lexes
    rw [readOne_of_plain stop offset _ (.inr first), if_pos first, taken, dropped, ← spelled,
      Text.ofDigits_toDigits, if_pos small]

theorem isWord_of_readOne {offset : Nat}
    (read : readOne stop offset c chars = .ok (.word text, rest)) : Text.isWord text = true := by
  have isWord (starts : Text.startsWord c = true) :
      Text.isWord (String.ofList (c :: chars.takeWhile Text.continuesWord)) = true := by
    have continues := Text.continuesWord_of_startsWord starts
    rw [Text.isWord, String.toList_ofList]
    simp only [List.all_cons, List.all_takeWhile, starts, continues, Bool.and_self]
  unfold readOne at read
  split at read
  next => cases read
  next =>
    split at read
    next => split at read <;> cases read
    next =>
      split at read
      next => split at read <;> cases read
      next =>
        split at read
        next => dsimp only at read; split at read <;> cases read
        next =>
          split at read
          next => dsimp only at read; split at read <;> cases read
          next =>
            split at read
            next starts => cases read; exact isWord starts
            next => cases read

theorem isWord_of_readFrom {steps : Nat} {located : List LocatedToken}
    (read : readFrom stop steps chars = .ok located)
    (member : .word text ∈ located.map LocatedToken.token) : Text.isWord text = true := by
  induction steps generalizing chars located with
  | zero =>
    cases read
    cases member
  | succ steps ih =>
    cases chars with
    | nil =>
      cases read
      cases member
    | cons c chars =>
      unfold readFrom at read
      split at read
      next => exact ih read member
      next =>
        obtain ⟨⟨token, behind⟩, first, others⟩ := except_bind_eq_ok.mp read
        obtain ⟨rest, readRest, done⟩ := except_bind_eq_ok.mp others
        cases done
        rcases List.mem_cons.mp member with rfl | later
        · exact isWord_of_readOne first
        · exact ih readRest later

end Token

end SheetTypes
