import SheetTypes.Proofs.Template.RoundTrip

/-!
Reading ends, and it only moves forward. Every turn of a loop and every level of nesting uses up a
token or a character, so the bounds on their numbers are never met; and where reading fails, it
fails at a character of the text or at its end.
-/

set_option autoImplicit false

namespace SheetTypes

namespace Token

variable {chars rest : List Char} {steps turns : Nat} {text : String}

theorem utf8ByteSize_ofList (chars : List Char) :
    (String.ofList chars).utf8ByteSize = width chars := by
  induction chars with
  | nil => rfl
  | cons c rest ih =>
    rw [String.ofList_cons, String.utf8ByteSize_append, String.utf8ByteSize_singleton, ih, width]

/-- What is in front of some last characters ends at a character of the text, or at its end. -/
theorem isValid_of_suffix (within : rest <:+ text.toList) :
    String.Pos.Raw.IsValid text ⟨width text.toList - width rest⟩ := by
  obtain ⟨front, same⟩ := within
  refine String.Pos.Raw.isValid_iff_exists_append.mpr
    ⟨String.ofList front, String.ofList rest, ?_, ?_⟩
  · rw [← String.ofList_append, same, String.ofList_toList]
  · rw [← same, ← utf8ByteSize_ofList, String.ofList_append, String.utf8ByteSize_append]
    rw [utf8ByteSize_ofList rest, Nat.add_sub_cancel]
    rfl

theorem suffix_of_readQuoted {content : List Char} (read : readQuoted chars = .ok (content, rest)) :
    rest <:+ chars := by
  fun_induction readQuoted chars generalizing content with
  | case1 => cases read
  | case2 tail =>
    cases read
    exact List.suffix_cons _ _
  | case3 => cases read
  | case4 c tail ih =>
    obtain ⟨found, inner, same⟩ := except_bind_eq_ok.mp read
    cases same
    exact (ih inner).trans ((List.suffix_cons _ _).trans (List.suffix_cons _ _))
  | case5 c tail _ _ _ ih =>
    obtain ⟨found, inner, same⟩ := except_bind_eq_ok.mp read
    cases same
    exact (ih inner).trans (List.suffix_cons _ _)

/-- A token leaves some last characters; an error is at its start, or at the end of the text. -/
theorem readOne_ends (stop offset : Nat) (c : Char) (rest : List Char) :
    Results (fun error => error.offset = offset ∨ error.offset = stop) (fun read => read.2 <:+ rest)
      (readOne stop offset c rest) := by
  unfold readOne
  split
  next => exact List.suffix_refl rest
  next =>
    dsimp only
    repeat' split
    next => exact List.suffix_cons _ _
    next => exact List.suffix_refl _
    next content tail closed => exact suffix_of_readQuoted closed
    next => exact .inl rfl
    next => exact .inr rfl
    next => exact .inl rfl
    next => exact List.dropWhile_suffix _
    next => exact List.dropWhile_suffix _
    next => exact .inl rfl
    next => exact List.dropWhile_suffix _
    next => exact .inl rfl

/-- Each turn takes a character, so all bounds that allow for every character come to the same. -/
theorem readFrom_alike (within : chars <:+ text.toList)
    (same : Reading.SameTurns chars.length steps turns) :
    readFrom (width text.toList) steps chars = readFrom (width text.toList) turns chars ∧
      Results (fun error => String.Pos.Raw.IsValid text ⟨error.offset⟩)
        (fun tokens => ∀ token ∈ tokens, String.Pos.Raw.IsValid text ⟨token.offset⟩)
        (readFrom (width text.toList) steps chars) := by
  induction steps generalizing chars turns with
  | zero =>
    have nothing : readFrom (width text.toList) turns chars = .ok [] := by
      cases turns with
      | zero => rfl
      | succ turns =>
        rw [same.eq_nil (Nat.le_refl _)]
        rfl
    exact ⟨nothing.symm, List.forall_mem_nil _⟩
  | succ steps ih =>
    cases chars with
    | nil => cases turns <;> exact ⟨rfl, List.forall_mem_nil _⟩
    | cons c tail =>
      obtain ⟨turns, rfl⟩ := same.symm.exists_succ
      have further {rest : List Char} (behind : rest <:+ tail) :=
        ih ((behind.trans (List.suffix_cons c tail)).trans within)
          (same.next (Nat.lt_succ_of_le behind.length_le))
      have here := isValid_of_suffix within
      unfold readFrom
      split
      next => exact further (List.suffix_refl tail)
      next =>
        have ends :=
          readOne_ends (width text.toList) (width text.toList - width (c :: tail)) c tail
        dsimp only
        generalize readOne _ _ c tail = read at ends
        cases read with
        | error error =>
          refine ⟨rfl, ?_⟩
          rcases ends with atStart | atStop
          · exact atStart ▸ here
          · exact atStop ▸ isValid_of_suffix List.nil_suffix
        | ok found =>
          obtain ⟨alike, tokens⟩ := further ends
          refine ⟨congrArg (Except.bind · fun tokens => .ok (_ :: tokens)) alike, ?_⟩
          exact tokens.andThen fun tokens valid => List.forall_mem_cons.mpr ⟨here, valid⟩

end Token

namespace Reading

open Grammar

variable {α : Type} {derives : List Token → α → Prop} {stop : Nat} {read : Reader α}

/-- A reader only moves forward among the tokens of a text: it stops behind the place where it
starts, and if it fails, then not before that place. -/
structure MovesForward (stop : Nat) (read : Reader α) : Prop where
  ahead : ∀ (tokens : List LocatedToken) place value rest,
    read (tokens.drop place) = .ok (value, rest) →
      ∃ next, place < next ∧ next ≤ tokens.length ∧ rest = tokens.drop next
  located : ∀ (tokens : List LocatedToken) place error, place ≤ tokens.length →
    read (tokens.drop place) = .error error →
      ∃ next, place ≤ next ∧ next ≤ tokens.length ∧ error.offset = offset stop (tokens.drop next)

theorem MovesForward.of_reads (reads : ∀ tokens, Reads stop tokens derives (read tokens))
    (some : ∀ value, ¬derives [] value) : MovesForward stop read where
  ahead := by
    intro tokens place value rest found
    obtain ⟨used, same, derived⟩ := (reads _).ok found
    have taken : 0 < used.length := by
      refine List.length_pos_iff.mpr ?_
      rintro rfl
      exact some value derived
    have length := congrArg List.length same
    rw [List.length_drop, List.length_append] at length
    refine ⟨place + used.length, by omega, by omega, ?_⟩
    rw [← List.drop_drop, same, List.drop_left]
  located := by
    intro tokens place error within failed
    obtain ⟨behind, ⟨used, same⟩, isOffset⟩ := (reads (tokens.drop place)).ends.of_error failed
    have length := congrArg List.length same
    rw [List.length_drop, List.length_append] at length
    refine ⟨place + used.length, by omega, by omega, ?_⟩
    rw [← List.drop_drop, ← same, List.drop_left, isOffset]

/-- Readers of what follows the first tokens of a type: the parentheses that open tuples and
functions, and the keywords of records and tagged types. -/
def parts (stop : Nat) : List (Reader Template → Reader Template) :=
  [tuple stop, function stop, parenthesized stop, record stop, tagged stop]

/-- Reading ends. The types inside a type are read from fewer tokens, those inside its parts from no
more, and a turn of a loop takes a token; so bounds that allow for every token are never met. -/
structure Ends (stop : Nat) : Prop where
  levels : ∀ inner tokens,
    (∀ fewer : List LocatedToken, fewer.length < tokens.length → inner fewer = type stop fewer) →
      typeOver stop inner tokens = type stop tokens
  parts : ∀ part ∈ parts stop, ∀ inner tokens,
      (∀ fewer : List LocatedToken, fewer.length ≤ tokens.length → inner fewer = type stop fewer) →
        part inner tokens = part (type stop) tokens
  items : ∀ steps tokens, tokens.length ≤ steps →
    commaSeparatedFrom (type stop) steps tokens = commaSeparated (type stop) tokens
  fields : ∀ steps tokens, tokens.length ≤ steps →
    commaSeparatedFrom (field stop (type stop)) steps tokens =
      commaSeparated (field stop (type stop)) tokens
  operands : ∀ steps tokens, tokens.length ≤ steps →
    operandsFrom stop (type stop) steps tokens =
      operandsFrom stop (type stop) tokens.length tokens
  factors : ∀ steps unit tokens, tokens.length ≤ steps →
    factorsFrom stop steps unit tokens = factorsFrom stop tokens.length unit tokens

/-- The parts of types are read alike, and none of them from no tokens. -/
theorem parts_alike : ∀ part ∈ parts stop,
    ∃ derives, PartsAlike stop derives part ∧ ∀ template, ¬derives [] template := by
  have opened (template : Template) : ¬DerivesBehind [.symbol .leftParen] [] template := by
    intro derived
    obtain ⟨inner, same, _⟩ := derived.closed
    simp at same
  simp only [parts, List.forall_mem_cons, List.not_mem_nil, false_implies, implies_true, and_true]
  refine ⟨⟨_, tuple_alike, opened⟩, ⟨_, function_alike, ?_⟩, ⟨_, parenthesized_alike, opened⟩,
    ⟨_, record_alike, fun _ found => found.1 rfl⟩, ⟨_, tagged_alike, fun _ found => found.1 rfl⟩⟩
  rintro template ⟨before, after, params, result, same, _⟩
  simp at same

theorem ends_all (stop : Nat) : Ends stop where
  levels _ _ := typeOver_eq_type
  parts part listed inner tokens same := by
    obtain ⟨derives, alike, _⟩ := parts_alike part listed
    exact (alike fun rest within => type_alike (same rest within)).same
  items steps tokens enough :=
    (items_alike (typesAlike_type _) (.inr ⟨enough, Nat.le_refl _⟩)).same
  fields steps tokens enough :=
    (fields_alike (typesAlike_type _) (.inr ⟨enough, Nat.le_refl _⟩)).same
  operands steps tokens enough :=
    (operandsFrom_alike (typesAlike_type _) (.inr ⟨enough, Nat.le_refl _⟩)).same
  factors steps unit tokens enough :=
    (factorsFrom_alike unit.isProduct_signed (.inr ⟨enough, Nat.le_refl _⟩)).same

/-- Where a text cannot be read, it is at a character, or at the end. -/
theorem whole_ends {read : Nat → Reader α} (text : String)
    (reads : ∀ stop tokens, Reads stop tokens derives (read stop tokens)) :
    Results (fun error => String.Pos.Raw.IsValid text ⟨error.offset⟩) (fun _ => True)
      (whole read text) := by
  refine (Token.readFrom_alike (List.suffix_refl _) (.inl rfl)).2.andThen fun tokens valid => ?_
  have place {behind : List LocatedToken} (within : behind <:+ tokens) :
      String.Pos.Raw.IsValid text ⟨offset (Token.width text.toList) behind⟩ := by
    cases behind with
    | nil => exact Token.isValid_of_suffix List.nil_suffix
    | cons next _ => exact valid next (within.subset (List.mem_cons_self ..))
  have ends := (reads (Token.width text.toList) tokens).ends
  generalize read _ tokens = result at ends
  cases result with
  | error error =>
    obtain ⟨behind, within, same⟩ := ends
    have valid := place within
    rwa [← same] at valid
  | ok found =>
    obtain ⟨used, same, _⟩ := ends
    obtain ⟨value, rest⟩ := found
    cases rest with
    | nil => trivial
    | cons next later => exact place ⟨used, same.symm⟩

end Reading

open Reading

/-- Reading any text ends, and moves forward among its tokens; an error is at the first byte of a
character of the text, or at its end. -/
theorem Template.reading_ends_forward (text : String) :
    (∀ steps, text.toList.length ≤ steps →
      Token.readFrom (Token.width text.toList) steps text.toList = Token.readAll text) ∧
    (∀ error, Token.readAll text = .error error ∨ Template.parse text = .error error ∨
      UnitTemplate.parse text = .error error → String.Pos.Raw.IsValid text ⟨error.offset⟩) ∧
    ∀ stop, Ends stop ∧ MovesForward stop (factor stop) ∧ MovesForward stop (Reading.unit stop) ∧
      MovesForward stop (type stop) ∧
      ∀ part ∈ parts stop, MovesForward stop (part (type stop)) := by
  refine ⟨fun steps enough => ?_, ?_, fun stop => ⟨ends_all stop, ?_, ?_, ?_, ?_⟩⟩
  · exact (Token.readFrom_alike (List.suffix_refl _) (.inr ⟨enough, Nat.le_refl _⟩)).1
  · rintro error (failed | failed | failed)
    · exact (Token.readFrom_alike (List.suffix_refl _) (.inl rfl)).2.of_error failed
    · exact (whole_ends text fun stop tokens => type_alike rfl).of_error failed
    · exact (whole_ends text fun stop tokens => unit_reads).of_error failed
  · refine .of_reads (fun _ => factor_reads) ?_
    rintro unit ⟨power, derived, _⟩
    exact derived.ne_nil rfl
  · refine .of_reads (fun _ => unit_reads) ?_
    rintro unit ⟨powers, derived, _⟩
    exact derived.ne_nil rfl
  · exact .of_reads (fun _ => type_alike rfl) fun _ derived => derived.ne_nil (by simp) rfl
  · intro part listed
    obtain ⟨derives, alike, some⟩ := parts_alike part listed
    exact .of_reads (fun _ => alike (typesAlike_type _)) some

end SheetTypes
