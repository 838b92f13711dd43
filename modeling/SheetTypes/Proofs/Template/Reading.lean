import SheetTypes.Proofs.Actions
import SheetTypes.Template.Parser

/-!
What reading from a list of tokens comes to: a value that is derived from the tokens used up, or an
error at one of the tokens. Two readers are compared that way, since each of them may read the types
inside with another reader, or stop after another number of turns.
-/

set_option autoImplicit false

namespace SheetTypes.Reading

variable {α β : Type} {stop : Nat} {tokens rest : List LocatedToken} {mark : Symbol}
  {expected : Expectation} {token : LocatedToken} {value : α}

def Located (stop : Nat) (tokens : List LocatedToken) (error : ParseError) : Prop :=
  ∃ behind, behind <:+ tokens ∧ error.offset = offset stop behind

/-- Two ways to read from a list of tokens come to the same: to a value that is derived from the
tokens before those that are left, or to an error at one of the tokens. -/
structure ReadAlike (stop : Nat) (tokens : List LocatedToken) (derives : List Token → α → Prop)
    (read other : Except ParseError (Read α)) : Prop where
  same : read = other
  ends : Results (Located stop tokens) (fun found => ∃ used, tokens = used ++ found.2 ∧
    derives (used.map LocatedToken.token) found.1) read

abbrev Reads (stop : Nat) (tokens : List LocatedToken) (derives : List Token → α → Prop)
    (read : Except ParseError (Read α)) : Prop :=
  ReadAlike stop tokens derives read read

namespace ReadAlike

variable {derives derives' : List Token → α → Prop} {made : List Token → β → Prop}
  {read other : Except ParseError (Read α)}

theorem ok (alike : ReadAlike stop tokens derives read other) (found : read = .ok (value, rest)) :
    ∃ used, tokens = used ++ rest ∧ derives (used.map LocatedToken.token) value := by
  have ends := alike.ends
  rw [found] at ends
  exact ends

theorem pure (holds : derives [] value) :
    ReadAlike stop tokens derives (.ok (value, tokens)) (.ok (value, tokens)) :=
  ⟨rfl, [], rfl, holds⟩

theorem fail {error : ParseError} (here : error.offset = offset stop tokens) :
    ReadAlike stop tokens derives (.error error) (.error error) :=
  ⟨rfl, tokens, List.suffix_refl tokens, here⟩

theorem unexpected :
    ReadAlike stop tokens derives (unexpected stop expected tokens)
      (unexpected stop expected tokens) :=
  fail rfl

theorem mono (alike : ReadAlike stop tokens derives read other)
    (weaker : ∀ list value, derives list value → derives' list value) :
    ReadAlike stop tokens derives' read other := by
  refine ⟨alike.same, alike.ends.mono fun found derived => ?_⟩
  obtain ⟨used, same, holds⟩ := derived
  exact ⟨used, same, weaker _ _ holds⟩

/-- Tokens in front belong to what is used up. -/
theorem append (used : List LocatedToken)
    (inner : ReadAlike stop rest (fun list => derives (used.map LocatedToken.token ++ list)) read
      other) : ReadAlike stop (used ++ rest) derives read other := by
  obtain ⟨same, ends⟩ := inner
  refine ⟨same, ?_⟩
  cases read with
  | error error =>
    obtain ⟨behind, within, place⟩ := ends
    exact ⟨behind, within.trans (List.suffix_append used rest), place⟩
  | ok found =>
    obtain ⟨more, split, derived⟩ := ends
    exact ⟨used ++ more, by rw [split, List.append_assoc], by rwa [List.map_append]⟩

theorem cons (inner : ReadAlike stop rest (fun list => derives (token.token :: list)) read other) :
    ReadAlike stop (token :: rest) derives read other :=
  append [token] inner

theorem bind {follow otherFollow : Read α → Except ParseError (Read β)}
    (first : ReadAlike stop tokens derives read other)
    (later : ∀ list value rest, derives list value → rest.length ≤ tokens.length →
      ReadAlike stop rest (fun more => made (list ++ more)) (follow (value, rest))
        (otherFollow (value, rest))) :
    ReadAlike stop tokens made (read >>= follow) (other >>= otherFollow) := by
  obtain ⟨rfl, ends⟩ := first
  cases read with
  | error error => exact ⟨rfl, ends⟩
  | ok found =>
    obtain ⟨used, rfl, derived⟩ := ends
    exact append used (later _ found.1 found.2 derived (by simp))

theorem expect {follow otherFollow : List LocatedToken → Except ParseError (Read α)}
    (later : ∀ rest, rest.length < tokens.length →
      ReadAlike stop rest (fun list => derives (.symbol mark :: list)) (follow rest)
        (otherFollow rest)) :
    ReadAlike stop tokens derives (Reading.expect stop mark tokens >>= follow)
      (Reading.expect stop mark tokens >>= otherFollow) := by
  unfold Reading.expect
  split
  next found offset rest =>
    split
    next same =>
      subst same
      exact cons (later rest (Nat.lt_succ_self _))
    next => exact unexpected
  next => exact unexpected

end ReadAlike

theorem name_reads :
    Reads stop tokens (fun list text => list = [.word text]) (name stop expected tokens) := by
  unfold name
  split
  next => exact .cons (.pure rfl)
  next => exact .unexpected

/-- Two bounds of a number of turns that make no difference for the given number of tokens: they are
the same, or none is too low. -/
def SameTurns (count turns otherTurns : Nat) : Prop :=
  turns = otherTurns ∨ count ≤ turns ∧ count ≤ otherTurns

variable {count fewer turns otherTurns : Nat}

theorem SameTurns.exists_succ (same : SameTurns (count + 1) turns (otherTurns + 1)) :
    ∃ fewer, turns = fewer + 1 := by
  refine ⟨turns - 1, ?_⟩
  unfold SameTurns at same
  omega

theorem SameTurns.symm (same : SameTurns count turns otherTurns) :
    SameTurns count otherTurns turns := by
  unfold SameTurns at same ⊢
  omega

/-- Where one bound has been reached and another one has not, nothing is left. -/
theorem SameTurns.eq_nil {left : List α} (same : SameTurns count 0 (otherTurns + 1))
    (short : left.length ≤ count) : left = [] := by
  unfold SameTurns at same
  exact List.eq_nil_of_length_eq_zero (by omega)

theorem SameTurns.next
    (same : SameTurns count (turns + 1) (otherTurns + 1)) (less : fewer < count) :
    SameTurns fewer turns otherTurns := by
  unfold SameTurns at same ⊢
  omega

def NotNext (marks : List Symbol) (tokens : List LocatedToken) : Prop :=
  ∀ mark ∈ marks, ∀ offset rest, tokens ≠ ⟨.symbol mark, offset⟩ :: rest

theorem notNext_nil (marks : List Symbol) : NotNext marks [] := by
  intro mark _ offset rest
  exact List.cons_ne_nil _ _ |>.symm

/-- A reader takes some tokens for a value, whatever follows them that does not start with one of
the given symbols. -/
def Takes (read : Reader α) (marks : List Symbol) (list : List Token) (value : α) : Prop :=
  ∀ used rest, used.map LocatedToken.token = list → NotNext marks rest →
    read (used ++ rest) = .ok (value, rest)

namespace Takes

variable {read : Reader α} {marks after : List Symbol} {list more : List Token} {next : Token}
  {result : β} {follow : Read α → Except ParseError (Read β)}

theorem nil (same : ∀ rest, NotNext marks rest → read rest = .ok (value, rest)) :
    Takes read marks [] value := by
  intro used rest nothing ends
  rw [List.map_eq_nil_iff.mp nothing]
  exact same rest ends

theorem cons (takes : ∀ offset, Takes (fun tokens => read (⟨next, offset⟩ :: tokens)) marks list
    value) : Takes read marks (next :: list) value := by
  intro used rest same ends
  obtain ⟨⟨_, offset⟩, tail, rfl, rfl, inside⟩ := List.map_eq_cons_iff.mp same
  exact takes offset tail rest inside ends

/-- A second reader goes on where the first one is sure to stop. -/
theorem bind (first : Takes read marks list value)
    (later : Takes (fun tokens => follow (value, tokens)) after more result)
    (apart : ∀ mark ∈ marks, more.head? ≠ some (.symbol mark) ∧ (more = [] → mark ∈ after)) :
    Takes (fun tokens => read tokens >>= follow) after (list ++ more) result := by
  intro used rest same ends
  obtain ⟨front, back, rfl, isFront, isBack⟩ := List.map_eq_append_iff.mp same
  rw [List.append_assoc]
  have goesOn := later back rest isBack ends
  refine except_bind_eq_ok.mpr ⟨_, first front (back ++ rest) isFront ?_, goesOn⟩
  intro mark listed offset tail starts
  obtain ⟨differs, atEnd⟩ := apart mark listed
  cases back with
  | nil => exact ends mark (atEnd isBack.symm) offset tail starts
  | cons token others =>
    cases starts
    exact differs (by rw [← isBack]; rfl)

theorem last (first : Takes read marks list value)
    (ends : ∀ rest, follow (value, rest) = .ok (result, rest)) :
    Takes (fun tokens => read tokens >>= follow) marks list result :=
  fun used rest same apart => except_bind_eq_ok.mpr ⟨_, first used rest same apart, ends rest⟩

theorem expect {follow : Reader α} (later : Takes follow marks list value) :
    Takes (fun tokens => Reading.expect stop mark tokens >>= follow) marks (.symbol mark :: list)
      value :=
  cons fun _ used rest same ends =>
    except_bind_eq_ok.mpr ⟨_, if_pos rfl, later used rest same ends⟩

theorem mono (takes : Takes read marks list value) (subset : marks ⊆ after) :
    Takes read after list value :=
  fun used rest same ends => takes used rest same fun mark listed => ends mark (subset listed)

/-- A loop may have as many turns as there are tokens. -/
theorem of_turns {loop : Nat → Reader α}
    (takes : ∀ turns, list.length ≤ turns → Takes (loop turns) marks list value) :
    Takes (fun tokens => loop tokens.length tokens) marks list value := by
  intro used rest same ends
  refine takes _ ?_ used rest same ends
  rw [← same, List.length_map, List.length_append]
  exact Nat.le_add_right _ _

end Takes

end SheetTypes.Reading
