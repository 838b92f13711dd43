import SheetTypes.Proofs.Template.UnitReading

/-!
Reading types. A text is read as a type exactly if the grammar derives the type from its tokens, and
it derives no other. Two choices of the reader need an argument: operands and units in braces are
taken as long as there are any, and behind two opening parentheses a function is tried before a
tuple.
-/

set_option autoImplicit false

namespace SheetTypes

namespace Reading

open Grammar

variable {α : Type} {stop : Nat} {inner other : Reader Template}
  {tokens rest used : List LocatedToken} {before list : List Token} {first : α}
  {item otherItem : Reader α} {items : List Template} {levels offset steps turns : Nat}
  {name : String} {template : Template} {token : Token}

/-! ### What is read is derived -/

def DerivesBehind (front list : List Token) (template : Template) : Prop :=
  Derives (front ++ list) (.type template)

def TypesAlike (stop count : Nat) (inner other : Reader Template) : Prop :=
  ∀ tokens, tokens.length ≤ count →
    ReadAlike stop tokens (DerivesBehind []) (inner tokens) (other tokens)

/-- Readers that come to the same if the types inside are read alike, and those are read from no
more tokens than are given. -/
def PartsAlike (stop : Nat) (derives : List Token → α → Prop) (part : Reader Template → Reader α) :
    Prop :=
  ∀ ⦃inner other tokens⦄, TypesAlike stop tokens.length inner other →
    ReadAlike stop tokens derives (part inner tokens) (part other tokens)

theorem TypesAlike.mono {count fewer : Nat} (types : TypesAlike stop count inner other)
    (less : fewer ≤ count) : TypesAlike stop fewer inner other :=
  fun tokens within => types tokens (Nat.le_trans within less)

theorem commaSeparatedFrom_alike {derives : List Token → α → Prop}
    {derivesAll : List Token → List α → Prop}
    (each : ∀ rest, rest.length ≤ tokens.length →
      ReadAlike stop rest derives (item rest) (otherItem rest))
    (single : ∀ tokens value, derives tokens value → derivesAll tokens [value])
    (more : ∀ tokens rest value values, derives tokens value → derivesAll rest values →
      derivesAll (tokens ++ .symbol .comma :: rest) (value :: values))
    (same : SameTurns tokens.length steps turns) :
    ReadAlike stop tokens derivesAll (commaSeparatedFrom item steps tokens)
      (commaSeparatedFrom otherItem turns tokens) := by
  have last {list : List Token} {value : α} (derived : derives list value) :
      derivesAll (list ++ []) [value] := by
    rw [List.append_nil]
    exact single list value derived
  induction steps generalizing tokens turns with
  | zero =>
    cases turns with
    | zero => exact (each tokens (Nat.le_refl _)).bind fun _ _ _ derived _ => .pure (last derived)
    | succ turns =>
      refine (each tokens (Nat.le_refl _)).bind fun _ _ rest derived short => ?_
      obtain rfl := same.eq_nil short
      exact .pure (last derived)
  | succ steps ih =>
    cases turns with
    | zero =>
      refine (each tokens (Nat.le_refl _)).bind fun _ _ rest derived short => ?_
      obtain rfl := same.symm.eq_nil short
      exact .pure (last derived)
    | succ turns =>
      refine (each tokens (Nat.le_refl _)).bind fun list value rest derived short => ?_
      dsimp only
      split
      next offset tail =>
        rw [List.length_cons] at short
        have others := ih (fun rest within => each rest (by omega)) (same.next short)
        refine .cons (others.bind fun list values rest derivedOthers _ => .pure ?_)
        rw [List.append_nil]
        exact more _ _ _ _ derived derivedOthers
      next => exact .pure (last derived)

theorem items_alike (types : TypesAlike stop tokens.length inner other)
    (same : SameTurns tokens.length steps turns) :
    ReadAlike stop tokens (fun list items => Derives list (.items items))
      (commaSeparatedFrom inner steps tokens) (commaSeparatedFrom other turns tokens) :=
  commaSeparatedFrom_alike types (fun _ _ => .item) (fun _ _ _ _ => .items) same

theorem number_reads : Reads stop tokens (DerivesBehind [.word "NUMBER"]) (number stop tokens) := by
  unfold number
  split
  next =>
    refine .cons (unit_reads.bind fun list unit rest derived _ => ?_)
    exact .expect fun rest _ => .pure (.number derived)
  next => exact .pure .plainNumber

theorem tuple_alike : PartsAlike stop (DerivesBehind [.symbol .leftParen]) (tuple stop) := by
  intro inner other tokens types
  refine (items_alike types (.inl rfl)).bind fun list items rest derived _ => ?_
  dsimp only
  split
  next => exact .unexpected
  next several =>
    exact .expect fun rest _ => .pure (.tuple derived (Nat.le_of_not_lt several))

theorem params_alike :
    PartsAlike stop (fun list params => list = [] ∧ params = [] ∨ Derives list (.items params))
      params := by
  intro inner other tokens types
  unfold params
  split
  next => exact .pure (.inl ⟨rfl, rfl⟩)
  next => exact (items_alike types (.inl rfl)).mono fun _ _ derived => .inr derived

def DerivesFunction (list : List Token) (template : Template) : Prop :=
  ∃ before after params result,
    list = before ++ .symbol .rightParen :: .symbol .arrow :: (after ++ [.symbol .rightParen]) ∧
    (before = [] ∧ params = [] ∨ Derives before (.items params)) ∧
    Derives after (.type result) ∧ template = .function params result

theorem DerivesFunction.derives (derived : DerivesFunction list template) :
    DerivesBehind [.symbol .leftParen, .symbol .leftParen] list template := by
  obtain ⟨before, after, params, result, rfl, ⟨rfl, rfl⟩ | derivedParams, derivedResult, rfl⟩ :=
    derived
  · exact .constant derivedResult
  · exact .function derivedParams derivedResult

theorem function_alike : PartsAlike stop DerivesFunction (function stop) := by
  intro inner other tokens types
  refine (params_alike types).bind fun before params rest derivedParams short => ?_
  refine .expect fun afterCloser closed => .expect fun afterArrow pointed => ?_
  have result := types afterArrow (by omega)
  refine result.bind fun after result rest derivedResult _ => .expect fun rest _ => .pure ?_
  exact ⟨before, after, params, result, rfl, derivedParams, derivedResult, rfl⟩

/-- Giving up a function is no error; the tokens are read again, as a tuple. -/
theorem parenthesized_alike :
    PartsAlike stop (DerivesBehind [.symbol .leftParen]) (parenthesized stop) := by
  intro inner other tokens types
  unfold parenthesized
  split
  next offset tail =>
    obtain ⟨same, ends⟩ := function_alike (types.mono (Nat.le_succ tail.length))
    rw [← same]
    generalize function stop inner tail = read at ends
    cases read with
    | error error => exact tuple_alike types
    | ok found => exact .cons (.mono ⟨rfl, ends⟩ fun _ _ derived => derived.derives)
  next => exact tuple_alike types

def DerivesField (tokens : List Token) (field : String × Template) : Prop :=
  ∃ token tail, tokens = token :: .symbol .colon :: tail ∧ FieldName token field.1 ∧
    Derives tail (.type field.2)

theorem field_alike : PartsAlike stop DerivesField (field stop) := by
  intro inner other tokens types
  unfold field
  split
  next name offset tail =>
    refine .cons (.expect fun rest short => ?_)
    refine (types rest (Nat.le_succ_of_le (Nat.le_of_lt short))).bind ?_
    exact fun list _ _ derived _ => .pure ⟨_, list, by simp, .word name, derived⟩
  next name offset tail =>
    refine .cons (.expect fun rest short => ?_)
    refine (types rest (Nat.le_succ_of_le (Nat.le_of_lt short))).bind ?_
    exact fun list _ _ derived _ => .pure ⟨_, list, by simp, .quoted name, derived⟩
  next => exact .unexpected

theorem fields_alike (types : TypesAlike stop tokens.length inner other)
    (same : SameTurns tokens.length steps turns) :
    ReadAlike stop tokens (fun list fields => Derives list (.fields fields))
      (commaSeparatedFrom (field stop inner) steps tokens)
      (commaSeparatedFrom (field stop other) turns tokens) := by
  refine commaSeparatedFrom_alike (fun rest within => field_alike (types.mono within)) ?_ ?_ same
  · rintro _ field ⟨token, tail, rfl, named, derived⟩
    exact .field named derived
  · rintro _ rest field fields ⟨token, tail, rfl, named, derived⟩ others
    exact .fields named derived others

theorem record_alike :
    PartsAlike stop (fun list template => list ≠ [] ∧ DerivesBehind [.word "RECORD"] list template)
      (record stop) := by
  intro inner other tokens types
  refine .expect fun rest opened => ?_
  split
  next => exact .cons (.pure ⟨List.cons_ne_nil _ _, .emptyRecord⟩)
  next =>
    refine (fields_alike (types.mono (Nat.le_of_lt opened)) (.inl rfl)).bind ?_
    intro list fields rest derived _
    exact .expect fun rest _ => .pure ⟨List.cons_ne_nil _ _, .record derived⟩

theorem operandsFrom_alike (types : TypesAlike stop tokens.length inner other)
    (same : SameTurns tokens.length steps turns) :
    ReadAlike stop tokens (fun list operands => Derives list (.operands operands))
      (operandsFrom stop inner steps tokens) (operandsFrom stop other turns tokens) := by
  fun_induction operandsFrom stop inner steps tokens generalizing turns with
  | case1 steps offset tail ih =>
    cases turns with
    | zero => simp [SameTurns] at same
    | succ turns =>
      have value := types tail (Nat.le_succ _)
      refine .cons (value.bind fun list value rest derived short => .expect fun rest closed => ?_)
      have further : rest.length < tail.length + 1 := by omega
      have others := ih rest (types.mono (Nat.le_of_lt further)) (same.next further)
      refine others.bind fun more operands rest derivedOthers _ => .pure ?_
      simpa using Derives.typeOperand derived derivedOthers
  | case2 steps offset tail ih =>
    cases turns with
    | zero => simp [SameTurns] at same
    | succ turns =>
      refine .cons (unit_reads.bind fun list value rest derived short => ?_)
      refine .expect fun rest closed => ?_
      have further : rest.length < tail.length + 1 := by omega
      have others := ih rest (types.mono (Nat.le_of_lt further)) (same.next further)
      refine others.bind fun more operands rest derivedOthers _ => .pure ?_
      simpa using Derives.unitOperand derived derivedOthers
  | case3 steps tokens notType notUnit =>
    have stops : operandsFrom stop other turns tokens = .ok ([], tokens) := by
      unfold operandsFrom
      split
      next =>
        obtain ⟨fewer, goesOn⟩ := same.exists_succ
        exact (notType fewer _ _ goesOn rfl).elim
      next =>
        obtain ⟨fewer, goesOn⟩ := same.exists_succ
        exact (notUnit fewer _ _ goesOn rfl).elim
      next => rfl
    rw [stops]
    exact .pure .noOperands

theorem tagged_alike :
    PartsAlike stop (fun list template => list ≠ [] ∧ DerivesBehind [.word "TAGGED"] list template)
      (tagged stop) := by
  intro inner other tokens types
  unfold tagged
  split
  next name offset tail =>
    refine .cons ((operandsFrom_alike (types.mono (Nat.le_succ tail.length)) (.inl rfl)).bind ?_)
    intro list operands rest derived _
    refine .pure ?_
    rw [List.append_nil]
    exact ⟨List.cons_ne_nil _ _, .tagged name derived⟩
  next => exact .unexpected

def Keyword.word : Keyword → String
  | number => "NUMBER"
  | text => "TEXT"
  | boolean => "BOOLEAN"
  | record => "RECORD"
  | tagged => "TAGGED"
  | date kind => kind.keyword

theorem Keyword.ofWord?_eq_some {word : String} {keyword : Keyword} :
    ofWord? word = some keyword ↔ word = keyword.word := by
  constructor
  · intro found
    unfold ofWord? at found
    split at found
    next kind isDate =>
      cases found
      have same := List.find?_some isDate
      exact (beq_iff_eq.mp same).symm
    next =>
      repeat' split at found
      all_goals cases found
      all_goals assumption
  · rintro rfl
    cases keyword with
    | date kind => cases kind <;> decide
    | _ => decide

/-- Types inside are read from what follows the first token. -/
theorem typeOver_alike
    (types : ∀ rest, rest.length < tokens.length →
      ReadAlike stop rest (DerivesBehind []) (inner rest) (other rest)) :
    ReadAlike stop tokens (DerivesBehind []) (typeOver stop inner tokens)
      (typeOver stop other tokens) := by
  have inside {next : LocatedToken} {tail : List LocatedToken} (starts : tokens = next :: tail) :
      TypesAlike stop tail.length inner other := by
    intro rest within
    exact types rest (by rw [starts, List.length_cons]; omega)
  unfold typeOver
  split
  next word offset tail =>
    have isWord {keyword : Keyword} (found : Keyword.ofWord? word = some keyword) :
        word = keyword.word := Keyword.ofWord?_eq_some.mp found
    split
    next found => rw [isWord found]; exact .cons number_reads
    next found => rw [isWord found]; exact .cons (.pure .text)
    next found => rw [isWord found]; exact .cons (.pure .boolean)
    next kind found => rw [isWord found]; exact .cons (.pure (.date kind))
    next found =>
      rw [isWord found]
      exact .cons ((record_alike (inside rfl)).mono fun _ _ derived => derived.2)
    next found =>
      rw [isWord found]
      exact .cons ((tagged_alike (inside rfl)).mono fun _ _ derived => derived.2)
    next => exact .unexpected
  next offset tail =>
    refine .cons (name_reads.bind fun list name rest named _ => .pure ?_)
    rw [named]
    exact .var name
  next offset tail =>
    refine .cons ((inside rfl tail (Nat.le_refl _)).bind fun list item rest derived _ => ?_)
    exact .expect fun rest _ => .pure (.array derived)
  next offset tail => exact .cons (parenthesized_alike (inside rfl))
  next => exact .unexpected

/-- By induction on the levels: the types inside are read from fewer tokens. -/
theorem typeWithin_alike (same : SameTurns tokens.length levels turns) :
    ReadAlike stop tokens (DerivesBehind []) (typeWithin stop levels tokens)
      (typeWithin stop turns tokens) := by
  induction levels generalizing tokens turns with
  | zero =>
    cases turns with
    | zero => exact .unexpected
    | succ turns =>
      obtain rfl := same.eq_nil (Nat.le_refl _)
      exact .unexpected
  | succ levels ih =>
    cases turns with
    | zero =>
      obtain rfl := same.symm.eq_nil (Nat.le_refl _)
      exact .unexpected
    | succ turns => exact typeOver_alike fun rest short => ih (same.next short)

theorem type_alike (same : inner tokens = type stop tokens) :
    ReadAlike stop tokens (DerivesBehind []) (inner tokens) (type stop tokens) := by
  rw [same]
  exact typeWithin_alike (.inl rfl)

theorem typesAlike_type (count : Nat) : TypesAlike stop count (type stop) (type stop) :=
  fun _ _ => type_alike rfl

/-- The types inside may be read in any way that makes no difference for fewer tokens. -/
theorem typeOver_eq_type
    (same : ∀ fewer, fewer.length < tokens.length → inner fewer = type stop fewer) :
    typeOver stop inner tokens = type stop tokens := by
  cases tokens with
  | nil => rfl
  | cons next tail =>
    refine (typeOver_alike fun rest short => ?_).same
    rw [same rest short]
    exact typeWithin_alike (.inr ⟨Nat.le_refl _, Nat.le_of_lt_succ short⟩)

theorem type_eq : type stop tokens = typeOver stop (type stop) tokens :=
  (typeOver_eq_type fun _ _ => rfl).symm

/-! ### What is derived is read -/

/-- Behind an opening parenthesis, several items are not read as a function: where that one is
closed, a comma follows and no arrow. -/
theorem not_function_of_items {tail behind : List LocatedToken}
    (derived : Derives (Token.symbol .leftParen :: tail.map LocatedToken.token) (.items items))
    (several : 2 ≤ items.length) (result : Read Template) :
    function stop (type stop) (tail ++ behind) ≠ .ok result := by
  intro read
  obtain ⟨used, isFunction, before, after, params, target, isUsed, derivedParams, _, _⟩ :=
    (function_alike (typesAlike_type _)).ok read
  have balanced : Balanced before := by
    rcases derivedParams with ⟨rfl, _⟩ | derivedParams
    · exact .nil
    · exact derivedParams.balanced
  generalize same : Token.symbol .leftParen :: tail.map LocatedToken.token = whole at derived
  cases derived with
  | item first => simp at several
  | @items firstTokens restTokens item items first others =>
    cases firstTokens with
    | nil => cases same
    | cons opener list =>
      rw [List.cons_append, List.cons.injEq] at same
      obtain ⟨rfl, tailTokens⟩ := same
      obtain ⟨inner, rfl, closed⟩ := first.closed
      have here : outside 1 ((tail ++ behind).map LocatedToken.token) =
          .symbol .comma :: (restTokens ++ behind.map LocatedToken.token) := by
        rw [List.map_append, tailTokens]
        simpa using closed.outside_closed
      have there : outside 1 ((tail ++ behind).map LocatedToken.token) =
          .symbol .arrow :: (after ++ .symbol .rightParen :: result.2.map LocatedToken.token) := by
        rw [isFunction, List.map_append, isUsed]
        simpa using balanced.outside_closed
      rw [here] at there
      cases there

/-- What is derived from tokens is read from them, whatever follows them, unless this could belong
to it. -/
def Accepted (stop : Nat) (list : List Token) : Phrase → Prop
  | .type template => Takes (type stop) [.leftParen, .leftBrace] list template
  | .items items => ∀ turns, list.length ≤ turns →
      Takes (commaSeparatedFrom (type stop) turns) [.leftParen, .leftBrace, .comma] list items
  | .fields fields => ∀ turns, list.length ≤ turns →
      Takes (commaSeparatedFrom (field stop (type stop)) turns)
        [.leftParen, .leftBrace, .comma] list fields
  | .operands operands => ∀ turns, list.length ≤ turns →
      Takes (operandsFrom stop (type stop) turns) [.leftParen, .leftBrace] list operands

variable {marks : List Symbol}

theorem takes_type (takes : Takes (typeOver stop (type stop)) marks list template) :
    Takes (type stop) marks list template := by
  intro used rest same ends
  rw [type_eq]
  exact takes used rest same ends

theorem takes_keyword (keyword : Keyword)
    (takes : Takes (fun tokens =>
      match keyword with
      | .number => number stop tokens
      | .text => .ok (.text, tokens)
      | .boolean => .ok (.boolean, tokens)
      | .date kind => .ok (.date kind, tokens)
      | .record => record stop (type stop) tokens
      | .tagged => tagged stop (type stop) tokens) marks list template) :
    Takes (type stop) marks (.word keyword.word :: list) template := by
  refine takes_type (.cons fun offset used rest same ends => ?_)
  rw [← takes used rest same ends]
  dsimp only [typeOver]
  rw [Keyword.ofWord?_eq_some.mpr rfl]
  cases keyword <;> rfl

/-- Parameters are read, since none of them starts with the parenthesis that closes them. -/
theorem params_takes (derived : Derives list (.items items))
    (accepted : Accepted stop list (.items items)) :
    Takes (params (type stop)) [.leftParen, .leftBrace, .comma] list items := by
  intro used rest same ends
  unfold params
  split
  next offset tail starts =>
    cases used with
    | nil => exact absurd same.symm (derived.ne_nil (by simp))
    | cons next others =>
      cases starts
      rw [← same] at derived
      exact absurd derived.balanced Balanced.not_closing
  next => exact Takes.of_turns accepted used rest same ends

theorem takes_function (takes : Takes (function stop (type stop)) marks list template) :
    Takes (type stop) marks (.symbol .leftParen :: .symbol .leftParen :: list) template := by
  refine takes_type (.cons fun _ => .cons fun _ used rest same ends => ?_)
  dsimp only [typeOver, parenthesized]
  rw [takes used rest same ends]

theorem tuple_takes (derived : Derives list (.items items))
    (accepted : Accepted stop list (.items items)) (several : 2 ≤ items.length) :
    Takes (parenthesized stop (type stop)) marks (list ++ [.symbol .rightParen])
      (.tuple items) := by
  have takes : Takes (tuple stop (type stop)) marks (list ++ [.symbol .rightParen])
      (.tuple items) := by
    refine (Takes.of_turns accepted).bind ?_ (by simp)
    simp only [if_neg (Nat.not_lt.mpr several)]
    exact .expect (.nil fun _ _ => rfl)
  intro used rest same ends
  unfold parenthesized
  split
  next offset tail starts =>
    split
    next result found =>
      obtain ⟨first, closer, rfl, rfl, _⟩ := List.map_eq_append_iff.mp same
      cases first with
      | nil => exact absurd rfl (derived.ne_nil (by simp))
      | cons next inner =>
        rw [List.append_assoc] at starts
        cases starts
        exact absurd found (not_function_of_items derived several result)
    next => exact takes used rest same ends
  next => exact takes used rest same ends

theorem record_takes {fields : List (String × Template)}
    (derived : Derives list (.fields fields)) (accepted : Accepted stop list (.fields fields)) :
    Takes (record stop (type stop)) marks
      (.symbol .leftBrace :: (list ++ [.symbol .rightBrace])) (.record fields) := by
  refine .expect fun used rest same ends => ?_
  split
  next offset behind starts =>
    obtain ⟨token, others, name, rfl, named⟩ := derived.exists_fieldName
    obtain ⟨next, tail, rfl, rfl, _⟩ := List.map_eq_cons_iff.mp same
    cases starts
    cases named
  next =>
    exact (Takes.of_turns accepted).bind (.expect (.nil fun _ _ => rfl)) (by simp) used rest same
      ends

theorem field_takes (named : FieldName token name)
    (accepted : Accepted stop list (.type template)) :
    Takes (field stop (type stop)) [.leftParen, .leftBrace]
      (token :: .symbol .colon :: list) (name, template) := by
  cases named with
  | word => exact .cons fun _ => .expect (accepted.last fun _ => rfl)
  | quoted => exact .cons fun _ => .expect (accepted.last fun _ => rfl)

theorem commaSeparatedFrom_one (turns : Nat)
    (takes : Takes item [.leftParen, .leftBrace] list first) :
    Takes (commaSeparatedFrom item turns) [.leftParen, .leftBrace, .comma] list [first] := by
  have inner : Takes item [.leftParen, .leftBrace, .comma] list first := takes.mono (by simp)
  cases turns with
  | zero => exact inner.last fun _ => rfl
  | succ turns =>
    intro used rest same ends
    refine except_bind_eq_ok.mpr ⟨_, inner used rest same ends, ?_⟩
    dsimp only
    split
    next offset tail => exact absurd rfl (ends .comma (by simp) _ _)
    next => rfl

theorem commaSeparatedFrom_more {others : List α} {more : List Token}
    (takes : Takes item [.leftParen, .leftBrace] list first)
    (later : ∀ turns, more.length ≤ turns → Takes (commaSeparatedFrom item turns) marks more others)
    (turns : Nat) (enough : (list ++ .symbol .comma :: more).length ≤ turns) :
    Takes (commaSeparatedFrom item turns) marks (list ++ .symbol .comma :: more)
      (first :: others) := by
  cases turns with
  | zero => simp at enough
  | succ turns =>
    rw [List.length_append, List.length_cons] at enough
    exact takes.bind (.cons fun _ => (later turns (by omega)).last fun _ => rfl) (by simp)

/-- By induction on the derivation: each kind of phrase is read by the reader for it. -/
theorem accepted_of_derives {phrase : Phrase} (derived : Derives list phrase) :
    Accepted stop list phrase := by
  induction derived with
  | plainNumber =>
    refine takes_keyword .number (.nil fun rest ends => ?_)
    dsimp only [number]
    split
    next => exact absurd rfl (ends .leftBrace (by simp) _ _)
    next => rfl
  | number unit =>
    refine takes_keyword .number (.cons fun _ => ?_)
    exact (unit_takes unit).bind (.expect (.nil fun _ _ => rfl)) (by simp)
  | text => exact takes_keyword .text (.nil fun _ _ => rfl)
  | boolean => exact takes_keyword .boolean (.nil fun _ _ => rfl)
  | date kind => exact takes_keyword (.date kind) (.nil fun _ _ => rfl)
  | var name => exact takes_type (.cons fun _ => .cons fun _ => .nil fun _ _ => rfl)
  | array _ ih =>
    exact takes_type (.cons fun _ => ih.bind (.expect (.nil fun _ _ => rfl)) (by simp))
  | constant _ ih =>
    refine takes_function (.cons fun _ => .expect ?_)
    exact ih.bind (.expect (.nil fun _ _ => rfl)) (by simp)
  | function params _ paramsIh ih =>
    refine takes_function ((params_takes params paramsIh).bind ?_ (by simp))
    exact .expect (.expect (ih.bind (.expect (.nil fun _ _ => rfl)) (by simp)))
  | tuple items several ih => exact takes_type (.cons fun _ => tuple_takes items ih several)
  | emptyRecord =>
    exact takes_keyword .record (.cons fun _ => .cons fun _ => .nil fun _ _ => rfl)
  | record fields ih => exact takes_keyword .record (record_takes fields ih)
  | tagged name _ ih =>
    exact takes_keyword .tagged (.cons fun _ => (Takes.of_turns ih).last fun _ => rfl)
  | item _ ih => exact fun turns _ => commaSeparatedFrom_one turns ih
  | items _ _ ih restIh => exact commaSeparatedFrom_more ih restIh
  | field named _ ih => exact fun turns _ => commaSeparatedFrom_one turns (field_takes named ih)
  | fields named _ _ ih restIh => exact commaSeparatedFrom_more (field_takes named ih) restIh
  | noOperands =>
    refine fun turns _ => .nil fun rest ends => ?_
    unfold operandsFrom
    split
    next => exact absurd rfl (ends .leftParen (by simp) _ _)
    next => exact absurd rfl (ends .leftBrace (by simp) _ _)
    next => rfl
  | typeOperand _ _ ih restIh =>
    rintro (_ | turns) enough
    · simp at enough
    simp only [List.length_cons, List.length_append] at enough
    have later := restIh turns (by omega)
    exact .cons fun _ => ih.bind (.expect (later.last fun _ => rfl)) (by simp)
  | unitOperand unit _ restIh =>
    rintro (_ | turns) enough
    · simp at enough
    simp only [List.length_cons, List.length_append] at enough
    have later := restIh turns (by omega)
    exact .cons fun _ => (unit_takes unit).bind (.expect (later.last fun _ => rfl)) (by simp)

theorem whole_eq_ok {read : Nat → Reader α} {text : String} {value : α} :
    whole read text = .ok value ↔
      ∃ tokens, Token.readAll text = .ok tokens ∧
        read (Token.width text.toList) tokens = .ok (value, []) := by
  constructor
  · intro found
    obtain ⟨tokens, lexed, parsed⟩ := except_bind_eq_ok.mp found
    obtain ⟨⟨first, rest⟩, read, ended⟩ := except_bind_eq_ok.mp parsed
    refine ⟨tokens, lexed, ?_⟩
    cases rest with
    | nil =>
      cases ended
      exact read
    | cons => exact absurd ended unexpected_ne_ok
  · rintro ⟨tokens, lexed, found⟩
    refine except_bind_eq_ok.mpr ⟨_, lexed, ?_⟩
    exact except_bind_eq_ok.mpr ⟨_, found, rfl⟩

end Reading

open Grammar

variable {text : String}

theorem UnitTemplate.parse_eq_ok {unit : UnitTemplate} :
    UnitTemplate.parse text = .ok unit ↔
      ∃ tokens, Token.readAll text = .ok tokens ∧
        DerivesUnit (tokens.map LocatedToken.token) unit := by
  refine Reading.whole_eq_ok.trans (exists_congr fun tokens => and_congr_right fun _ => ?_)
  constructor
  · intro found
    obtain ⟨used, rfl, derived⟩ := Reading.unit_reads.ok found
    rwa [List.append_nil]
  · intro derived
    rw [← List.append_nil tokens]
    exact Reading.unit_takes derived _ _ rfl (Reading.notNext_nil _)

theorem Template.parse_eq_ok {template : Template} :
    Template.parse text = .ok template ↔
      ∃ tokens, Token.readAll text = .ok tokens ∧
        Derives (tokens.map LocatedToken.token) (.type template) := by
  refine Reading.whole_eq_ok.trans (exists_congr fun tokens => and_congr_right fun _ => ?_)
  constructor
  · intro found
    obtain ⟨used, rfl, derived⟩ := (Reading.type_alike rfl).ok found
    rwa [List.append_nil]
  · intro derived
    rw [← List.append_nil tokens]
    exact Reading.accepted_of_derives derived _ _ rfl (Reading.notNext_nil _)

/-- Reading a list of tokens gives one type, and it gives every type that the grammar derives. -/
theorem Grammar.Derives.unique {list : List Token} {first second : Template}
    (one : Derives list (.type first)) (other : Derives list (.type second)) : first = second := by
  have located : (list.map (LocatedToken.mk · 0)).map LocatedToken.token = list := by
    simp [Function.comp_def]
  have read {template : Template} (derived : Derives list (.type template)) :
      Reading.type 0 (list.map (LocatedToken.mk · 0) ++ []) = .ok (template, []) :=
    Reading.accepted_of_derives derived _ _ located (Reading.notNext_nil _)
  injection (read one).symm.trans (read other) with same
  injection same

/-- A text is read as a type exactly if the grammar derives the type from all its tokens, and no
list of tokens stands for two types. -/
theorem Template.parse_iff_derives (text : String) (template : Template) :
    (Template.parse text = .ok template ↔
      ∃ tokens, Token.readAll text = .ok tokens ∧
        Derives (tokens.map LocatedToken.token) (.type template)) ∧
    ∀ list other, Derives list (.type template) → Derives list (.type other) →
      other = template :=
  ⟨Template.parse_eq_ok, fun _ _ derived second => second.unique derived⟩

end SheetTypes
