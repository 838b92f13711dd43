import SheetTypes.Template.Token
import SheetTypes.Proofs.Exponents
import SheetTypes.Template

/-!
The grammar of the text of types and units, as a relation between lists of tokens and what they
stand for. It says nothing about how a text is read: no order of alternatives, no look at what
follows. Between the parentheses of a type, parentheses are balanced, so a list of tokens tells
where an open parenthesis is closed.
-/

set_option autoImplicit false

namespace SheetTypes

inductive UnitBase where
  | name (text : String)
  | var (text : String)
deriving DecidableEq

def UnitTemplate.exponentOf (unit : UnitTemplate) : UnitBase → Int
  | .name text => unit.names.exponent text
  | .var text => unit.vars.exponent text

def totalPower (base : UnitBase) : List (UnitBase × Int) → Int
  | [] => 0
  | (other, number) :: powers => (if other = base then number else 0) + totalPower base powers

/-- A unit is the product of powers, and so is a unit for the first few of them each: no exponent
passes the limit on the way. -/
structure IsProduct (powers : List (UnitBase × Int)) (unit : UnitTemplate) : Prop where
  exponents : ∀ base, unit.exponentOf base = totalPower base powers
  partials : ∀ first, first <+: powers → ∀ base, WithinLimit (totalPower base first)

namespace Grammar

inductive Base : List Token → UnitBase → Prop
  | name (text : String) : Base [.word text] (.name text)
  | var (text : String) : Base [.marker "UNITVAR", .word text] (.var text)

inductive Power : List Token → Int → Prop
  | plain : Power [] 1
  | above (value : Nat) : value ≤ exponentLimit → Power [.symbol .caret, .integer value] value
  | below (value : Nat) : value ≤ exponentLimit →
      Power [.symbol .caret, .symbol .minus, .integer value] (-value)

inductive Factor : List Token → UnitBase × Int → Prop
  | mk {baseTokens powerTokens : List Token} {base : UnitBase} {number : Int} :
      Base baseTokens base → Power powerTokens number →
      Factor (baseTokens ++ powerTokens) (base, number)

inductive Factors : List Token → List (UnitBase × Int) → Prop
  | nil : Factors [] []
  | times {tokens rest : List Token} {base : UnitBase} {number : Int}
      {powers : List (UnitBase × Int)} :
      Factor tokens (base, number) → Factors rest powers →
      Factors (.symbol .star :: (tokens ++ rest)) ((base, number) :: powers)
  | divided {tokens rest : List Token} {base : UnitBase} {number : Int}
      {powers : List (UnitBase × Int)} :
      Factor tokens (base, number) → Factors rest powers →
      Factors (.symbol .slash :: (tokens ++ rest)) ((base, -number) :: powers)

inductive Product : List Token → List (UnitBase × Int) → Prop
  | one {tokens : List Token} {powers : List (UnitBase × Int)} :
      Factors tokens powers → Product (.integer 1 :: tokens) powers
  | factor {tokens rest : List Token} {power : UnitBase × Int}
      {powers : List (UnitBase × Int)} :
      Factor tokens power → Factors rest powers → Product (tokens ++ rest) (power :: powers)

/-- Tokens stand for a unit if they are a product whose exponents keep within the limit. -/
def DerivesUnit (tokens : List Token) (unit : UnitTemplate) : Prop :=
  ∃ powers, Product tokens powers ∧ IsProduct powers unit

/-- What tokens can stand for: a type, one or more types or fields with commas between them, or the
operands of a tagged type. -/
inductive Phrase where
  | type (template : Template)
  | items (items : List Template)
  | fields (fields : List (String × Template))
  | operands (operands : List (Operand Template UnitTemplate))

inductive FieldName : Token → String → Prop
  | word (text : String) : FieldName (.word text) text
  | quoted (text : String) : FieldName (.quoted text) text

inductive Derives : List Token → Phrase → Prop
  | plainNumber : Derives [.word "NUMBER"] (.type (.number .scalar))
  | number {tokens : List Token} {unit : UnitTemplate} : DerivesUnit tokens unit →
      Derives (.word "NUMBER" :: .symbol .leftBrace :: (tokens ++ [.symbol .rightBrace]))
        (.type (.number unit))
  | text : Derives [.word "TEXT"] (.type .text)
  | boolean : Derives [.word "BOOLEAN"] (.type .boolean)
  | date (kind : DateKind) : Derives [.word kind.keyword] (.type (.date kind))
  | var (name : String) : Derives [.marker "TYPEVAR", .word name] (.type (.var name))
  | array {tokens : List Token} {item : Template} : Derives tokens (.type item) →
      Derives (.symbol .leftBracket :: (tokens ++ [.symbol .rightBracket])) (.type (.array item))
  | constant {tokens : List Token} {result : Template} : Derives tokens (.type result) →
      Derives (.symbol .leftParen :: .symbol .leftParen :: .symbol .rightParen :: .symbol .arrow ::
          (tokens ++ [.symbol .rightParen]))
        (.type (.function [] result))
  | function {paramTokens tokens : List Token} {params : List Template} {result : Template} :
      Derives paramTokens (.items params) → Derives tokens (.type result) →
      Derives (.symbol .leftParen :: .symbol .leftParen :: (paramTokens ++
          .symbol .rightParen :: .symbol .arrow :: (tokens ++ [.symbol .rightParen])))
        (.type (.function params result))
  | tuple {tokens : List Token} {items : List Template} : Derives tokens (.items items) →
      2 ≤ items.length →
      Derives (.symbol .leftParen :: (tokens ++ [.symbol .rightParen])) (.type (.tuple items))
  | emptyRecord :
      Derives [.word "RECORD", .symbol .leftBrace, .symbol .rightBrace] (.type (.record []))
  | record {tokens : List Token} {fields : List (String × Template)} :
      Derives tokens (.fields fields) →
      Derives (.word "RECORD" :: .symbol .leftBrace :: (tokens ++ [.symbol .rightBrace]))
        (.type (.record fields))
  | tagged {tokens : List Token} (name : String) {operands : List (Operand Template UnitTemplate)} :
      Derives tokens (.operands operands) →
      Derives (.word "TAGGED" :: .quoted name :: tokens) (.type (.tagged name operands))
  | item {tokens : List Token} {item : Template} : Derives tokens (.type item) →
      Derives tokens (.items [item])
  | items {tokens rest : List Token} {item : Template} {items : List Template} :
      Derives tokens (.type item) → Derives rest (.items items) →
      Derives (tokens ++ .symbol .comma :: rest) (.items (item :: items))
  | field {token : Token} {tokens : List Token} {name : String} {type : Template} :
      FieldName token name → Derives tokens (.type type) →
      Derives (token :: .symbol .colon :: tokens) (.fields [(name, type)])
  | fields {token : Token} {tokens rest : List Token} {name : String} {type : Template}
      {fields : List (String × Template)} :
      FieldName token name → Derives tokens (.type type) → Derives rest (.fields fields) →
      Derives (token :: .symbol .colon :: (tokens ++ .symbol .comma :: rest))
        (.fields ((name, type) :: fields))
  | noOperands : Derives [] (.operands [])
  | typeOperand {tokens rest : List Token} {value : Template}
      {operands : List (Operand Template UnitTemplate)} :
      Derives tokens (.type value) → Derives rest (.operands operands) →
      Derives (.symbol .leftParen :: (tokens ++ .symbol .rightParen :: rest))
        (.operands (.type value :: operands))
  | unitOperand {tokens rest : List Token} {value : UnitTemplate}
      {operands : List (Operand Template UnitTemplate)} :
      DerivesUnit tokens value → Derives rest (.operands operands) →
      Derives (.symbol .leftBrace :: (tokens ++ .symbol .rightBrace :: rest))
        (.operands (.unit value :: operands))

/-- What follows the parenthesis that closes the outermost of the given number of open ones. -/
def outside : Nat → List Token → List Token
  | 0, tokens => tokens
  | _ + 1, [] => []
  | depth + 1, .symbol .leftParen :: tokens => outside (depth + 2) tokens
  | depth + 1, .symbol .rightParen :: tokens => outside depth tokens
  | depth + 1, _ :: tokens => outside (depth + 1) tokens

def Balanced (tokens : List Token) : Prop :=
  ∀ depth rest, outside (depth + 1) (tokens ++ rest) = outside (depth + 1) rest

theorem Balanced.nil : Balanced [] := fun _ _ => rfl

theorem Balanced.append {left right : List Token} (first : Balanced left)
    (second : Balanced right) : Balanced (left ++ right) := by
  intro depth rest
  rw [List.append_assoc, first, second]

variable {list tokens : List Token} {token : Token}

theorem Balanced.cons (left : token ≠ .symbol .leftParen) (right : token ≠ .symbol .rightParen)
    (balanced : Balanced tokens) : Balanced (token :: tokens) := by
  intro depth rest
  rw [List.cons_append, outside, balanced]
  · intro same
    exact left same
  · intro same
    exact right same

theorem Balanced.single (left : token ≠ .symbol .leftParen) (right : token ≠ .symbol .rightParen) :
    Balanced [token] :=
  .cons left right .nil

theorem Balanced.parens (balanced : Balanced tokens) :
    Balanced (.symbol .leftParen :: (tokens ++ [.symbol .rightParen])) := by
  intro depth rest
  rw [List.cons_append, List.append_assoc, outside, balanced]
  rfl

private theorem Base.balanced {base : UnitBase} (derived : Base tokens base) : Balanced tokens := by
  cases derived with
  | name text => exact .single (by simp) (by simp)
  | var text => exact .cons (by simp) (by simp) (.single (by simp) (by simp))

private theorem Power.balanced {number : Int} (derived : Power tokens number) :
    Balanced tokens := by
  cases derived with
  | plain => exact .nil
  | above value _ => exact .cons (by simp) (by simp) (.single (by simp) (by simp))
  | below value _ =>
    exact .cons (by simp) (by simp) (.cons (by simp) (by simp) (.single (by simp) (by simp)))

private theorem Factor.balanced {power : UnitBase × Int} (derived : Factor tokens power) :
    Balanced tokens := by
  cases derived with
  | mk base power => exact base.balanced.append power.balanced

private theorem Factors.balanced {powers : List (UnitBase × Int)}
    (derived : Factors tokens powers) : Balanced tokens := by
  induction derived with
  | nil => exact .nil
  | times factor _ ih => exact .cons (by simp) (by simp) (factor.balanced.append ih)
  | divided factor _ ih => exact .cons (by simp) (by simp) (factor.balanced.append ih)

theorem DerivesUnit.balanced {unit : UnitTemplate} (derived : DerivesUnit tokens unit) :
    Balanced tokens := by
  obtain ⟨powers, product, _⟩ := derived
  cases product with
  | one factors => exact .cons (by simp) (by simp) factors.balanced
  | factor first factors => exact first.balanced.append factors.balanced

private theorem FieldName.balanced {name : String} (named : FieldName token name) :
    Balanced [token] := by
  cases named with
  | word text => exact .single (by simp) (by simp)
  | quoted text => exact .single (by simp) (by simp)

theorem Derives.balanced {phrase : Phrase} (derived : Derives tokens phrase) : Balanced tokens := by
  have mark {symbol : Symbol} (left : symbol ≠ .leftParen) (right : symbol ≠ .rightParen) :
      Balanced [.symbol symbol] :=
    .single (by simpa using left) (by simpa using right)
  have word (text : String) : Balanced [.word text] := .single (by simp) (by simp)
  induction derived with
  | plainNumber => exact word _
  | number unit =>
    exact (word _).append ((mark (by simp) (by simp)).append
      (unit.balanced.append (mark (by simp) (by simp))))
  | text => exact word _
  | boolean => exact word _
  | date kind => exact word _
  | var name => exact .cons (by simp) (by simp) (word _)
  | array _ ih => exact (mark (by simp) (by simp)).append (ih.append (mark (by simp) (by simp)))
  | constant _ ih =>
    have arrow : Balanced [.symbol .arrow] := mark (by simp) (by simp)
    simpa using (Balanced.nil.parens.append (arrow.append ih)).parens
  | function _ _ paramsIh ih =>
    have arrow : Balanced [.symbol .arrow] := mark (by simp) (by simp)
    simpa using (paramsIh.parens.append (arrow.append ih)).parens
  | tuple _ _ ih => exact ih.parens
  | emptyRecord =>
    exact (word _).append ((mark (by simp) (by simp)).append (mark (by simp) (by simp)))
  | record _ ih =>
    exact (word _).append ((mark (by simp) (by simp)).append
      (ih.append (mark (by simp) (by simp))))
  | tagged name _ ih => exact (word _).append (.cons (by simp) (by simp) ih)
  | item _ ih => exact ih
  | items _ _ ih restIh => exact ih.append ((mark (by simp) (by simp)).append restIh)
  | field named _ ih => exact named.balanced.append ((mark (by simp) (by simp)).append ih)
  | fields named _ _ ih restIh =>
    exact named.balanced.append ((mark (by simp) (by simp)).append
      (ih.append ((mark (by simp) (by simp)).append restIh)))
  | noOperands => exact .nil
  | typeOperand _ _ ih restIh => simpa using ih.parens.append restIh
  | unitOperand unit _ ih =>
    exact (mark (by simp) (by simp)).append
      (unit.balanced.append ((mark (by simp) (by simp)).append ih))

/-- What follows the parenthesis that closes one before balanced tokens. -/
theorem Balanced.outside_closed {rest : List Token} (balanced : Balanced tokens) :
    outside 1 (tokens ++ .symbol .rightParen :: rest) = rest := by
  rw [balanced, outside, outside]

theorem Balanced.not_closing : ¬Balanced (.symbol .rightParen :: tokens) := by
  intro balanced
  have closed := balanced 0 [.symbol .comma]
  simp [outside] at closed

theorem Derives.ne_nil {phrase : Phrase} (derived : Derives list phrase)
    (hasTokens : ∀ operands, phrase ≠ .operands operands) : list ≠ [] := by
  induction derived with
  | item _ ih => exact ih (by simp)
  | noOperands => exact absurd rfl (hasTokens [])
  | _ => simp

theorem Factor.ne_nil {power : UnitBase × Int} (derived : Factor list power) : list ≠ [] := by
  cases derived with
  | mk based _ => cases based <;> simp

theorem Product.ne_nil {powers : List (UnitBase × Int)} (derived : Product list powers) :
    list ≠ [] := by
  cases derived with
  | one _ => simp
  | factor first _ => simp [first.ne_nil]

theorem Derives.exists_fieldName {fields : List (String × Template)}
    (derived : Derives list (.fields fields)) :
    ∃ token tail name, list = token :: tail ∧ FieldName token name := by
  cases derived with
  | field named _ => exact ⟨_, _, _, rfl, named⟩
  | fields named _ _ => exact ⟨_, _, _, rfl, named⟩

/-- A type that is derived from an opening parenthesis on ends with the parenthesis that closes
it. -/
theorem Derives.closed {template : Template}
    (derived : Derives (.symbol .leftParen :: list) (.type template)) :
    ∃ inner, list = inner ++ [.symbol .rightParen] ∧ Balanced inner := by
  have arrow : Balanced [.symbol .arrow] := .single (by simp) (by simp)
  generalize same : Token.symbol .leftParen :: list = whole at derived
  cases derived with
  | constant result =>
    cases same
    exact ⟨_, rfl, Balanced.nil.parens.append (arrow.append result.balanced)⟩
  | function params result =>
    cases same
    refine ⟨_, ?_, params.balanced.parens.append (arrow.append result.balanced)⟩
    simp
  | tuple items several =>
    cases same
    exact ⟨_, rfl, items.balanced⟩
  | _ => cases same

end Grammar

end SheetTypes
