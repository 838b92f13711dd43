import SheetTypes.Template
import SheetTypes.Template.Token

/-!
Reading templates and units from text.

    type   := NUMBER ['{' unit '}'] | TEXT | BOOLEAN | date keyword
            | '@TYPEVAR' word | '[' type ']'
            | '(' '(' [type {',' type}] ')' '->' type ')'
            | '(' type ',' type {',' type} ')'
            | RECORD '{' [name ':' type {',' name ':' type}] '}'
            | TAGGED quoted { '(' type ')' | '{' unit '}' }
    unit   := ('1' | factor) { ('*' | '/') factor }
    factor := (word | '@UNITVAR' word) ['^' ['-'] integer]

Every reader takes the tokens that are left and returns what it has read together with the tokens
behind it. `stop` is the offset of the end of the text.
-/

set_option autoImplicit false

namespace SheetTypes

abbrev Read (α : Type) := α × List LocatedToken

abbrev Reader (α : Type) := List LocatedToken → Except ParseError (Read α)

namespace Reading

def offset (stop : Nat) : List LocatedToken → Nat
  | [] => stop
  | next :: _ => next.offset

def unexpected {α : Type} (stop : Nat) (expected : Expectation) (tokens : List LocatedToken) :
    Except ParseError α :=
  .error ⟨offset stop tokens, .unexpected expected (tokens.head?.map LocatedToken.token)⟩

def expect (stop : Nat) (mark : Symbol) (tokens : List LocatedToken) :
    Except ParseError (List LocatedToken) :=
  match tokens with
  | ⟨.symbol found, _⟩ :: rest =>
      if found = mark then .ok rest else unexpected stop (.symbol mark) tokens
  | _ => unexpected stop (.symbol mark) tokens

def name (stop : Nat) (expected : Expectation) (tokens : List LocatedToken) :
    Except ParseError (Read String) :=
  match tokens with
  | ⟨.word text, _⟩ :: rest => .ok (text, rest)
  | _ => unexpected stop expected tokens

def commaSeparatedFrom {α : Type} (item : Reader α) :
    Nat → Reader (List α)
  | 0, tokens => do
      let (first, rest) ← item tokens
      return ([first], rest)
  | steps + 1, tokens => do
      let (first, rest) ← item tokens
      match rest with
      | ⟨.symbol .comma, _⟩ :: rest =>
          let (others, rest) ← commaSeparatedFrom item steps rest
          return (first :: others, rest)
      | rest => return ([first], rest)

def commaSeparated {α : Type} (item : Reader α)
    (tokens : List LocatedToken) : Except ParseError (Read (List α)) :=
  commaSeparatedFrom item tokens.length tokens

def base (stop : Nat) (tokens : List LocatedToken) : Except ParseError (Read UnitTemplate) :=
  match tokens with
  | ⟨.word name, _⟩ :: rest => .ok (.named name, rest)
  | ⟨.marker "UNITVAR", _⟩ :: rest => do
      let (name, rest) ← name stop .unitVariableName rest
      return (.ofVar name, rest)
  | _ => unexpected stop .unit tokens

def power (stop : Nat) (unit : UnitTemplate) (sign : Int) (tokens : List LocatedToken) :
    Except ParseError (Read UnitTemplate) :=
  match tokens with
  | ⟨.integer value, offset⟩ :: rest =>
      match unit.checkedRaise (sign * value) with
      | some raised => .ok (raised, rest)
      | none => .error ⟨offset, .exponentOutOfRange⟩
  | _ => unexpected stop .exponent tokens

def factor (stop : Nat) (tokens : List LocatedToken) : Except ParseError (Read UnitTemplate) := do
  let (unit, rest) ← base stop tokens
  match rest with
  | ⟨.symbol .caret, _⟩ :: ⟨.symbol .minus, _⟩ :: rest => power stop unit (-1) rest
  | ⟨.symbol .caret, _⟩ :: rest => power stop unit 1 rest
  | rest => return (unit, rest)

def nextFactor (stop : Nat) (unit : UnitTemplate) (sign : Int) (tokens : List LocatedToken) :
    Except ParseError (Read UnitTemplate) := do
  let (next, rest) ← factor stop tokens
  match next.checkedRaise sign >>= unit.checkedMultiply with
  | some product => return (product, rest)
  | none => .error ⟨offset stop tokens, .exponentOutOfRange⟩

def factorsFrom (stop : Nat) : Nat → UnitTemplate → Reader UnitTemplate
  | steps + 1, unit, ⟨.symbol .star, _⟩ :: rest => do
      let (product, rest) ← nextFactor stop unit 1 rest
      factorsFrom stop steps product rest
  | steps + 1, unit, ⟨.symbol .slash, _⟩ :: rest => do
      let (product, rest) ← nextFactor stop unit (-1) rest
      factorsFrom stop steps product rest
  | _, unit, tokens => .ok (unit, tokens)

def unit (stop : Nat) (tokens : List LocatedToken) : Except ParseError (Read UnitTemplate) :=
  match tokens with
  | ⟨.integer 1, _⟩ :: rest => factorsFrom stop rest.length .scalar rest
  | _ => do
      let (first, rest) ← factor stop tokens
      factorsFrom stop rest.length first rest

inductive Keyword where
  | number
  | text
  | boolean
  | record
  | tagged
  | date (kind : DateKind)
deriving DecidableEq

def Keyword.ofWord? (word : String) : Option Keyword :=
  match DateKind.ofKeyword? word with
  | some kind => some (.date kind)
  | none =>
      if word = "NUMBER" then some .number
      else if word = "TEXT" then some .text
      else if word = "BOOLEAN" then some .boolean
      else if word = "RECORD" then some .record
      else if word = "TAGGED" then some .tagged
      else none

def number (stop : Nat) (tokens : List LocatedToken) : Except ParseError (Read Template) :=
  match tokens with
  | ⟨.symbol .leftBrace, _⟩ :: rest => do
      let (unit, rest) ← unit stop rest
      let rest ← expect stop .rightBrace rest
      return (.number unit, rest)
  | _ => .ok (.number .scalar, tokens)

def tuple (stop : Nat) (type : Reader Template) (tokens : List LocatedToken) :
    Except ParseError (Read Template) := do
  let (items, rest) ← commaSeparated type tokens
  if items.length < 2 then unexpected stop .tupleComma rest
  let rest ← expect stop .rightParen rest
  return (.tuple items, rest)

def params (type : Reader Template) (tokens : List LocatedToken) :
    Except ParseError (Read (List Template)) :=
  match tokens with
  | ⟨.symbol .rightParen, _⟩ :: _ => .ok ([], tokens)
  | _ => commaSeparated type tokens

def function (stop : Nat) (type : Reader Template) (tokens : List LocatedToken) :
    Except ParseError (Read Template) := do
  let (params, rest) ← params type tokens
  let rest ← expect stop .rightParen rest
  let rest ← expect stop .arrow rest
  let (result, rest) ← type rest
  let rest ← expect stop .rightParen rest
  return (.function params result, rest)

/-- Reads what follows an opening parenthesis. After a second one a function is tried first and
given up at the first token that does not fit; all else is a tuple. -/
def parenthesized (stop : Nat) (type : Reader Template) (tokens : List LocatedToken) :
    Except ParseError (Read Template) :=
  match tokens with
  | ⟨.symbol .leftParen, _⟩ :: rest =>
      match function stop type rest with
      | .ok result => .ok result
      | .error _ => tuple stop type tokens
  | _ => tuple stop type tokens

def field (stop : Nat) (type : Reader Template) (tokens : List LocatedToken) :
    Except ParseError (Read (String × Template)) :=
  match tokens with
  | ⟨.word name, _⟩ :: rest | ⟨.quoted name, _⟩ :: rest => do
      let rest ← expect stop .colon rest
      let (type, rest) ← type rest
      return ((name, type), rest)
  | _ => unexpected stop .fieldName tokens

def record (stop : Nat) (type : Reader Template) (tokens : List LocatedToken) :
    Except ParseError (Read Template) := do
  let rest ← expect stop .leftBrace tokens
  match rest with
  | ⟨.symbol .rightBrace, _⟩ :: rest => return (.record [], rest)
  | rest =>
      let (fields, rest) ← commaSeparated (field stop type) rest
      let rest ← expect stop .rightBrace rest
      return (.record fields, rest)

def operandsFrom (stop : Nat) (type : Reader Template) :
    Nat → Reader (List (Operand Template UnitTemplate))
  | steps + 1, ⟨.symbol .leftParen, _⟩ :: rest => do
      let (value, rest) ← type rest
      let rest ← expect stop .rightParen rest
      let (operands, rest) ← operandsFrom stop type steps rest
      return (.type value :: operands, rest)
  | steps + 1, ⟨.symbol .leftBrace, _⟩ :: rest => do
      let (value, rest) ← unit stop rest
      let rest ← expect stop .rightBrace rest
      let (operands, rest) ← operandsFrom stop type steps rest
      return (.unit value :: operands, rest)
  | _, tokens => .ok ([], tokens)

def tagged (stop : Nat) (type : Reader Template) (tokens : List LocatedToken) :
    Except ParseError (Read Template) :=
  match tokens with
  | ⟨.quoted name, _⟩ :: rest => do
      let (operands, rest) ← operandsFrom stop type rest.length rest
      return (.tagged name operands, rest)
  | _ => unexpected stop .quotedTypeName tokens

def typeOver (stop : Nat) (type : Reader Template) (tokens : List LocatedToken) :
    Except ParseError (Read Template) :=
  match tokens with
  | ⟨.word word, _⟩ :: rest =>
      match Keyword.ofWord? word with
      | some .number => number stop rest
      | some .text => .ok (.text, rest)
      | some .boolean => .ok (.boolean, rest)
      | some (.date kind) => .ok (.date kind, rest)
      | some .record => record stop type rest
      | some .tagged => tagged stop type rest
      | none => unexpected stop .type tokens
  | ⟨.marker "TYPEVAR", _⟩ :: rest => do
      let (name, rest) ← name stop .typeVariableName rest
      return (.var name, rest)
  | ⟨.symbol .leftBracket, _⟩ :: rest => do
      let (item, rest) ← type rest
      let rest ← expect stop .rightBracket rest
      return (.array item, rest)
  | ⟨.symbol .leftParen, _⟩ :: rest => parenthesized stop type rest
  | _ => unexpected stop .type tokens

/-- Reads a type; `levels` bounds how deep types nest. -/
def typeWithin (stop : Nat) : Nat → Reader Template
  | 0 => unexpected stop .type
  | levels + 1 => typeOver stop (typeWithin stop levels)

/-- Reads a type. Each level takes at least one token, so their number bounds the nesting. -/
def type (stop : Nat) (tokens : List LocatedToken) : Except ParseError (Read Template) :=
  typeWithin stop tokens.length tokens

def whole {α : Type} (read : Nat → Reader α) (text : String) :
    Except ParseError α := do
  let stop := Token.width text.toList
  let tokens ← Token.readAll text
  let (value, rest) ← read stop tokens
  match rest with
  | [] => return value
  | rest => unexpected stop .endOfInput rest

end Reading

def Template.parse (text : String) : Except ParseError Template := Reading.whole Reading.type text

def UnitTemplate.parse (text : String) : Except ParseError UnitTemplate :=
  Reading.whole Reading.unit text

inductive GroundUnitError where
  | unreadable (error : ParseError)
  | hasVariables (text : String)

def GroundUnitError.message : GroundUnitError → String
  | unreadable error => error.message
  | hasVariables _ => "unit variables are not allowed here"

def GroundUnit.parse (text : String) : Except GroundUnitError GroundUnit :=
  match UnitTemplate.parse text with
  | .error error => .error (.unreadable error)
  | .ok unit =>
      match unit.ground? with
      | none => .error (.hasVariables text)
      | some ground => .ok ground

end SheetTypes
