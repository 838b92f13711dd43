import SheetTypes.Text.Blank
import SheetTypes.Text.Word

/-!
Tokens of the text of types and units. Positions are byte offsets into the text, counted in its
UTF-8 form.
-/

set_option autoImplicit false

namespace SheetTypes

inductive Symbol where
  | leftParen
  | rightParen
  | leftBracket
  | rightBracket
  | leftBrace
  | rightBrace
  | comma
  | colon
  | arrow
  | star
  | slash
  | caret
  | minus
deriving DecidableEq

namespace Symbol

def text : Symbol → String
  | leftParen => "("
  | rightParen => ")"
  | leftBracket => "["
  | rightBracket => "]"
  | leftBrace => "\x7b"
  | rightBrace => "\x7d"
  | comma => ","
  | colon => ":"
  | arrow => "->"
  | star => "*"
  | slash => "/"
  | caret => "^"
  | minus => "-"

def ofChar? : Char → Option Symbol
  | '(' => some leftParen
  | ')' => some rightParen
  | '[' => some leftBracket
  | ']' => some rightBracket
  | '\x7b' => some leftBrace
  | '\x7d' => some rightBrace
  | ',' => some comma
  | ':' => some colon
  | '*' => some star
  | '/' => some slash
  | '^' => some caret
  | _ => none

end Symbol

inductive Token where
  | word (text : String)
  | marker (name : String)
  | quoted (text : String)
  | integer (value : Nat)
  | symbol (mark : Symbol)
deriving DecidableEq

def Token.text : Token → String
  | .word text => "'" ++ text ++ "'"
  | .marker name => "'@" ++ name ++ "'"
  | .quoted text => "\"" ++ text ++ "\""
  | .integer value => "'" ++ toString value ++ "'"
  | .symbol mark => "'" ++ mark.text ++ "'"

structure LocatedToken where
  token : Token
  offset : Nat
deriving DecidableEq

inductive Expectation where
  | type
  | typeVariableName
  | fieldName
  | quotedTypeName
  | tupleComma
  | unit
  | unitVariableName
  | exponent
  | symbol (mark : Symbol)
  | endOfInput
deriving DecidableEq

def Expectation.text : Expectation → String
  | .type => "a type"
  | .typeVariableName => "a type variable name"
  | .fieldName => "a field name"
  | .quotedTypeName => "a quoted type name"
  | .tupleComma => "',' (tuples have at least two items)"
  | .unit => "a unit"
  | .unitVariableName => "a unit variable name"
  | .exponent => "an exponent"
  | .symbol mark => (Token.symbol mark).text
  | .endOfInput => "end of input"

inductive ParseProblem where
  | unterminatedString
  | missingMarker
  | integerTooLarge (digits : String)
  | unexpectedCharacter (c : Char)
  | unexpected (expected : Expectation) (found : Option Token)
  | exponentOutOfRange
deriving DecidableEq

def ParseProblem.message : ParseProblem → String
  | .unterminatedString => "unterminated string"
  | .missingMarker => "expected a marker after '@'"
  | .integerTooLarge digits => "integer " ++ digits ++ " is too large"
  | .unexpectedCharacter c => "unexpected character '" ++ c.toString ++ "'"
  | .unexpected expected none => "expected " ++ expected.text ++ ", found end of input"
  | .unexpected expected (some token) => "expected " ++ expected.text ++ ", found " ++ token.text
  | .exponentOutOfRange => "exponent out of range"

structure ParseError where
  offset : Nat
  problem : ParseProblem
deriving DecidableEq

def ParseError.reason (error : ParseError) : String := error.problem.message

def ParseError.message (error : ParseError) : String :=
  "at offset " ++ toString error.offset ++ ": " ++ error.reason

namespace Token

def width : List Char → Nat
  | [] => 0
  | c :: rest => c.utf8Size + width rest

def integerLimit : Nat := 9223372036854775807

inductive Unclosed where
  | noQuote
  | afterBackslash

/-- Reads the rest of a quoted text: its content, and what follows the closing quote. A backslash
takes the next character as it is. -/
def readQuoted : List Char → Except Unclosed (List Char × List Char)
  | [] => .error .noQuote
  | '"' :: rest => .ok ([], rest)
  | ['\\'] => .error .afterBackslash
  | '\\' :: c :: rest => do
      let (content, rest) ← readQuoted rest
      return (c :: content, rest)
  | c :: rest => do
      let (content, rest) ← readQuoted rest
      return (c :: content, rest)

/-- Reads one token that starts with the given character, which is not blank. `offset` is the
position of this character and `stop` the end of the text. -/
def readOne (stop offset : Nat) (c : Char) (rest : List Char) :
    Except ParseError (Token × List Char) :=
  match Symbol.ofChar? c with
  | some mark => .ok (.symbol mark, rest)
  | none =>
      if c = '-' then
        match rest with
        | '>' :: rest => .ok (.symbol .arrow, rest)
        | rest => .ok (.symbol .minus, rest)
      else if c = '"' then
        match readQuoted rest with
        | .ok (content, rest) => .ok (.quoted (String.ofList content), rest)
        | .error .noQuote => .error ⟨offset, .unterminatedString⟩
        | .error .afterBackslash => .error ⟨stop, .unterminatedString⟩
      else if c = '@' then
        let name := rest.takeWhile Text.continuesWord
        if name.isEmpty then .error ⟨offset, .missingMarker⟩
        else .ok (.marker (String.ofList name), rest.dropWhile Text.continuesWord)
      else if Text.isDigit c then
        let digits := c :: rest.takeWhile Text.isDigit
        let value := Text.ofDigits digits
        if value ≤ integerLimit then .ok (.integer value, rest.dropWhile Text.isDigit)
        else .error ⟨offset, .integerTooLarge (String.ofList digits)⟩
      else if Text.startsWord c then
        .ok (.word (String.ofList (c :: rest.takeWhile Text.continuesWord)),
          rest.dropWhile Text.continuesWord)
      else .error ⟨offset, .unexpectedCharacter c⟩

/-- Reads all tokens of the remaining characters; `steps` bounds their number. -/
def readFrom (stop : Nat) : Nat → List Char → Except ParseError (List LocatedToken)
  | 0, _ => .ok []
  | _ + 1, [] => .ok []
  | steps + 1, c :: rest =>
      if Text.isBlank c then readFrom stop steps rest
      else do
        let offset := stop - width (c :: rest)
        let (token, rest) ← readOne stop offset c rest
        let tokens ← readFrom stop steps rest
        return ⟨token, offset⟩ :: tokens

def readAll (text : String) : Except ParseError (List LocatedToken) :=
  readFrom (width text.toList) text.toList.length text.toList

end Token

end SheetTypes
