import SheetTypes.Json
import SheetTypes.Toml.Word

/-!
The text of strings and keys in TOML. Of the four ways to quote a string the first one is taken that
needs no escapes, and if there is none, the string is written with escapes.
-/

set_option autoImplicit false

namespace SheetTypes.Toml

inductive Quotation where
  | basic
  | literal
  | tripleBasic
  | tripleLiteral
deriving DecidableEq

namespace Quotation

def delimiter : Quotation → String
  | basic => "\""
  | literal => "'"
  | tripleBasic => "\"\"\""
  | tripleLiteral => "'''"

def isTriple : Quotation → Bool
  | basic | literal => false
  | tripleBasic | tripleLiteral => true

end Quotation

def needsEscape (c : Char) : Bool := (c.toNat < 32 && c != '\t' && c != '\n') || c.toNat == 127

/-- The length of the longest run of a character, where a run of the given length comes first. -/
def longestRun (quote : Char) : Nat → List Char → Nat
  | run, [] => run
  | run, c :: rest =>
      if c == quote then longestRun quote (run + 1) rest else max run (longestRun quote 0 rest)

def quotationFor (chars : List Char) : Quotation :=
  let plain := !chars.any needsEscape
  let straight := plain && !chars.contains '\\'
  let broken := chars.contains '\n'
  let doubles := longestRun '"' 0 chars
  let singles := longestRun '\'' 0 chars
  if straight && doubles == 0 && !broken then .basic
  else if plain && singles == 0 && !broken then .literal
  else if straight && doubles ≤ 2 then .tripleBasic
  else if plain && singles ≤ 2 then .tripleLiteral
  else if broken then .tripleBasic
  else .basic

def escapeChar (triple : Bool) (c : Char) : List Char :=
  if c = '\\' then ['\\', '\\']
  else if c = '\n' then (if triple then ['\n'] else ['\\', 'n'])
  else if c = '\t' then ['\\', 't']
  else if c = '\r' then ['\\', 'r']
  else if c.toNat = 8 then ['\\', 'b']
  else if c.toNat = 12 then ['\\', 'f']
  else if needsEscape c then
    ['\\', 'u', '0', '0', (Json.hexDigit (c.toNat / 16)).toUpper,
      (Json.hexDigit (c.toNat % 16)).toUpper]
  else [c]

/-- A string with escapes. Between triple quotes two quotes in a row need none; the number says how
many quotes stand right before. -/
def escapeChars (triple : Bool) : Nat → List Char → List Char
  | _, [] => []
  | quotes, c :: rest =>
      if c = '"' then
        if triple && quotes < 2 then '"' :: escapeChars triple (quotes + 1) rest
        else '\\' :: '"' :: escapeChars triple 0 rest
      else escapeChar triple c ++ escapeChars triple 0 rest

/-- The text of a string. Between triple quotes a string with line breaks starts on a new line. -/
def renderString (text : String) : String :=
  let chars := text.toList
  let quotation := quotationFor chars
  let start := if quotation.isTriple && chars.contains '\n' then "\n" else ""
  let body :=
    match quotation with
    | .basic | .tripleBasic => String.ofList (escapeChars quotation.isTriple 0 chars)
    | .literal | .tripleLiteral => text
  quotation.delimiter ++ start ++ body ++ quotation.delimiter

def renderKey (key : String) : String :=
  if !key.isEmpty && key.toList.all isKeyChar then key
  else "\"" ++ String.ofList (escapeChars false 0 key.toList) ++ "\""

end SheetTypes.Toml
