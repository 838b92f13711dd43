import SheetTypes.Config
import SheetTypes.Diagnostic.Record
import SheetTypes.Template.Token
import SheetTypes.Text.Blank

set_option autoImplicit false

namespace SheetTypes.CommandLine

inductive Refusal where
  | parse (error : ParseError)
  | type (error : TypeError)

structure Outcome where
  input : String
  result : Except Refusal String

structure Report where
  exit : Nat
  output : String := ""
  errors : String := ""
deriving DecidableEq

namespace Outcome

def ofResult (input : String) : Except TypeError ConcreteType → Outcome
  | .ok type => ⟨input, .ok type.render⟩
  | .error error => ⟨input, .error (.type error)⟩

def succeeded (outcome : Outcome) : Bool :=
  match outcome.result with
  | .ok _ => true
  | .error _ => false

def places (outcome : Outcome) : List Place :=
  match outcome.result with
  | .error (.type error) => error.places
  | _ => []

def toJson (number : Place → Nat) (outcome : Outcome) : Json :=
  let shown :=
    match outcome.result with
    | .ok text => ("type", Json.string text)
    | .error (.type error) => ("errors", .array [error.toJson number])
    | .error (.parse error) =>
        ("parse_error",
          .object [("offset", .integer error.offset), ("message", .string error.reason)])
  .object [("input", .string outcome.input), shown]

/-- Numbers places from one on, in the order in which they first occur. -/
def numberIn (places : List Place) (place : Place) : Nat := places.eraseDups.idxOf place + 1

def document (outcomes : List Outcome) : String :=
  let number := numberIn (outcomes.flatMap places)
  (Json.array (outcomes.map (toJson number))).pretty 0 ++ "\n"

def refusalText (config : Config) (input : String) : Refusal → String
  | .parse error => input ++ ": parse error " ++ error.message
  | .type error =>
      if config.format = .compact ∨ ¬config.showHints then input ++ ": " ++ error.message
      else String.ofList (Text.trimEnd (input ++ ": " ++ error.report).toList)

inductive Color where
  | green
  | red

def Color.start : Color → String
  | green => "\x1b[32m"
  | red => "\x1b[31m"

def line (colored : Bool) (color : Color) (text : String) : String :=
  if colored then color.start ++ text ++ "\x1b[0m\n" else text ++ "\n"

def outputLine (colored : Bool) (outcome : Outcome) : String :=
  match outcome.result with
  | .ok text => line colored .green (outcome.input ++ ": " ++ text)
  | .error _ => ""

def errorLine (config : Config) (colored : Bool) (outcome : Outcome) : String :=
  match outcome.result with
  | .ok _ => ""
  | .error refusal => line colored .red (refusalText config outcome.input refusal)

def report (config : Config) (colored : Bool) (outcomes : List Outcome) : Report :=
  let exit := if outcomes.all succeeded then 0 else 1
  if config.format = .json then ⟨exit, document outcomes, ""⟩
  else
    ⟨exit, String.join (outcomes.map (outputLine colored)),
      String.join (outcomes.map (errorLine config colored))⟩

end Outcome

end SheetTypes.CommandLine
