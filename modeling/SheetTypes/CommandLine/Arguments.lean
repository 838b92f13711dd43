set_option autoImplicit false

namespace SheetTypes.CommandLine

inductive Command where
  | check (types : List String)
  | unify (left right : String)
  | canon (unit : String)
  | config
deriving DecidableEq

structure Options where
  registry : Option String := none
  config : Option String := none
  noDefaults : Bool := false
  json : Bool := false
  verbose : Bool := false
  color : Bool := true
deriving DecidableEq

structure Invocation where
  command : Command
  options : Options
deriving DecidableEq

inductive UsageError where
  | help
  | missingPath (option : String)
  | unknownOption (option : String)
  | unknownCommand (command : String)
  | checkNeedsTypes
  | unifyNeedsTwoTypes
  | canonNeedsUnit
deriving DecidableEq

def usage : String :=
  "Usage: jelly-infer [OPTIONS] <COMMAND>\n\n" ++
  "Commands:\n" ++
  "  check <type>...   Concretize jelly types\n" ++
  "  unify <a> <b>     Unify two jelly types sharing variable names\n" ++
  "  canon <unit>      Canonicalize a unit\n" ++
  "  config            Print the default configuration\n\n" ++
  "Options:\n" ++
  "  --registry FILE   Registry file declaring units and tagged types\n" ++
  "  --config FILE     Configuration file (default: nearest .jellyrc)\n" ++
  "  --no-default      Report unconstrained variables instead of defaulting\n" ++
  "  --json            Print results as JSON\n" ++
  "  --verbose         Log inference steps to stderr\n" ++
  "  --no-color        Disable colored output"

def UsageError.message : UsageError → String
  | help => usage
  | missingPath option => option ++ " requires an argument"
  | unknownOption option => "Unknown option: " ++ option ++ "\n\n" ++ usage
  | unknownCommand command => "Unknown command: " ++ command ++ "\n\n" ++ usage
  | checkNeedsTypes => "check requires at least one type"
  | unifyNeedsTwoTypes => "unify requires exactly two types"
  | canonNeedsUnit => "canon requires exactly one unit"

/-- Separates the options from the other arguments, which keep their order. The first option that
is not known decides; of an option that is given twice the last one counts. -/
def splitOptions (options : Options) : List String → Except UsageError (Options × List String)
  | [] => .ok (options, [])
  | "--registry" :: path :: rest => splitOptions { options with registry := some path } rest
  | "--config" :: path :: rest => splitOptions { options with config := some path } rest
  | argument :: rest =>
      if argument = "--registry" ∨ argument = "--config" then .error (.missingPath argument)
      else if argument = "--no-default" then splitOptions { options with noDefaults := true } rest
      else if argument = "--json" then splitOptions { options with json := true } rest
      else if argument = "--verbose" ∨ argument = "-v" then
        splitOptions { options with verbose := true } rest
      else if argument = "--no-color" then splitOptions { options with color := false } rest
      else if argument = "--help" ∨ argument = "-h" then .error .help
      else if ['-', '-'].isPrefixOf argument.toList then .error (.unknownOption argument)
      else do
        let (options, others) ← splitOptions options rest
        return (options, argument :: others)

def Command.ofArguments : List String → Except UsageError Command
  | [] => .error .help
  | "check" :: types => if types.isEmpty then .error .checkNeedsTypes else .ok (.check types)
  | "unify" :: operands =>
      match operands with
      | [left, right] => .ok (.unify left right)
      | _ => .error .unifyNeedsTwoTypes
  | "canon" :: operands =>
      match operands with
      | [unit] => .ok (.canon unit)
      | _ => .error .canonNeedsUnit
  | "config" :: _ => .ok .config
  | command :: _ => .error (.unknownCommand command)

def Invocation.parse (arguments : List String) : Except UsageError Invocation := do
  let (options, others) ← splitOptions {} arguments
  return ⟨← Command.ofArguments others, options⟩

end SheetTypes.CommandLine
