import SheetTypes.Session
import SheetTypes.Toml.Parser
import SheetTypes.Toml.Printer

/-!
Configurations: where the registry file lies, how checks behave and how results are shown. They
are kept as TOML documents; members that are missing have their defaults and members that are not
known are ignored.
-/

set_option autoImplicit false

namespace SheetTypes

open Toml (Fault wellFormed)

inductive OutputFormat where
  | default
  | json
  | compact
deriving DecidableEq

namespace OutputFormat

def keyword : OutputFormat → String
  | default => "default"
  | json => "json"
  | compact => "compact"

def all : List OutputFormat := [default, json, compact]

def ofKeyword? (word : String) : Option OutputFormat :=
  all.find? fun format => format.keyword == word

def ofToml (value : Toml) : Except Fault OutputFormat := do
  let (name, details?) ← wellFormed value.choice?
  match ofKeyword? name with
  | none => .error (.unknownChoice name (all.map keyword))
  | some format => if details?.all Toml.isEmpty then .ok format else .error .malformed

end OutputFormat

structure Config where
  registry : Option String := none
  allowDefaults : Bool := true
  maxErrors : Nat := 100
  showHints : Bool := true
  format : OutputFormat := .default
  abortOnInternal : Bool := true
  /-- The number of workers that a batch is checked with, zero for the workers that there are. -/
  workers : Nat := 0
deriving DecidableEq

inductive ConfigError where
  | unreadable (reason : String)
  | malformed (fault : Fault)

def ConfigError.message : ConfigError → String
  | unreadable reason => "Failed to read config: " ++ reason
  | malformed fault => "Failed to parse config: " ++ fault.message

namespace Config

def checkOptions (config : Config) : CheckOptions :=
  ⟨config.allowDefaults, config.maxErrors, config.abortOnInternal⟩

def putInfer (config : Config) : String × Toml → Except Fault Config
  | ("allow_defaulting", value) => do
      return { config with allowDefaults := ← wellFormed value.asBoolean? }
  | _ => .ok config

def putErrors (config : Config) : String × Toml → Except Fault Config
  | ("max_errors", value) => do return { config with maxErrors := ← wellFormed value.asNat? }
  | ("show_suggestions", value) => do
      return { config with showHints := ← wellFormed value.asBoolean? }
  | ("format", value) => do return { config with format := ← OutputFormat.ofToml value }
  | _ => .ok config

def putInternal (config : Config) : String × Toml → Except Fault Config
  | ("panic_on_internal_error", value) => do
      return { config with abortOnInternal := ← wellFormed value.asBoolean? }
  | _ => .ok config

def putParallel (config : Config) : String × Toml → Except Fault Config
  | ("workers", value) => do return { config with workers := ← wellFormed value.asNat? }
  | _ => .ok config

def putSection (names : List String) (put : Config → String × Toml → Except Fault Config)
    (config : Config) (value : Toml) : Except Fault Config := do
  (← wellFormed (value.members? names)).foldlM put config

def putMember (config : Config) : String × Toml → Except Fault Config
  | ("registry", value) => do
      return { config with registry := some (← wellFormed value.asString?) }
  | ("infer", value) => putSection ["allow_defaulting"] putInfer config value
  | ("errors", value) =>
      putSection ["max_errors", "show_suggestions", "format"] putErrors config value
  | ("internal", value) => putSection ["panic_on_internal_error"] putInternal config value
  | ("parallel", value) => putSection ["workers"] putParallel config value
  | _ => .ok config

def parse (text : String) : Except ConfigError Config :=
  let result : Except Fault Config := do
    let document ← Toml.parse text
    putSection [] putMember {} document
  match result with
  | .ok config => .ok config
  | .error fault => .error (.malformed fault)

def booleanText : Bool → String
  | true => "true"
  | false => "false"

def render (config : Config) : String :=
  let registry :=
    match config.registry with
    | none => ""
    | some path => "registry = " ++ Toml.renderString path ++ "\n\n"
  registry ++
    "[infer]\n" ++
    "allow_defaulting = " ++ booleanText config.allowDefaults ++ "\n\n" ++
    "[errors]\n" ++
    "max_errors = " ++ toString config.maxErrors ++ "\n" ++
    "show_suggestions = " ++ booleanText config.showHints ++ "\n" ++
    "format = " ++ Toml.renderString config.format.keyword ++ "\n\n" ++
    "[internal]\n" ++
    "panic_on_internal_error = " ++ booleanText config.abortOnInternal ++ "\n\n" ++
    "[parallel]\n" ++
    "workers = " ++ toString config.workers ++ "\n"

end Config

end SheetTypes
