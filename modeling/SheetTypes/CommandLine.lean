import SheetTypes.CommandLine.Arguments
import SheetTypes.CommandLine.Outcome
import SheetTypes.Config.Discovery
import SheetTypes.Registry.FileFormat

/-!
The command line: reads the configuration and the registry, carries out the command, and says what
is to be printed. Files are read through the reader that the caller gives, and the caller also says
what comes of starting workers.
-/

set_option autoImplicit false

namespace SheetTypes.CommandLine

inductive Stop where
  | usage (error : UsageError)
  | config (error : ConfigError)
  | registry (path : String) (error : RegistryError)
  | workers (message : String)
  | abort (message : String)

def Stop.message : Stop → String
  | usage error => error.message
  | config error => error.message
  | registry path error => "Failed to load registry " ++ path ++ ": " ++ error.message
  | workers message => "Failed to start workers: " ++ message
  | abort message => message

abbrev Run (m : Type → Type) := ExceptT Stop m

section

variable {m : Type → Type} [Monad m]

def baseConfig (read : FileReader m) (directory : String) (options : Options) : Run m Config := do
  match options.config with
  | some path =>
      match ← (Config.load read path : m _) with
      | .ok config => return config
      | .error error => throw (.config error)
  | none =>
      let config? ← (Config.discover read directory : m _)
      return config?.getD {}

def Options.over (options : Options) (config : Config) : Config :=
  { config with
    allowDefaults := config.allowDefaults && !options.noDefaults
    format := if options.json then .json else config.format
    registry := options.registry.or config.registry }

def readRegistry (read : FileReader m) (path : String) : m (Except RegistryError Registry) := do
  match ← read path with
  | .error error => return .error (.inaccessible (path ++ ": " ++ error.message))
  | .ok text =>
      match RegistryFile.parse text with
      | .error error => return .error error
      | .ok file =>
          match file.declare.run .builtin with
          | (.ok _, registry) => return .ok registry
          | (.error error, _) => return .error error

def loadRegistry (read : FileReader m) (config : Config) : Run m Registry := do
  match config.registry with
  | none => return .builtin
  | some path =>
      match ← (readRegistry read path : m _) with
      | .ok registry => return registry
      | .error error => throw (.registry path error)

end

/-- The type or the error of a check; giving up ends the whole run. -/
def settle : Except Failure ConcreteType → Except Stop (Except TypeError ConcreteType)
  | .ok type => .ok (.ok type)
  | .error (.error error) => .ok (.error error)
  | .error (.abort message) => .error (.abort message)

/-- The inputs of a batch: a slot for the outcome of each, which is filled already where the input
cannot be read, and the templates of the other inputs with the positions of their slots. -/
structure Batch where
  slots : List (Option Outcome) := []
  templates : List (String × Template) := []
  positions : List Nat := []

namespace Batch

def label (position : Nat) : String := "input" ++ toString position

def add (batch : Batch) (input : String) : Batch :=
  let position := batch.slots.length
  match Template.parse input with
  | .error error =>
      { batch with slots := batch.slots ++ [some ⟨input, .error (.parse error)⟩] }
  | .ok template =>
      ⟨batch.slots ++ [none], batch.templates ++ [(label position, template)],
        batch.positions ++ [position]⟩

def ofInputs (inputs : List String) : Batch := inputs.foldl add {}

def put (inputs : List String) (positions : List Nat) (slots : List (Option Outcome))
    (result : Except TypeError ConcreteType × Nat) : List (Option Outcome) :=
  match positions[result.2]? with
  | none => slots
  | some position =>
      slots.set position (inputs[position]?.map fun input => .ofResult input result.1)

def fill (inputs : List String) (batch : Batch) (results : List (Except TypeError ConcreteType)) :
    List (Option Outcome) :=
  results.zipIdx.foldl (put inputs batch.positions) batch.slots

end Batch

def checkInputs (start : StartWorkers) (registry : Registry) (config : Config)
    (inputs : List String) : Except Stop (List Outcome) := do
  let batch := Batch.ofInputs inputs
  let checked := checkBatch start registry config.checkOptions config.workers batch.templates
  let results ← (← checked.mapError .workers).mapM settle
  return (batch.fill inputs results).filterMap id

def unifyTemplates (left right : Template) : Annotating ConcreteType := do
  let first ← Session.instantiateWith "left" left
  let second ← Session.instantiateWith "right" right
  let finish : Checking ConcreteType := do
    let unified ← Session.unifyAt [.node "left" 0, .node "right" 0] first second
    Session.concretize unified
  let result ← (finish.run : StateM Session _)
  ExceptT.mk (pure result)

def unifyInputs (registry : Registry) (options : CheckOptions) (left right : String) :
    Except Stop Outcome :=
  let input := left ++ " ~ " ++ right
  match Template.parse left, Template.parse right with
  | .error error, _ | .ok _, .error error => .ok ⟨input, .error (.parse error)⟩
  | .ok first, .ok second =>
      let ((result, _), _) :=
        ((unifyTemplates first second).run.run .empty).run (.start registry options)
      (settle result).map (.ofResult input)

def canonInput (registry : Registry) (input : String) : Outcome :=
  match UnitTemplate.parse input with
  | .error error => ⟨input, .error (.parse error)⟩
  | .ok unit =>
      match unit.ground? with
      | none => ⟨input, .error (.type (.ofCause (.unresolvedVariable unit.render)))⟩
      | some ground =>
          match registry.canonicalize ground with
          | .ok form => ⟨input, .ok form.render⟩
          | .error error => ⟨input, .error (.type error)⟩

def execute (start : StartWorkers) (registry : Registry) (config : Config) (colored : Bool) :
    Command → Except Stop Report
  | .check inputs => do
      let outcomes ← checkInputs start registry config inputs
      return Outcome.report config colored outcomes
  | .unify left right => do
      let outcome ← unifyInputs registry config.checkOptions left right
      return Outcome.report config colored [outcome]
  | .canon unit => return Outcome.report config colored [canonInput registry unit]
  | .config => return ⟨0, Config.render {}, ""⟩

def run {m : Type → Type} [Monad m] (read : FileReader m) (start : StartWorkers)
    (directory : String) (arguments : List String) : m (Except Stop Report) :=
  ExceptT.run do
    let invocation ←
      match Invocation.parse arguments with
      | .ok invocation => pure invocation
      | .error error => throw (.usage error)
    let config := invocation.options.over (← baseConfig read directory invocation.options)
    let registry ← loadRegistry read config
    ExceptT.mk (pure (execute start registry config invocation.options.color invocation.command))

def finish : Except Stop Report → Report
  | .ok report => report
  | .error (.abort message) => ⟨101, "", message ++ "\n"⟩
  | .error stop => ⟨2, "", "Error: " ++ stop.message ++ "\n"⟩

end SheetTypes.CommandLine
