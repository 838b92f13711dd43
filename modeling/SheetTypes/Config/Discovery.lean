import SheetTypes.Config
import SheetTypes.Files

set_option autoImplicit false

namespace SheetTypes.Config

def load {m : Type → Type} [Monad m] (read : FileReader m) (path : String) :
    m (Except ConfigError Config) := do
  match ← read path with
  | .error error => return .error (.unreadable error.message)
  | .ok text => return parse text

def fileNames : List String := [".jellyrc", ".jellyrc.toml"]

def within (config : Config) (directory : String) : Config :=
  { config with registry := config.registry.map (Path.join directory) }

def candidates (directory : String) : List (String × String) :=
  (Path.allAncestors directory).flatMap fun ancestor =>
    fileNames.map fun name => (ancestor, name)

def firstOf {m : Type → Type} [Monad m] (read : FileReader m) :
    List (String × String) → m (Option Config)
  | [] => return none
  | (directory, name) :: others => do
      match ← load read (Path.join directory name) with
      | .ok config => return some (config.within directory)
      | .error _ => firstOf read others

def discover {m : Type → Type} [Monad m] (read : FileReader m) (directory : String) :
    m (Option Config) :=
  firstOf read (candidates directory)

end SheetTypes.Config
