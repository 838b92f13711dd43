import SheetTypes.Registry.File
import SheetTypes.Toml.Parser

/-!
Registry files: TOML documents with the arrays of tables `unit` and `type`. Members that are not
known are ignored. The first member that cannot be read, in the order of the text, decides the
error.
-/

set_option autoImplicit false

namespace SheetTypes

open Toml (Fault wellFormed)

def readRecords {α : Type} (read : Toml → Except Fault α) (value : Toml) :
    Except Fault (List α) := do
  (← wellFormed value.asArray?).mapM read

namespace UnitEntry

structure Draft where
  name : Option String := none
  scale : Option String := none
  base : Option String := none

def Draft.put (draft : Draft) : String × Toml → Except Fault Draft
  | ("name", value) => do return { draft with name := some (← wellFormed value.asString?) }
  | ("scale", value) => do return { draft with scale := some (← wellFormed value.asString?) }
  | ("base", value) => do return { draft with base := some (← wellFormed value.asString?) }
  | _ => .ok draft

def ofToml (value : Toml) : Except Fault UnitEntry := do
  let members ← wellFormed (value.members? ["name", "scale", "base"])
  let draft ← members.foldlM Draft.put {}
  return ⟨← wellFormed draft.name, draft.scale, draft.base⟩

end UnitEntry

namespace Tag

structure Draft where
  name : Option String := none
  payload : Option Template := none

def readPayload (text : String) : Except Fault Template :=
  match Template.parse text with
  | .ok payload => .ok payload
  | .error error => .error (.refused error.message)

def Draft.put (draft : Draft) : String × Toml → Except Fault Draft
  | ("name", value) => do return { draft with name := some (← wellFormed value.asString?) }
  | ("payload", value) => do
      return { draft with payload := some (← readPayload (← wellFormed value.asString?)) }
  | _ => .ok draft

def ofToml (value : Toml) : Except Fault Tag := do
  let members ← wellFormed (value.members? ["name", "payload"])
  let draft ← members.foldlM Draft.put {}
  return ⟨← wellFormed draft.name, draft.payload⟩

end Tag

namespace TypeEntry

structure Draft where
  name : Option String := none
  params : List String := []
  tags : List Tag := []

def readParam (value : Toml) : Except Fault String := wellFormed value.asString?

def Draft.put (draft : Draft) : String × Toml → Except Fault Draft
  | ("name", value) => do return { draft with name := some (← wellFormed value.asString?) }
  | ("params", value) => do return { draft with params := ← readRecords readParam value }
  | ("tag", value) => do return { draft with tags := ← readRecords Tag.ofToml value }
  | _ => .ok draft

def ofToml (value : Toml) : Except Fault TypeEntry := do
  let members ← wellFormed (value.members? ["name", "params", "tag"])
  let draft ← members.foldlM Draft.put {}
  return ⟨← wellFormed draft.name, draft.params, draft.tags⟩

end TypeEntry

namespace RegistryFile

def empty : RegistryFile := ⟨[], []⟩

def put (file : RegistryFile) : String × Toml → Except Fault RegistryFile
  | ("unit", value) => do return { file with units := ← readRecords UnitEntry.ofToml value }
  | ("type", value) => do return { file with types := ← readRecords TypeEntry.ofToml value }
  | _ => .ok file

def subject : String := "registry file"

def parse (text : String) : Except RegistryError RegistryFile :=
  let result : Except Fault RegistryFile := do
    let document ← Toml.parse text
    let members ← wellFormed (document.members? [])
    members.foldlM put empty
  match result with
  | .ok file => .ok file
  | .error fault => .error (.unreadable subject fault.message)

end RegistryFile

end SheetTypes
