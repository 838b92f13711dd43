import SheetTypes.Toml.Printer

/-!
The tables of a TOML document as they grow line by line. A table may be opened once by a header of
its own; the tables on the way to it come into being with it and may still get a header later.
Dotted keys open tables too, and only dotted keys may extend those. Of an array of tables the last
table grows; a dotted key may go through it but not end in it.
-/

set_option autoImplicit false

namespace SheetTypes.Toml

/-- What a table owes its existence to: a header that names a table inside it, a dotted key, or a
header of its own. -/
inductive TableOrigin where
  | passed
  | dotted
  | declared
deriving DecidableEq

/-- A member of a growing table: a finished value, a table, or an array of tables. -/
inductive Node where
  | value (value : Toml)
  | table (origin : TableOrigin) (members : List (String × Node))
  | tables (rows : List (List (String × Node)))

namespace Node

mutual

def toToml : Node → Toml
  | .value finished => finished
  | .table _ members => .table (membersToToml members)
  | .tables rows => .array (rowsToToml rows)

def membersToToml : List (String × Node) → List (String × Toml)
  | [] => []
  | (name, node) :: members => (name, toToml node) :: membersToToml members

def rowsToToml : List (List (String × Node)) → List Toml
  | [] => []
  | row :: rows => .table (membersToToml row) :: rowsToToml rows

end

end Node

abbrev Members := List (String × Node)

namespace Members

def replace (members : Members) (name : String) (node : Node) : Members :=
  members.map fun entry => if entry.1 == name then (name, node) else entry

def replaceLast (members : Members) (name : String) (rows : List Members) (row : Members) :
    Members :=
  members.replace name (.tables (rows.dropLast ++ [row]))

structure Pair where
  path : List String
  key : String
  value : Toml

/-- Adds a pair behind the tables that its dotted key goes through: those in `passed` it has gone
through already, and the others are still ahead. The table that the pair is written in has a path,
unless it is written in one line. -/
def putValue (table : Option (List String)) (pair : Pair) (passed : List String) :
    List String → Members → Except Fault Members
  | [], members =>
      match members.lookup pair.key with
      | some _ => .error (.duplicateKey pair.key table)
      | none => .ok (members ++ [(pair.key, .value pair.value)])
  | step :: path, members =>
      match members.lookup step with
      | none => do
          let inner ← putValue table pair (passed ++ [step]) path []
          return members ++ [(step, .table .dotted inner)]
      | some (.table origin inner) =>
          if origin = .declared then .error (.duplicateKey step none)
          else if path.isEmpty ∧ origin = .passed then .error (.duplicateKey pair.key none)
          else do
            let inner ← putValue table pair (passed ++ [step]) path inner
            return members.replace step (.table origin inner)
      | some (.tables rows) =>
          if path.isEmpty then .error (.duplicateKey pair.key none)
          else do
            let row ← wellFormed rows.getLast?
            let row ← putValue table pair (passed ++ [step]) path row
            return members.replaceLast step rows row
      | some (.value value) =>
          match table, value with
          | none, .table _ => .error (.duplicateKey step none)
          | _, _ => .error (.notTable (passed ++ [step]) value.kind)

def putPairs (table : Option (List String)) (pairs : List Pair) (members : Members) :
    Except Fault Members :=
  pairs.foldlM (fun members pair => putValue table pair [] pair.path members) members

/-- Changes the table at the end of a path of headers; of an array of tables the last one. -/
def alterAt (change : Members → Except Fault Members) (passed : List String) :
    List String → Members → Except Fault Members
  | [], members => change members
  | step :: path, members =>
      match members.lookup step with
      | none => do
          let inner ← alterAt change (passed ++ [step]) path []
          return members ++ [(step, .table .passed inner)]
      | some (.table origin inner) => do
          let inner ← alterAt change (passed ++ [step]) path inner
          return members.replace step (.table origin inner)
      | some (.tables rows) => do
          let row ← wellFormed rows.getLast?
          let row ← alterAt change (passed ++ [step]) path row
          return members.replaceLast step rows row
      | some (.value value) => .error (.notTable (passed ++ [step]) value.kind)

end Members

structure Section where
  isRow : Bool
  path : List String
  key : String
  pairs : List Members.Pair

namespace Section

def fill (part : Section) (members : Members) : Except Fault Members :=
  members.putPairs (some (part.path ++ [part.key])) part.pairs

def taken (part : Section) : Fault := .duplicateKey (renderKey part.key) (some part.path)

def putTable (part : Section) (members : Members) : Except Fault Members :=
  match members.lookup part.key with
  | none => do
      let table ← part.fill []
      return members ++ [(part.key, .table .declared table)]
  | some (.table .passed inner) => do
      let table ← part.fill inner
      return members.filter (fun entry => entry.1 != part.key) ++
        [(part.key, .table .declared table)]
  | some _ => .error part.taken

def putRow (part : Section) (members : Members) : Except Fault Members :=
  match members.lookup part.key with
  | none => do return members ++ [(part.key, .tables [← part.fill []])]
  | some (.tables rows) => do
      return members.replace part.key (.tables (rows ++ [← part.fill []]))
  | some _ => .error part.taken

def addTo (part : Section) (root : Members) : Except Fault Members :=
  root.alterAt (if part.isRow then part.putRow else part.putTable) [] part.path

end Section

/-- The document with the given lines before the first header, and the given sections. The first
line that does not fit decides the fault. -/
def assemble (pairs : List Members.Pair) (sections : List Section) : Except Fault Toml := do
  let root ← Members.putPairs (some []) pairs []
  let root ← sections.foldlM (fun root part => part.addTo root) root
  return .table (Node.membersToToml root)

end SheetTypes.Toml
