/-!
Paths and the reading of files. A program that reads files takes the reader as an argument; a file
tree in memory is one source of readers.
-/

set_option autoImplicit false

namespace SheetTypes

inductive ReadError where
  | notFound
  | notDirectory
  | isDirectory
  | nameTooLong
  | nulInName
  | permissionDenied
  | notText
  | other (message : String)
deriving DecidableEq

def ReadError.message : ReadError → String
  | notFound => "No such file or directory (os error 2)"
  | notDirectory => "Not a directory (os error 20)"
  | isDirectory => "Is a directory (os error 21)"
  | nameTooLong => "File name too long (os error 36)"
  | nulInName => "file name contained an unexpected NUL byte"
  | permissionDenied => "Permission denied (os error 13)"
  | notText => "stream did not contain valid UTF-8"
  | other message => message

abbrev FileReader (m : Type → Type) := String → m (Except ReadError String)

namespace Path

def isAbsolute (path : String) : Bool := path.toList.head? == some '/'

def join (directory path : String) : String :=
  if isAbsolute path then path
  else
    match directory.toList.getLast? with
    | none => path
    | some '/' => directory ++ path
    | some _ => directory ++ "/" ++ path

def trimBackwards : List Char → List Char
  | ['/'] => ['/']
  | '/' :: rest => trimBackwards rest
  | '.' :: '/' :: rest => trimBackwards ('/' :: rest)
  | chars => chars

def parent? (path : String) : Option String :=
  match trimBackwards path.toList.reverse with
  | [] => none
  | ['/'] => none
  | chars =>
      some (String.ofList (trimBackwards (chars.dropWhile fun c => c != '/')).reverse)

def ancestors : Nat → String → List String
  | 0, _ => []
  | count + 1, directory =>
      match parent? directory with
      | none => [directory]
      | some parent => directory :: ancestors count parent

/-- All directories from one to the root: each is shorter than the one before. -/
def allAncestors (directory : String) : List String := ancestors (directory.length + 1) directory

def parts : List Char → List (List Char)
  | [] => [[]]
  | c :: rest =>
      if c == '/' then [] :: parts rest
      else
        match parts rest with
        | [] => [[c]]
        | part :: others => (c :: part) :: others

def steps (path : String) : List String := (parts path.toList).map String.ofList

def nameLimit : Nat := 255

def pathLimit : Nat := 4095

def fault? (path : String) : Option ReadError :=
  if path.toList.contains (Char.ofNat 0) then some .nulInName
  else if path.isEmpty then some .notFound
  else if path.utf8ByteSize > pathLimit then some .nameTooLong
  else none

end Path

/-- Files in memory, and directories that may be empty, by the names that lead to them from the
root. -/
structure FileTree where
  files : List (List String × String)
  directories : List (List String)

namespace FileTree

def staysPut (step : String) : Bool := step == "" || step == "."

def follow (place : List String) (step : String) : List String :=
  if staysPut step then place
  else if step == ".." then place.dropLast
  else place ++ [step]

def visited : List String → List String → List (List String)
  | place, [] => [place]
  | place, step :: rest => place :: visited (follow place step) rest

def location (path : String) : List String := (Path.steps path).foldl follow []

def directPath (path : String) : String := "/" ++ String.intercalate "/" (location path)

/-- Files and directories given by their paths from the root. The directories that a path goes
through exist as well. -/
def ofPaths (files : List (String × String)) (directories : List String) : FileTree where
  files := files.map fun file => (location file.1, file.2)
  directories :=
    (files.flatMap fun file => visited [] (Path.steps file.1).dropLast) ++
      directories.flatMap fun path => visited [] (Path.steps path)

def isDirectory (tree : FileTree) (place : List String) : Bool :=
  place.isEmpty || tree.directories.any place.isPrefixOf ||
    tree.files.any fun file => place.isPrefixOf file.1 && place != file.1

def readFrom (tree : FileTree) : List String → List String → Except ReadError String
  | _, [] => .error .isDirectory
  | place, step :: rest =>
      if step.utf8ByteSize > Path.nameLimit then .error .nameTooLong
      else
        let next := follow place step
        match tree.files.lookup next with
        | some text => if rest.isEmpty then .ok text else .error .notDirectory
        | none => if tree.isDirectory next then readFrom tree next rest else .error .notFound

def read (tree : FileTree) (directory path : String) : Except ReadError String :=
  match Path.fault? path with
  | some error => .error error
  | none =>
      let start := if Path.isAbsolute path then [] else location directory
      tree.readFrom start (Path.steps path)

end FileTree

end SheetTypes
