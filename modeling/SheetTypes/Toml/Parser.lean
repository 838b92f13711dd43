import SheetTypes.Toml.Section
import SheetTypes.Toml.Word

/-!
Reading TOML text. Readers take the characters that are left and return what they read together
with the rest, or nothing where the text is not well formed; readers of values tell what is wrong.
-/

set_option autoImplicit false

namespace SheetTypes.Toml

abbrev Rest (α : Type) := α × List Char

def isSpace (c : Char) : Bool := c == ' ' || c == '\t'

/-- Whether a character may stand in comments and quoted texts: no control characters but tabs. -/
def isPrintable (c : Char) : Bool := c == '\t' || (32 ≤ c.toNat && c.toNat != 127)

def skipSpaces (chars : List Char) : List Char := chars.dropWhile isSpace

def readBreak? : List Char → Option (List Char)
  | '\n' :: rest => some rest
  | '\r' :: '\n' :: rest => some rest
  | _ => none

def skipComment (chars : List Char) : List Char :=
  match chars with
  | '#' :: rest => rest.dropWhile isPrintable
  | _ => chars

def readLineEnd (chars : List Char) : Option (List Char) :=
  match skipComment (skipSpaces chars) with
  | [] => some []
  | rest => readBreak? rest

/-- Passes blanks, comments and line breaks. No more rounds are needed than there are characters. -/
def skipLines : Nat → List Char → List Char
  | 0, chars => chars
  | rounds + 1, chars =>
      let rest := skipComment (skipSpaces chars)
      match readBreak? rest with
      | some next => skipLines rounds next
      | none => rest

def skipAllLines (chars : List Char) : List Char := skipLines (chars.length + 1) chars

def readCodePoint (digits : Nat) (chars : List Char) : Option (Rest Char) := do
  let values ← (chars.take digits).mapM hexValue?
  let code := values.foldl (fun code value => 16 * code + value) 0
  if values.length = digits ∧ code.isValidChar then
    return (Char.ofNat code, chars.drop digits)
  else none

def readEscape : List Char → Option (Rest Char)
  | 'b' :: rest => some (Char.ofNat 8, rest)
  | 't' :: rest => some ('\t', rest)
  | 'n' :: rest => some ('\n', rest)
  | 'f' :: rest => some (Char.ofNat 12, rest)
  | 'r' :: rest => some ('\r', rest)
  | '"' :: rest => some ('"', rest)
  | '\\' :: rest => some ('\\', rest)
  | 'u' :: rest => readCodePoint 4 rest
  | 'U' :: rest => readCodePoint 8 rest
  | _ => none

def readBasic : Nat → List Char → List Char → Option (Rest String)
  | 0, _, _ => none
  | _ + 1, _, [] => none
  | _ + 1, done, '"' :: rest => some (String.ofList done.reverse, rest)
  | steps + 1, done, '\\' :: rest => do
      let (c, rest) ← readEscape rest
      readBasic steps (c :: done) rest
  | steps + 1, done, c :: rest =>
      if isPrintable c then readBasic steps (c :: done) rest else none

def readLiteral (chars : List Char) : Option (Rest String) :=
  let text := chars.takeWhile fun c => c != '\'' && isPrintable c
  match chars.dropWhile fun c => c != '\'' && isPrintable c with
  | '\'' :: rest => some (String.ofList text, rest)
  | _ => none

/-- The end of a text in triple quotes: up to two quotes before the last three belong to it. -/
def readTripleEnd (quote : Char) (done : List Char) (chars : List Char) :
    Option (Rest String) :=
  let quotes := (chars.takeWhile (· == quote)).length
  if 3 ≤ quotes then
    let inside := min (quotes - 3) 2
    some (String.ofList (List.replicate inside quote ++ done).reverse, chars.drop (inside + 3))
  else none

def skipBlankLines : Nat → List Char → List Char
  | 0, chars => chars
  | rounds + 1, chars =>
      match readBreak? (skipSpaces chars) with
      | some next => skipBlankLines rounds next
      | none => skipSpaces chars

/-- Passes the line break, and all blanks and line breaks after it, that a backslash at the end of
a line hides. -/
def skipHidden (chars : List Char) : Option (List Char) := do
  let rest ← readBreak? (skipSpaces chars)
  return skipBlankLines (rest.length + 1) rest

def readTriple (quote : Char) : Nat → List Char → List Char → Option (Rest String)
  | 0, _, _ => none
  | _ + 1, _, [] => none
  | steps + 1, done, c :: rest =>
      if c == quote then
        match readTripleEnd quote done (c :: rest) with
        | some text => some text
        | none => readTriple quote steps (c :: done) rest
      else if c == '\\' && quote == '"' then
        match skipHidden rest with
        | some rest => readTriple quote steps done rest
        | none => do
            let (escaped, rest) ← readEscape rest
            readTriple quote steps (escaped :: done) rest
      else
        match readBreak? (c :: rest) with
        | some rest => readTriple quote steps ('\n' :: done) rest
        | none => if isPrintable c then readTriple quote steps (c :: done) rest else none

def readQuotedLine : List Char → Option (Rest String)
  | '"' :: rest => readBasic (rest.length + 1) [] rest
  | '\'' :: rest => readLiteral rest
  | _ => none

/-- Reads a text in quotes of any kind. A line break right after three quotes is left out. -/
def readString (chars : List Char) : Option (Rest String) :=
  match chars with
  | '"' :: '"' :: '"' :: rest =>
      readTriple '"' (rest.length + 1) [] ((readBreak? rest).getD rest)
  | '\'' :: '\'' :: '\'' :: rest =>
      readTriple '\'' (rest.length + 1) [] ((readBreak? rest).getD rest)
  | _ => readQuotedLine chars

def readSimpleKey (chars : List Char) : Option (Rest String) :=
  let word := chars.takeWhile isKeyChar
  if word.isEmpty then readQuotedLine chars
  else some (String.ofList word, chars.dropWhile isKeyChar)

def startsKey (chars : List Char) : Bool :=
  chars.head?.any fun c => isKeyChar c || c == '"' || c == '\''

structure Key where
  path : List String
  last : String

/-- The least number of brackets inside one another, or of parts of a key, that is refused. -/
def nestingLimit : Nat := 80

def readKeyParts : Nat → List String → List Char → Option (Rest Key)
  | 0, _, _ => none
  | parts + 1, path, chars => do
      let (part, rest) ← readSimpleKey (skipSpaces chars)
      match skipSpaces rest with
      | '.' :: rest => readKeyParts parts (path ++ [part]) rest
      | rest => return (⟨path, part⟩, rest)

def readKey (chars : List Char) : Option (Rest Key) := readKeyParts (nestingLimit - 1) [] chars

mutual

/-- Reads a value with at most `levels` brackets inside one another. The first number bounds how
often readers call each other. -/
def readValue : Nat → Nat → List Char → Except Fault (Rest Toml)
  | 0, _, _ => .error .malformed
  | _ + 1, _, [] => .error .malformed
  | steps + 1, levels, c :: rest =>
      if c == '"' || c == '\'' then do
        let (text, rest) ← wellFormed (readString (c :: rest))
        return (.string text, rest)
      else if c == '[' then
        match levels with
        | 0 => .error .malformed
        | levels + 1 => do
            let (items, rest) ← readItems steps levels [] (skipAllLines rest)
            return (.array items, rest)
      else if c == '\x7b' then
        match levels with
        | 0 => .error .malformed
        | levels + 1 =>
            match skipSpaces rest with
            | '\x7d' :: rest => .ok (.table [], rest)
            | rest => do
                let (pairs, rest) ← readPairs steps levels [] rest
                let members ← Members.putPairs none pairs []
                match rest with
                | '\x7d' :: rest => return (.table (Node.membersToToml members), rest)
                | _ => .error .malformed
      else wellFormed (readWord (c :: rest))

def readItems : Nat → Nat → List Toml → List Char → Except Fault (Rest (List Toml))
  | 0, _, _, _ => .error .malformed
  | _ + 1, _, items, ']' :: rest => .ok (items, rest)
  | steps + 1, levels, items, chars => do
      let (item, rest) ← readValue steps levels chars
      match skipAllLines rest with
      | ',' :: rest => readItems steps levels (items ++ [item]) (skipAllLines rest)
      | ']' :: rest => return (items ++ [item], rest)
      | _ => .error .malformed

def readPairs : Nat → Nat → List Members.Pair → List Char →
    Except Fault (Rest (List Members.Pair))
  | 0, _, _, _ => .error .malformed
  | steps + 1, levels, pairs, chars => do
      let (pair, rest) ← readPair steps levels chars
      match skipSpaces rest with
      | ',' :: next =>
          if startsKey (skipSpaces next) then readPairs steps levels (pairs ++ [pair]) next
          else return (pairs ++ [pair], ',' :: next)
      | rest => return (pairs ++ [pair], rest)

def readPair : Nat → Nat → List Char → Except Fault (Rest Members.Pair)
  | 0, _, _ => .error .malformed
  | steps + 1, levels, chars => do
      let (key, rest) ← wellFormed (readKey chars)
      match rest with
      | '=' :: rest =>
          let (value, rest) ← readValue steps levels (skipSpaces rest)
          return (⟨key.path, key.last, value⟩, rest)
      | _ => .error .malformed

end

/-- Steps that suffice for any value in a text: at most three for each of its characters. -/
def stepsFor (chars : List Char) : Nat := 3 * chars.length + 3

inductive Line where
  | header (isRow : Bool) (key : Key)
  | pair (pair : Members.Pair)

def readHeader (chars : List Char) : Option (Rest Line) :=
  match chars with
  | '[' :: '[' :: rest => do
      let (key, rest) ← readKey rest
      match rest with
      | ']' :: ']' :: rest => return (.header true key, ← readLineEnd rest)
      | _ => none
  | '[' :: rest => do
      let (key, rest) ← readKey rest
      match rest with
      | ']' :: rest => return (.header false key, ← readLineEnd rest)
      | _ => none
  | _ => none

def readLine (chars : List Char) : Except Fault (Rest Line) := do
  if chars.head? == some '[' then wellFormed (readHeader chars)
  else
    let (pair, rest) ← readPair (stepsFor chars) (nestingLimit - 1) chars
    return (.pair pair, ← wellFormed (readLineEnd rest))

def readLines : Nat → List Char → List Line × Option Fault
  | 0, _ => ([], some .malformed)
  | lines + 1, chars =>
      match skipAllLines chars with
      | [] => ([], none)
      | rest =>
          match readLine rest with
          | .error fault => ([], some fault)
          | .ok (line, rest) =>
              let (others, fault?) := readLines lines rest
              (line :: others, fault?)

def splitSections : List Line → List Members.Pair × List Section
  | [] => ([], [])
  | .pair pair :: lines =>
      let (pairs, sections) := splitSections lines
      (pair :: pairs, sections)
  | .header isRow key :: lines =>
      let (pairs, sections) := splitSections lines
      ([], ⟨isRow, key.path, key.last, pairs⟩ :: sections)

/-- Reads a document: a table. A byte order mark in front is ignored. Lines that do not fit together
count before a later line that cannot be read. -/
def parse (text : String) : Except Fault Toml := do
  let chars :=
    match text.toList with
    | c :: rest => if c.toNat = 65279 then rest else c :: rest
    | [] => []
  let (lines, fault?) := readLines (chars.length + 1) chars
  let (pairs, sections) := splitSections lines
  let document ← assemble pairs sections
  match fault? with
  | some fault => .error fault
  | none => .ok document

end SheetTypes.Toml
