import SheetTypes.Text.Blank
import SheetTypes.Text.Word

/-!
Scales: the exact positive rationals by which one unit exceeds another, and their text. A scale is
written as an integer, as a fraction `n/d` or as a decimal such as `0.3048`.
-/

set_option autoImplicit false

namespace SheetTypes

abbrev Scale := Rat

namespace Scale

/-- The text of a scale: an integer, or a fraction in lowest terms. -/
def render (scale : Scale) : String :=
  if scale.den = 1 then toString scale.num
  else toString scale.num ++ "/" ++ toString scale.den

/-- Reads digits in which underscores may stand anywhere but in front. -/
def parseDigits (chars : List Char) : Option Nat :=
  match chars with
  | [] => none
  | '_' :: _ => none
  | _ =>
      if chars.all fun c => Text.isDigit c || c == '_' then
        some (Text.ofDigits (chars.filter Text.isDigit))
      else none

def parseInteger (chars : List Char) : Option Int :=
  match chars with
  | '-' :: digits => (parseDigits digits).map fun number => -(number : Int)
  | '+' :: digits => (parseDigits digits).map fun number => (number : Int)
  | digits => (parseDigits digits).map fun number => (number : Int)

def splitOnce (separator : Char) (chars : List Char) : Option (List Char × List Char) :=
  match chars.dropWhile (· != separator) with
  | [] => none
  | _ :: rest => some (chars.takeWhile (· != separator), rest)

def parseRatio (chars : List Char) : Option (Int × Int) :=
  match splitOnce '/' chars with
  | some (numerator, denominator) => do
      let numerator ← parseInteger (Text.trim numerator)
      let denominator ← parseInteger (Text.trim denominator)
      if denominator = 0 then none else some (numerator, denominator)
  | none =>
      match splitOnce '.' chars with
      | some (whole, fraction) =>
          if fraction.isEmpty || !fraction.all Text.isDigit then none
          else do
            let digits ← parseInteger (whole ++ fraction)
            return (digits, Int.pow 10 fraction.length)
      | none => do
          let number ← parseInteger chars
          return (number, 1)

/-- Reads a scale, which must be positive. Blanks around it are ignored. -/
def parse (text : String) : Option Scale := do
  let ratio ← parseRatio (Text.trim text.toList)
  let number := Rat.divInt ratio.1 ratio.2
  if 0 < number then some number else none

end Scale

end SheetTypes
