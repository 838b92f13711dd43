import SheetTypes.Text.Word
import SheetTypes.Toml

set_option autoImplicit false

namespace SheetTypes.Toml

def hexValue? (c : Char) : Option Nat :=
  if Text.isDigit c then some (c.toNat - '0'.toNat)
  else if 'a' ≤ c ∧ c ≤ 'f' then some (c.toNat - 'a'.toNat + 10)
  else if 'A' ≤ c ∧ c ≤ 'F' then some (c.toNat - 'A'.toNat + 10)
  else none

/-- Whether digits are well formed: underscores stand only between two digits. -/
def digitsAreValid (isDigitChar : Char → Bool) (chars : List Char) : Bool :=
  chars.head?.any isDigitChar && chars.getLast?.any isDigitChar &&
    chars.all (fun c => isDigitChar c || c == '_') &&
    (chars.zip chars.tail).all fun pair => pair != ('_', '_')

def digitsValue (base : Nat) (chars : List Char) : Nat :=
  (chars.filterMap hexValue?).foldl (fun number digit => base * number + digit) 0

def wholeIsValid (chars : List Char) : Bool :=
  digitsAreValid Text.isDigit chars && (chars.length == 1 || chars.head? != some '0')

def splitSign : List Char → Bool × List Char
  | '-' :: rest => (true, rest)
  | '+' :: rest => (false, rest)
  | chars => (false, chars)

def integer? (value : Int) : Option Toml :=
  if -9223372036854775808 ≤ value ∧ value ≤ 9223372036854775807 then some (.integer value)
  else none

/-- A number in parts: its sign, whole digits, fraction if there is one, and exponent if there is
one. -/
structure Decimal where
  negative : Bool
  whole : List Char
  fraction : Option (List Char)
  exponent : Option (List Char)

namespace Decimal

def cutAt (isMark : Char → Bool) (chars : List Char) : List Char × Option (List Char) :=
  match chars.dropWhile fun c => !isMark c with
  | [] => (chars, none)
  | _ :: rest => (chars.takeWhile fun c => !isMark c, some rest)

def ofChars (chars : List Char) : Decimal :=
  let (negative, digits) := splitSign chars
  let (mantissa, exponent) := cutAt (fun c => c == 'e' || c == 'E') digits
  let (whole, fraction) := cutAt (fun c => c == '.') mantissa
  ⟨negative, whole, fraction, exponent⟩

def isValid (decimal : Decimal) : Bool :=
  wholeIsValid decimal.whole && decimal.fraction.all (digitsAreValid Text.isDigit) &&
    decimal.exponent.all (fun exponent => digitsAreValid Text.isDigit (splitSign exponent).2) &&
    (decimal.fraction.isSome || decimal.exponent.isSome)

/-- The power of ten that the digits of the whole and the fraction together are multiplied by. -/
def scale (decimal : Decimal) : Int :=
  let (negative, digits) := splitSign (decimal.exponent.getD [])
  let power : Int := digitsValue 10 digits
  (if negative then -power else power) -
    ((decimal.fraction.getD []).filter Text.isDigit).length

/-- The least number that is nearer to 2^1024 than to any smaller number with 53 binary digits. -/
def overflow : Nat := Nat.pow 2 1024 - Nat.pow 2 970

/-- Whether a number, its sign left out, is too great for 64 bits. Only numbers with 309 digits
before the point have to be compared digit by digit. -/
def overflows (decimal : Decimal) : Bool :=
  let digits := (decimal.whole ++ decimal.fraction.getD []).filter Text.isDigit
  let significant := digits.dropWhile (· == '0')
  let scale := decimal.scale
  let places : Int := significant.length + scale
  if significant.isEmpty || places < 309 then false
  else if 309 < places then true
  else if 0 ≤ scale then overflow ≤ digitsValue 10 significant * Nat.pow 10 scale.toNat
  else overflow * Nat.pow 10 (-scale).toNat ≤ digitsValue 10 significant

end Decimal

/-- Whether a word is a number with a fraction or an exponent, an infinity or no number at all.
Positive numbers may not be too great. -/
def isFloat (chars : List Char) : Bool :=
  let (_, unsigned) := splitSign chars
  let decimal := Decimal.ofChars chars
  unsigned == ['i', 'n', 'f'] || unsigned == ['n', 'a', 'n'] ||
    (decimal.isValid && (decimal.negative || !decimal.overflows))

def twoDigits? (least greatest : Nat) : List Char → Option Nat
  | [tens, ones] =>
      let number := digitsValue 10 [tens, ones]
      if Text.isDigit tens && Text.isDigit ones && least ≤ number && number ≤ greatest then
        some number
      else none
  | _ => none

def daysOfMonth (year month : Nat) : Nat :=
  if month = 2 then
    if year % 4 = 0 ∧ (year % 100 ≠ 0 ∨ year % 400 = 0) then 29 else 28
  else if month = 4 ∨ month = 6 ∨ month = 9 ∨ month = 11 then 30
  else 31

def isDay (chars : List Char) : Bool :=
  let year := chars.take 4
  let monthAndDay := chars.drop 4
  match monthAndDay with
  | ['-', m1, m2, '-', d1, d2] =>
      year.length == 4 && year.all Text.isDigit &&
        match twoDigits? 1 12 [m1, m2], twoDigits? 1 31 [d1, d2] with
        | some month, some day => decide (day ≤ daysOfMonth (digitsValue 10 year) month)
        | _, _ => false
  | _ => false

def isHourAndMinute : List Char → Bool
  | [h1, h2, ':', m1, m2] =>
      (twoDigits? 0 23 [h1, h2]).isSome && (twoDigits? 0 59 [m1, m2]).isSome
  | _ => false

def isSecondFraction : List Char → Bool
  | [] => true
  | '.' :: digits => !digits.isEmpty && digits.all Text.isDigit
  | _ => false

/-- Whether a text is a time of day such as `07:32:00.5`. A minute may have a leap second. -/
def isTime (chars : List Char) : Bool :=
  isHourAndMinute (chars.take 5) &&
    match chars.drop 5 with
    | ':' :: s1 :: s2 :: rest => (twoDigits? 0 60 [s1, s2]).isSome && isSecondFraction rest
    | _ => false

def isOffset : List Char → Bool
  | ['Z'] | ['z'] => true
  | '+' :: distance | '-' :: distance => isHourAndMinute distance
  | _ => false

def isTimeWithOffset (chars : List Char) : Bool :=
  let startsOffset (c : Char) : Bool := c == 'Z' || c == 'z' || c == '+' || c == '-'
  let offset := chars.dropWhile fun c => !startsOffset c
  isTime (chars.takeWhile fun c => !startsOffset c) && (offset.isEmpty || isOffset offset)

def isMoment (chars : List Char) : Bool :=
  isTime chars ||
    isDay (chars.take 10) &&
      match chars.drop 10 with
      | [] => true
      | mark :: time => (mark == 'T' || mark == 't') && isTimeWithOffset time

def wordValue? (chars : List Char) : Option Toml :=
  match chars with
  | ['t', 'r', 'u', 'e'] => some (.boolean true)
  | ['f', 'a', 'l', 's', 'e'] => some (.boolean false)
  | '0' :: 'x' :: digits =>
      if digitsAreValid (fun c => (hexValue? c).isSome) digits then
        integer? (digitsValue 16 digits)
      else none
  | '0' :: 'o' :: digits =>
      if digitsAreValid (fun c => '0' ≤ c && c ≤ '7') digits then integer? (digitsValue 8 digits)
      else none
  | '0' :: 'b' :: digits =>
      if digitsAreValid (fun c => c == '0' || c == '1') digits then
        integer? (digitsValue 2 digits)
      else none
  | _ =>
      let (negative, digits) := splitSign chars
      if wholeIsValid digits then
        integer? (if negative then -(digitsValue 10 digits : Int) else digitsValue 10 digits)
      else if isFloat chars then some .float
      else if isMoment chars then some .moment
      else none

def isKeyChar (c : Char) : Bool :=
  Text.isDigit c || ('a' ≤ c && c ≤ 'z') || ('A' ≤ c && c ≤ 'Z') || c == '-' || c == '_'

def isWordChar (c : Char) : Bool := isKeyChar c || c == '+' || c == '.' || c == ':'

/-- Reads a word and its value. A day may be followed by a blank and a time. -/
def readWord (chars : List Char) : Option (Toml × List Char) :=
  let word := chars.takeWhile isWordChar
  let rest := chars.dropWhile isWordChar
  let time := rest.tail.takeWhile isWordChar
  if isDay word && rest.head? == some ' ' && isTimeWithOffset time then
    some (.moment, rest.tail.dropWhile isWordChar)
  else (wordValue? word).map fun value => (value, rest)

end SheetTypes.Toml
