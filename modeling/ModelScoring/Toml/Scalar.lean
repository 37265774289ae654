import ModelScoring.Decimal.Numeral
import ModelScoring.Toml.Value

/-!
# Numbers, dates and truth values in TOML

A value that is neither a text nor a list nor a table is one word.  Underscores may separate the
digits of a number, one at a time.  A whole number has no leading zero and fits into 64 bits with
sign.  A date is one of the calendar, and a date and a time may be joined by a blank.

`Value.ofWord?` gives the value of a word.
-/

namespace ModelScoring.Toml

/-! ## Numbers -/

/-- The digits of a text in which single underscores may separate digits. -/
def digitsOf? (isDigit : Char → Bool) (cs : List Char) : Option (List Char) :=
  let groups := cs.splitOnP (· == '_')
  if groups.all fun group => !group.isEmpty && group.all isDigit then some groups.flatten
  else none

/-- The digits of a decimal number without a leading zero. -/
def decimalDigits? (cs : List Char) : Option (List Char) :=
  if cs.head? = some '0' ∧ cs ≠ ['0'] then none else digitsOf? Char.isDigit cs

/-- The value of a text of digits in a base. -/
def valueIn (base : Nat) (digits : List Char) : Nat :=
  digits.foldl (fun value c =>
    base * value + (if c.isDigit then c.toNat - '0'.toNat else c.toLower.toNat - 'a'.toNat + 10)) 0

/-- Whether a character is a hexadecimal digit. -/
def isHexDigit (c : Char) : Bool := c.isDigit || ('a' ≤ c.toLower && c.toLower ≤ 'f')

/-- Whether a character is a digit of a base below ten. -/
def isDigitBelow (base : Nat) (c : Char) : Bool :=
  c.isDigit && decide (c.toNat - '0'.toNat < base)

/-- Reads a whole number: decimal with an optional sign, or in base 16, 8 or 2 behind a mark of
its base. -/
def readInteger? (cs : List Char) : Option Int :=
  let number : Option Int :=
    match cs with
    | '0' :: 'x' :: digits =>
      (digitsOf? isHexDigit digits).map fun digits => (valueIn 16 digits : Int)
    | '0' :: 'o' :: digits =>
      (digitsOf? (isDigitBelow 8) digits).map fun digits => (valueIn 8 digits : Int)
    | '0' :: 'b' :: digits =>
      (digitsOf? (isDigitBelow 2) digits).map fun digits => (valueIn 2 digits : Int)
    | _ =>
      let (negative, digits) := Decimal.splitSign cs
      (decimalDigits? digits).map fun digits =>
        if negative then -(digitsValue digits : Int) else digitsValue digits
  number.filter fun n => decide (-9223372036854775808 ≤ n ∧ n ≤ 9223372036854775807)

/-- The exponent of a number without its underscores, its letter included.  A missing one is
empty. -/
def exponentText? : List Char → Option (List Char)
  | [] => some []
  | e :: cs =>
    let digits := (Decimal.splitSign cs).2
    (digitsOf? Char.isDigit digits).map fun found =>
      e :: (cs.take (cs.length - digits.length) ++ found)

/-- A number with a fraction or an exponent without its sign and its underscores. -/
def floatText? (cs : List Char) : Option (List Char) := do
  let isExponent := fun c => c == 'e' || c == 'E'
  let mantissa := cs.takeWhile fun c => !isExponent c
  let exponent ← exponentText? (cs.dropWhile fun c => !isExponent c)
  let whole ← decimalDigits? (mantissa.takeWhile (· != '.'))
  match mantissa.dropWhile (· != '.') with
  | [] => if exponent.isEmpty then none else some (whole ++ exponent)
  | _ :: fraction => do
    let fraction ← digitsOf? Char.isDigit fraction
    pure (whole ++ '.' :: (fraction ++ exponent))

/-- Reads a number with a fraction or an exponent, or a word for infinity or not-a-number.  A
numeral may not be too great for a float. -/
def readFloat? (cs : List Char) : Option Float :=
  let (negative, magnitude) := Decimal.splitSign cs
  if magnitude = "inf".toList ∨ magnitude = "nan".toList then Decimal.readFloat? cs
  else do
    let text ← floatText? magnitude
    let x ← Decimal.readFloat? text
    if !negative && x == 1.0 / 0.0 then none else some (if negative then -x else x)

/-! ## Dates and times -/

/-- Whether two digits give a number in a range. -/
def pairWithin (lo hi : Nat) (a b : Char) : Bool :=
  a.isDigit && b.isDigit && decide (lo ≤ digitsValue [a, b]) && decide (digitsValue [a, b] ≤ hi)

/-- The number of days of a month. -/
def daysOfMonth (year month : Nat) : Nat :=
  if month = 2 then
    if year % 4 = 0 ∧ (year % 100 ≠ 0 ∨ year % 400 = 0) then 29 else 28
  else if month = 4 ∨ month = 6 ∨ month = 9 ∨ month = 11 then 30
  else 31

/-- Whether a text is a date of the calendar, such as `1979-05-27`. -/
def isDate : List Char → Bool
  | [y1, y2, y3, y4, '-', m1, m2, '-', d1, d2] =>
    isNumber [y1, y2, y3, y4] && pairWithin 1 12 m1 m2 &&
      pairWithin 1 (daysOfMonth (digitsValue [y1, y2, y3, y4]) (digitsValue [m1, m2])) d1 d2
  | _ => false

/-- Whether a text is a time of day, such as `07:32:00` or `07:32:00.5`. -/
def isTime : List Char → Bool
  | h1 :: h2 :: ':' :: m1 :: m2 :: ':' :: s1 :: s2 :: fraction =>
    pairWithin 0 23 h1 h2 && pairWithin 0 59 m1 m2 && pairWithin 0 60 s1 s2 &&
      match fraction with
      | [] => true
      | c :: digits => c == '.' && isNumber digits
  | _ => false

/-- Whether a text is the distance of a zone from universal time, such as `Z` or `-07:00`. -/
def isOffset : List Char → Bool
  | [z] => z == 'Z' || z == 'z'
  | [sign, h1, h2, ':', m1, m2] =>
    (sign == '+' || sign == '-') && pairWithin 0 23 h1 h2 && pairWithin 0 59 m1 m2
  | _ => false

/-- Whether a text is a time of day, with or without a zone. -/
def isZonedTime (cs : List Char) : Bool :=
  let ofTime := fun (c : Char) => c.isDigit || c == ':' || c == '.'
  let zone := cs.dropWhile ofTime
  isTime (cs.takeWhile ofTime) && (zone.isEmpty || isOffset zone)

/-- Whether a text is a date, a time of day, or both with a mark between them. -/
def isMoment (cs : List Char) : Bool :=
  isDate cs || isTime cs ||
    match cs.drop 10 with
    | [] => false
    | mark :: time =>
      isDate (cs.take 10) && (mark == 'T' || mark == 't' || mark == ' ') && isZonedTime time

/-! ## Words -/

/-- Whether a character may stand in a word. -/
def isWordChar (c : Char) : Bool :=
  c.isAlphanum || c == '_' || c == '-' || c == '+' || c == '.' || c == ':'

/-- The word that a text starts with, and the text behind it.  A blank belongs to the word if it
stands between a date and a time. -/
def splitWord (cs : List Char) : List Char × List Char :=
  let word := cs.takeWhile isWordChar
  match cs.dropWhile isWordChar with
  | ' ' :: h1 :: h2 :: ':' :: rest =>
    if isDate word && h1.isDigit && h2.isDigit then
      (word ++ ' ' :: h1 :: h2 :: ':' :: rest.takeWhile isWordChar, rest.dropWhile isWordChar)
    else (word, ' ' :: h1 :: h2 :: ':' :: rest)
  | rest => (word, rest)

def Value.ofWord? (cs : List Char) : Option Value :=
  if cs = "true".toList then some (.boolean true)
  else if cs = "false".toList then some (.boolean false)
  else if isMoment cs then some (.moment (String.ofList cs))
  else ((readInteger? cs).map .integer).or ((readFloat? cs).map .float)

example : readInteger? "1_000".toList = some 1000 := by decide +kernel
example : readInteger? "010".toList = none := by decide +kernel
example : readInteger? "0xff".toList = some 255 := by decide +kernel
example : isMoment "2024-02-29 07:32:00.25+01:00".toList = true := by decide +kernel
example : isMoment "2023-02-29".toList = false := by decide +kernel

end ModelScoring.Toml
