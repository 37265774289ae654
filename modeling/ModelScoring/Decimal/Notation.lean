import ModelScoring.Decimal.Shortest

/-!
# Writing floats

A `Layout` fixes how a float is written with its shortest digits: which way a tie between
digits goes, for which exponents of the leading digit the point stands among the digits, whether
a whole number carries a fraction, and the words for the values that are no numbers.  The library
has two.  `Layout.plain` never uses an exponent and is the one of messages and tables.
`Layout.json` is the one of JSON, which has no words for infinities and not-a-number.

`fixed` writes a float with a given number of places instead.  It rounds the exact value, a half
going to the even neighbour.
-/

namespace ModelScoring.Decimal

/-- How a float is written with its shortest digits. -/
structure Layout where
  /-- Which of two equally near decimals is written. -/
  tie : Tie
  /-- The exponents of the leading digit for which the point stands among the digits, as a
  half-open interval; all of them if there is none. -/
  positional : Option (Int × Int)
  /-- Whether a whole number is written with a zero behind the point. -/
  wholeWithPoint : Bool
  nan : String
  infinity : String
  negativeInfinity : String

namespace Layout

/-- Never an exponent, and whole numbers without a point. -/
def plain : Layout where
  tie := .up
  positional := none
  wholeWithPoint := false
  nan := "NaN"
  infinity := "inf"
  negativeInfinity := "-inf"

/-- An exponent from `1e+16` on and below `1e-5`, always a point in front of it or a fraction,
and `null` for what JSON has no number for. -/
def json : Layout where
  tie := .even
  positional := some (-5, 16)
  wholeWithPoint := true
  nan := "null"
  infinity := "null"
  negativeInfinity := "null"

end Layout

def zeros (n : Nat) : List Char := List.replicate n '0'

/-- Digits with the point where their exponent says. -/
def positionalText (wholeWithPoint : Bool) (digits : List Char) (exponent : Int) : List Char :=
  let ahead := (digits.length : Int) + exponent
  if 0 ≤ exponent then
    digits ++ zeros exponent.toNat ++ (if wholeWithPoint then ['.', '0'] else [])
  else if 0 < ahead then
    digits.take ahead.toNat ++ '.' :: digits.drop ahead.toNat
  else
    '0' :: '.' :: (zeros (-ahead).toNat ++ digits)

/-- Digits with the point behind the first one and the exponent of that one. -/
def exponentText (digits : List Char) (lead : Int) : List Char :=
  let fraction := digits.drop 1
  digits.take 1 ++ (if fraction.isEmpty then [] else '.' :: fraction) ++
    'e' :: (if lead < 0 then '-' else '+') :: Nat.toDigits 10 lead.natAbs

def Layout.scaledText (layout : Layout) (s : Scaled) : List Char :=
  let digits := Nat.toDigits 10 s.digits
  let lead := (digits.length : Int) - 1 + s.exponent
  let among := match layout.positional with
    | none => true
    | some (first, stop) => first ≤ lead && lead < stop
  if among then positionalText layout.wholeWithPoint digits s.exponent
  else exponentText digits lead

def Layout.valueText (layout : Layout) : Binary64 → String
  | .nan => layout.nan
  | .infinite false => layout.infinity
  | .infinite true => layout.negativeInfinity
  | .finite negative significand exponent =>
    let magnitude :=
      if significand = 0 then positionalText layout.wholeWithPoint ['0'] 0
      else layout.scaledText (shortest layout.tie significand exponent)
    String.ofList (if negative then '-' :: magnitude else magnitude)

def Layout.text (layout : Layout) (x : Float) : String := layout.valueText (Binary64.ofFloat x)

/-- A number of units, as many to the whole as the places say, with its point. -/
def placedText (places units : Nat) : List Char :=
  let fraction := Nat.toDigits 10 (units % tenTo places)
  Nat.toDigits 10 (units / tenTo places) ++
    '.' :: (zeros (places - fraction.length) ++ fraction)

/-- The text of a value with a fixed number of places, at least one. -/
def fixedValueText (places : Nat) : Binary64 → String
  | .nan => Layout.plain.nan
  | .infinite false => Layout.plain.infinity
  | .infinite true => Layout.plain.negativeInfinity
  | .finite negative significand exponent =>
    let units := roundDiv .even (Binary64.numerator significand exponent * tenTo places)
      (Binary64.denominator exponent)
    let magnitude := placedText places units
    String.ofList (if negative then '-' :: magnitude else magnitude)

/-- The text of a float with a fixed number of places, at least one. -/
def fixed (places : Nat) (x : Float) : String := fixedValueText places (Binary64.ofFloat x)

end ModelScoring.Decimal
