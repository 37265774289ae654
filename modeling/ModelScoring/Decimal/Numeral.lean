import ModelScoring.Size

/-!
# Reading floats

A numeral is an optional sign, then either a word for infinity or not-a-number in any case, or
digits with at most one point among them and an optional exponent.  There is at least one digit
before the exponent and at least one in it.  `readFloat?` takes the float next to the value of
the numeral.
-/

namespace ModelScoring.Decimal

/-- An unsigned decimal as it was written: its digits as a number, and the power of ten that the
last of them counts. -/
structure Written where
  /-- The digits before the exponent, without the point. -/
  digits : Nat
  /-- The power of ten that the last digit counts. -/
  exponent : Int
  deriving DecidableEq, Repr

/-- The sign of a numeral, set if it is a minus, and the text behind it. -/
def splitSign : List Char → Bool × List Char
  | '-' :: cs => (true, cs)
  | '+' :: cs => (false, cs)
  | cs => (false, cs)

/-- Reads an exponent, which may be missing: the text is empty then. -/
def readExponent? : List Char → Option Int
  | [] => some 0
  | c :: cs =>
    let (negative, digits) := splitSign cs
    if (c == 'e' || c == 'E') && isNumber digits then
      some (if negative then -(digitsValue digits : Int) else digitsValue digits)
    else none

/-- Reads the fraction, which may be missing: its digits and the text behind them. -/
def splitFraction : List Char → List Char × List Char
  | '.' :: cs => (cs.takeWhile Char.isDigit, cs.dropWhile Char.isDigit)
  | cs => ([], cs)

def readWritten? (cs : List Char) : Option Written :=
  let whole := cs.takeWhile Char.isDigit
  let (fraction, rest) := splitFraction (cs.dropWhile Char.isDigit)
  let digits := whole ++ fraction
  if digits.isEmpty then none
  else (readExponent? rest).map fun exponent =>
    ⟨digitsValue digits, exponent - (fraction.length : Int)⟩

/-- The float next to a decimal.  No float is as great as `10 ^ 309`, and one below `10 ^ (-324)`
is nearer to zero than to any other float, so that decimals far outside need no arithmetic. -/
def Written.toFloat (w : Written) : Float :=
  let lead := ((Nat.toDigits 10 w.digits).length : Int) - 1 + w.exponent
  if w.digits = 0 ∨ lead < -400 then 0.0
  else if 400 < lead then 1.0 / 0.0
  else Float.ofScientific w.digits (decide (w.exponent < 0)) w.exponent.natAbs

def readMagnitude? (cs : List Char) : Option Float :=
  let word := cs.map Char.toLower
  if word = "inf".toList ∨ word = "infinity".toList then some (1.0 / 0.0)
  else if word = "nan".toList then some (0.0 / 0.0)
  else (readWritten? cs).map Written.toFloat

def readFloat? (cs : List Char) : Option Float :=
  let (negative, magnitude) := splitSign cs
  (readMagnitude? magnitude).map fun x => if negative then -x else x

example : readWritten? "12.50e-3".toList = some ⟨1250, -5⟩ := by decide +kernel
example : readWritten? ".".toList = none := by decide +kernel
example : readWritten? "1e".toList = none := by decide +kernel

end ModelScoring.Decimal
