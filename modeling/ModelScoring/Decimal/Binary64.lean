import ModelScoring.Decimal.Power
import ModelScoring.Decimal.Rounding

/-!
# What a float stands for

A finite float is a whole number of units, each unit a power of two.  `Binary64.ofFloat` reads
the three parts, sign, significand and exponent, off the sixty-four bits of a float, so that
texts and whole numbers can be worked out exactly, in natural numbers.

`Binary64.toInt?` is the whole number next to a float, a half going away from zero.
`nearestFloatValue n` is the float next to a natural number `n`, as a natural number.
-/

namespace ModelScoring.Decimal

/-- The value of a float. -/
inductive Binary64
  | nan
  /-- An infinity, the negative one if the flag is set. -/
  | infinite (negative : Bool)
  /-- The significand times two to the exponent, with a minus sign if the flag is set. -/
  | finite (negative : Bool) (significand : Nat) (exponent : Int)
  deriving DecidableEq, Repr

namespace Binary64

/-- The value that sixty-four bits stand for. -/
def ofBits (bits : Nat) : Binary64 :=
  let negative := 1 ≤ bits / twoTo 63
  let biased : Nat := bits / twoTo 52 % twoTo 11
  let fraction := bits % twoTo 52
  if biased = 2047 then
    if fraction = 0 then infinite negative else nan
  else if biased = 0 then finite negative fraction (-1074)
  else finite negative (fraction + twoTo 52) ((biased : Int) - 1075)

def ofFloat (x : Float) : Binary64 := ofBits x.toBits.toNat

/-- The numerator of `significand * 2 ^ exponent`. -/
def numerator (significand : Nat) (exponent : Int) : Nat := significand * twoTo exponent.toNat

/-- The denominator of `significand * 2 ^ exponent`. -/
def denominator (exponent : Int) : Nat := twoTo (-exponent).toNat

/-- The whole number next to the value, a half going away from zero.  Infinities and
not-a-number have none. -/
def toInt? : Binary64 → Option Int
  | nan => none
  | infinite _ => none
  | finite negative significand exponent =>
    let magnitude := roundDiv .up (numerator significand exponent) (denominator exponent)
    some (if negative then -(magnitude : Int) else magnitude)

end Binary64

/-- The natural number that is the value of the float next to `n`, a tie going to the even
significand.  Numbers of at most fifty-three bits are floats themselves. -/
def nearestFloatValue (n : Nat) : Nat :=
  let spare := n.log2 + 1 - 53
  roundDiv .even n (twoTo spare) * twoTo spare

/-- A number of at most fifty-three bits is the value of a float. -/
theorem nearestFloatValue_of_lt {n : Nat} (h : n < twoTo 53) : nearestFloatValue n = n := by
  have hspare : n.log2 + 1 - 53 = 0 := by
    rcases Nat.eq_zero_or_pos n with rfl | hn
    · rfl
    · have := (Nat.log2_lt (by omega)).2 h
      omega
  simp only [nearestFloatValue, hspare, twoTo_zero]
  rw [roundDiv_of_dvd (by decide) (by omega)]
  omega

end ModelScoring.Decimal
