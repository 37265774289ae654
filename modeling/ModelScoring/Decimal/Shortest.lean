import ModelScoring.Decimal.Binary64

/-!
# The shortest decimal of a float

Every decimal close enough to a float reads back as that float.  `shortest` gives one with the
fewest digits, and of those the nearest to the float.  Where two of those are equally near, a
tie decides.

The decimals that read back as `m * 2 ^ e` lie between the midpoints towards the two floats next
to it, the midpoints included exactly if `m` is even.  The float below is nearer when `m` is the
least significand of its exponent.  So the ends lie two quarter units above, and two quarter
units or one below.  A grid of decimals with a given number of digits meets that interval exactly
if one of the two grid points around the float does.  The search tries one digit, two digits and
so on up to seventeen, which are always enough.
-/

namespace ModelScoring.Decimal

/-- A positive decimal: a whole number of powers of ten. -/
structure Scaled where
  /-- The digits, as a number. -/
  digits : Nat
  /-- The power of ten that the last digit counts. -/
  exponent : Int
  deriving DecidableEq, Repr

/-- How many decimal digits a number is written with. -/
def digitCount (n : Nat) : Nat := (Nat.toDigits 10 n).length

/-- The exponent of the leading decimal digit of the quotient `n / d`. -/
def leadingExponent (n d : Nat) : Int :=
  if d ≤ n then (digitCount (n / d) : Int) - 1
  else -(digitCount ((d - 1) / n) : Int)

/-- The quarter units from `m` down to the end of the interval that reads back as it. -/
def quartersBelow (m : Nat) (e : Int) : Nat := if m = twoTo 52 ∧ -1074 < e then 1 else 2

/-- Whether `c * 10 ^ q` reads back as the float `m * 2 ^ e`. -/
def readsBack (m : Nat) (e : Int) (c : Nat) (q : Int) : Bool :=
  let point := c * tenTo q.toNat * twoTo (2 - e).toNat
  let unit := tenTo (-q).toNat * twoTo (e - 2).toNat
  let low := (4 * m - quartersBelow m e) * unit
  let high := (4 * m + 2) * unit
  if m % 2 = 0 then low ≤ point && point ≤ high else low < point && point < high

/-- Without the zeros at its end. -/
def Scaled.normal (s : Scaled) : Scaled :=
  if s.digits ≠ 0 ∧ s.digits % 10 = 0 then
    Scaled.normal ⟨s.digits / 10, s.exponent + 1⟩
  else s
termination_by s.digits
decreasing_by omega

/-- The decimal of the grid `10 ^ q` next to `m * 2 ^ e`. -/
def nearestOnGrid (tie : Tie) (m : Nat) (e q : Int) : Nat :=
  roundDiv tie (Binary64.numerator m e * tenTo (-q).toNat)
    (Binary64.denominator e * tenTo q.toNat)

/-- The last decimal of the grid `10 ^ q` that is not above `m * 2 ^ e`. -/
def lastOnGrid (m : Nat) (e q : Int) : Nat :=
  Binary64.numerator m e * tenTo (-q).toNat / (Binary64.denominator e * tenTo q.toNat)

/-- The decimal of the grid `10 ^ q` nearest to `m * 2 ^ e` among those that read back as it. -/
def onGrid? (tie : Tie) (m : Nat) (e q : Int) : Option Nat :=
  let near := nearestOnGrid tie m e q
  let below := lastOnGrid m e q
  let far := if near = below then below + 1 else below
  if readsBack m e near q then some near
  else if readsBack m e far q then some far
  else none

/-- A shortest decimal that reads back as the float `m * 2 ^ e`, where `m` is positive. -/
def shortest (tie : Tie) (m : Nat) (e : Int) : Scaled :=
  let lead := leadingExponent (Binary64.numerator m e) (Binary64.denominator e)
  let found := (List.range 17).findSome? fun (more : Nat) =>
    (onGrid? tie m e (lead - more)).map fun c => Scaled.mk c (lead - more)
  (found.getD ⟨nearestOnGrid tie m e (lead - 16), lead - 16⟩).normal

example : shortest .up 0x1999999999999A (-56) = ⟨1, -1⟩ := by decide +kernel
example : shortest .up 1 (-1074) = ⟨5, -324⟩ := by decide +kernel
example : shortest .up 0x10000000000000 (-77) = ⟨29802322387695313, -24⟩ := by decide +kernel
example : shortest .even 0x10000000000000 (-77) = ⟨29802322387695312, -24⟩ := by decide +kernel

end ModelScoring.Decimal
