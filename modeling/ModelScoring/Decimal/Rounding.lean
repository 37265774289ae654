/-!
# Rounding a quotient

`roundDiv tie n d` is the natural number next to the quotient `n / d`.  Where two numbers are
equally near, the tie says which of them is taken.  `roundDiv_near` says the result is never
further than half a unit from the quotient, and `roundDiv_of_dvd` that an exact quotient is kept.
-/

namespace ModelScoring.Decimal

/-- What is done with a value in the middle between two numbers. -/
inductive Tie
  /-- The greater of the two. -/
  | up
  /-- The even one of the two. -/
  | even
  deriving DecidableEq, Repr

/-- Whether the tie is broken towards the number above `low`. -/
def Tie.goesUp (tie : Tie) (low : Nat) : Bool :=
  match tie with
  | .up => true
  | .even => low % 2 == 1

/-- The number next to `n / d`. -/
def roundDiv (tie : Tie) (n d : Nat) : Nat :=
  let low := n / d
  let rest := n % d
  if d < 2 * rest || (2 * rest == d && tie.goesUp low) then low + 1 else low

/-- An exact quotient is kept. -/
theorem roundDiv_of_dvd {tie : Tie} {n d : Nat} (hd : 0 < d) (h : n % d = 0) :
    roundDiv tie n d = n / d := by
  have hne : (0 == d) = false := by simp; omega
  simp [roundDiv, h, hne]

/-- The result is at most half a unit away from the quotient. -/
theorem roundDiv_near (tie : Tie) (n d : Nat) (hd : 0 < d) :
    2 * (roundDiv tie n d * d) ≤ 2 * n + d ∧ 2 * n ≤ 2 * (roundDiv tie n d * d) + d := by
  have hdiv := Nat.div_add_mod n d
  have hlt := Nat.mod_lt n hd
  rw [Nat.mul_comm] at hdiv
  simp only [roundDiv]
  split
  · next h =>
    simp only [Bool.or_eq_true, decide_eq_true_eq, Bool.and_eq_true, beq_iff_eq] at h
    rw [Nat.add_mul]
    omega
  · next h =>
    simp only [Bool.or_eq_true, decide_eq_true_eq, not_or] at h
    omega

end ModelScoring.Decimal
