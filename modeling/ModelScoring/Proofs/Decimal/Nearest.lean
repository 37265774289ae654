import Mathlib.Data.Rat.Floor
import Mathlib.Tactic.FieldSimp
import Mathlib.Tactic.Linarith
import ModelScoring.Decimal.Binary64

/-!
# Floats and whole numbers

The value of a finite float is a rational number (`Binary64.value?`).  `Binary64.toInt?_eq` says that
the whole number next to a float is its value rounded to a whole number, a half going away from zero.

A float has at most fifty-three significant bits, and so has the whole number next to it
(`fewBits_of_toInt?`).  `nearestFloatValue n` is next to `n` among the numbers with so few bits.  It
is at least any of them that is at most `n`, and at most any of them that is at least `n`.  So the
only one of them behind `n` that it reaches is itself.
-/

namespace ModelScoring.Decimal

theorem twoTo_eq (n : Nat) : twoTo n = 2 ^ n := rfl

theorem twoTo_add (m n : Nat) : twoTo (m + n) = twoTo m * twoTo n := by
  rw [twoTo_eq, twoTo_eq, twoTo_eq, pow_add]

/-! ## Rounding a quotient -/

theorem roundDiv_cases (tie : Tie) (n : Nat) {d : Nat} (hd : 0 < d) :
    roundDiv tie n d = n / d ∨ roundDiv tie n d = n / d + 1 ∧ n % d ≠ 0 := by
  simp only [roundDiv]
  split
  · next h =>
    simp only [Bool.or_eq_true, decide_eq_true_eq, Bool.and_eq_true, beq_iff_eq] at h
    exact .inr ⟨rfl, by omega⟩
  · exact .inl rfl

/-- A whole number that is at most a quotient is at most the rounded quotient. -/
theorem le_roundDiv {tie : Tie} {n d c : Nat} (hd : 0 < d) (h : c * d ≤ n) :
    c ≤ roundDiv tie n d := by
  have hle : c ≤ n / d := (Nat.le_div_iff_mul_le hd).2 h
  rcases roundDiv_cases tie n hd with heq | ⟨heq, -⟩ <;> omega

/-- A whole number that is at least a quotient is at least the rounded quotient. -/
theorem roundDiv_le {tie : Tie} {n d c : Nat} (hd : 0 < d) (h : n ≤ c * d) :
    roundDiv tie n d ≤ c := by
  rcases roundDiv_cases tie n hd with heq | ⟨heq, hrest⟩
  · rw [heq]
    exact Nat.div_le_of_le_mul (by rwa [Nat.mul_comm])
  · have hdiv := Nat.div_add_mod n d
    have hlt : n / d < c := by
      by_contra hge
      have hmul := Nat.mul_le_mul_left d (Nat.not_lt.1 hge)
      rw [Nat.mul_comm d c] at hmul
      omega
    omega

/-- Where ties go up, the next whole number is more than a half above the quotient. -/
theorem lt_succ_roundDiv_up (n : Nat) {d : Nat} (hd : 0 < d) :
    2 * n + d < 2 * ((roundDiv .up n d + 1) * d) := by
  have hdiv := Nat.div_add_mod n d
  have hlt := Nat.mod_lt n hd
  rw [Nat.mul_comm] at hdiv
  simp only [roundDiv, Tie.goesUp, Bool.and_true]
  split
  · simp only [Nat.add_mul, Nat.one_mul]
    omega
  · next h =>
    simp only [Bool.or_eq_true, decide_eq_true_eq, beq_iff_eq, not_or] at h
    rw [Nat.add_mul, Nat.one_mul]
    omega

/-- Where ties go up, the rounded quotient is the greatest whole number that is at most the quotient
and a half. -/
theorem roundDiv_up_eq_floor (n : Nat) {d : Nat} (hd : 0 < d) :
    (roundDiv .up n d : Int) = ⌊(n : ℚ) / d + 1 / 2⌋ := by
  have hpos : (0 : ℚ) < 2 * d := mul_pos (by decide) (Nat.cast_pos.2 hd)
  have hlow : 2 * ((roundDiv .up n d : ℚ) * d) ≤ 2 * n + d := by
    exact_mod_cast (roundDiv_near .up n d hd).1
  have hhigh : 2 * (n : ℚ) + d < 2 * ((roundDiv .up n d + 1) * d) := by
    exact_mod_cast lt_succ_roundDiv_up n hd
  have hsum : (n : ℚ) / d + 1 / 2 = (2 * n + d) / (2 * d) := by field_simp
  rw [hsum, eq_comm, Int.floor_eq_iff]
  push_cast
  constructor
  · rw [le_div_iff₀ hpos]
    linarith
  · rw [div_lt_iff₀ hpos]
    linarith

/-! ## The value of a float -/

/-- A rational number rounded to a whole number, a half going away from zero. -/
def halfAway (q : ℚ) : Int := if 0 ≤ q then ⌊q + 1 / 2⌋ else -⌊-q + 1 / 2⌋

theorem halfAway_of_nonneg {q : ℚ} (h : 0 ≤ q) : halfAway q = ⌊q + 1 / 2⌋ := if_pos h

theorem halfAway_neg (q : ℚ) : halfAway (-q) = -halfAway q := by
  rcases lt_trichotomy q 0 with hneg | rfl | hpos
  · rw [halfAway, halfAway, if_pos (by linarith), if_neg (by linarith), Int.neg_neg]
  · norm_num [halfAway]
  · rw [halfAway, halfAway, if_neg (by linarith), if_pos (by linarith), neg_neg]

namespace Binary64

/-- The value of a float that is finite. -/
def value? : Binary64 → Option ℚ
  | nan => none
  | infinite _ => none
  | finite negative significand exponent =>
    let magnitude : ℚ := significand * 2 ^ exponent
    some (if negative then -magnitude else magnitude)

theorem denominator_pos (exponent : Int) : 0 < denominator exponent := twoTo_pos _

theorem numerator_div_denominator (significand : Nat) (exponent : Int) :
    (numerator significand exponent : ℚ) / denominator exponent = significand * 2 ^ exponent := by
  rw [numerator, denominator, twoTo_eq, twoTo_eq]
  rcases Int.le_total 0 exponent with h | h
  · obtain ⟨n, rfl⟩ := Int.eq_ofNat_of_zero_le h
    have hneg : (-(n : Int)).toNat = 0 := by omega
    simp [hneg]
  · obtain ⟨n, hn⟩ := Int.eq_ofNat_of_zero_le (Int.neg_nonneg_of_nonpos h)
    obtain rfl : exponent = -(n : Int) := by omega
    have hneg : (-(n : Int)).toNat = 0 := by omega
    simp [hneg, div_eq_mul_inv]

/-- The whole number next to a float is its value rounded. -/
theorem toInt?_eq (b : Binary64) : b.toInt? = b.value?.map halfAway := by
  cases b with
  | nan => rfl
  | infinite negative => rfl
  | finite negative significand exponent =>
    have hfloor := roundDiv_up_eq_floor (numerator significand exponent) (denominator_pos exponent)
    have hnonneg : 0 ≤ (significand : ℚ) * 2 ^ exponent :=
      mul_nonneg (Nat.cast_nonneg _) (zpow_nonneg (by decide) _)
    rw [numerator_div_denominator, ← halfAway_of_nonneg hnonneg] at hfloor
    simp only [toInt?, value?, Option.map_some]
    cases negative with
    | false => exact congrArg some hfloor
    | true =>
      simp only [if_true, halfAway_neg]
      exact congrArg (fun n => some (-n)) hfloor

end Binary64

/-! ## Numbers of few bits -/

/-- The number has at most fifty-three significant bits. -/
def FewBits (n : Nat) : Prop := ∃ k e, k < twoTo 53 ∧ n = k * twoTo e

theorem fewBits_of_le {n : Nat} (h : n ≤ twoTo 53) : FewBits n := by
  rcases Nat.lt_or_eq_of_le h with hlt | rfl
  · exact ⟨n, 0, hlt, (Nat.mul_one n).symm⟩
  · exact ⟨1, 53, by decide, (Nat.one_mul _).symm⟩

/-- The whole number next to few units has few bits. -/
theorem fewBits_roundDiv {significand : Nat} (h : significand < twoTo 53) (exponent : Int) :
    FewBits (roundDiv .up (Binary64.numerator significand exponent)
      (Binary64.denominator exponent)) := by
  rcases Int.le_total 0 exponent with hexp | hexp
  · refine ⟨significand, exponent.toNat, h, ?_⟩
    have hunit : Binary64.denominator exponent = 1 := by
      have hneg : (-exponent).toNat = 0 := by omega
      rw [Binary64.denominator, hneg, twoTo_zero]
    rw [hunit, roundDiv_of_dvd Nat.one_pos (Nat.mod_one _), Nat.div_one]
    rfl
  · have hunits : Binary64.numerator significand exponent = significand := by
      have hneg : exponent.toNat = 0 := by omega
      rw [Binary64.numerator, hneg, twoTo_zero, Nat.mul_one]
    have hd := Binary64.denominator_pos exponent
    have hle : roundDiv .up (Binary64.numerator significand exponent)
        (Binary64.denominator exponent) ≤ significand := by
      rw [hunits]
      exact roundDiv_le hd (Nat.le_mul_of_pos_right _ hd)
    exact fewBits_of_le (Nat.le_trans hle (Nat.le_of_lt h))

theorem significand_lt_of_ofBits {bits significand : Nat} {negative : Bool} {exponent : Int}
    (h : Binary64.ofBits bits = .finite negative significand exponent) :
    significand < twoTo 53 := by
  have hfraction : bits % twoTo 52 < twoTo 52 := Nat.mod_lt _ (twoTo_pos 52)
  have hdouble : twoTo 53 = twoTo 52 * 2 := twoTo_succ 52
  simp only [Binary64.ofBits] at h
  split at h
  · split at h <;> cases h
  · split at h
    · cases h
      omega
    · cases h
      omega

/-- The whole number next to a float has few bits. -/
theorem fewBits_of_toInt? {x : Float} {n : Int} (h : (Binary64.ofFloat x).toInt? = some n) :
    FewBits n.natAbs := by
  cases hx : Binary64.ofFloat x with
  | nan => simp [hx, Binary64.toInt?] at h
  | infinite negative => simp [hx, Binary64.toInt?] at h
  | finite negative significand exponent =>
    have hfew := fewBits_roundDiv (significand_lt_of_ofBits hx) exponent
    rw [hx] at h
    simp only [Binary64.toInt?, Option.some.injEq] at h
    subst h
    cases negative with
    | false => exact hfew
    | true => simpa using hfew

/-! ## The nearest float -/

/-- `nearestFloatValue` counts in units of `twoTo (spare n)`. -/
def spare (n : Nat) : Nat := n.log2 + 1 - 53

theorem nearestFloatValue_eq (n : Nat) :
    nearestFloatValue n = roundDiv .even n (twoTo (spare n)) * twoTo (spare n) := rfl

/-- A number has exactly fifty-three bits in its units. -/
theorem twoTo_le_of_spare_pos {n : Nat} (h : 0 < spare n) : twoTo 52 * twoTo (spare n) ≤ n := by
  have hlog : n.log2 = 52 + spare n := by
    unfold spare at h ⊢
    omega
  rw [← twoTo_add, ← hlog, twoTo_eq]
  refine Nat.log2_self_le ?_
  rintro rfl
  exact absurd h (by decide)

/-- Few bits whose last is worth less than a unit make less than the number. -/
theorem mul_twoTo_lt {n k e : Nat} (hk : k < twoTo 53) (he : e < spare n) :
    k * twoTo e < twoTo 52 * twoTo (spare n) := by
  calc k * twoTo e < twoTo 53 * twoTo e := Nat.mul_lt_mul_of_pos_right hk (twoTo_pos e)
    _ = twoTo (53 + e) := (twoTo_add 53 e).symm
    _ ≤ twoTo (52 + spare n) := Nat.pow_le_pow_right (by decide) (by omega)
    _ = twoTo 52 * twoTo (spare n) := twoTo_add 52 (spare n)

theorem twoTo_mul_of_le {k e s : Nat} (h : s ≤ e) :
    k * twoTo e = k * twoTo (e - s) * twoTo s := by
  rw [Nat.mul_assoc, ← twoTo_add, Nat.sub_add_cancel h]

/-- The nearest float is at least every float that the number is at least. -/
theorem le_nearestFloatValue {v n : Nat} (hv : FewBits v) (h : v ≤ n) :
    v ≤ nearestFloatValue n := by
  obtain ⟨k, e, hk, rfl⟩ := hv
  have hunit := twoTo_pos (spare n)
  rw [nearestFloatValue_eq]
  by_cases he : e < spare n
  · have hfull := twoTo_le_of_spare_pos (Nat.lt_of_le_of_lt (Nat.zero_le e) he)
    exact Nat.le_trans (Nat.le_of_lt (mul_twoTo_lt hk he))
      (Nat.mul_le_mul_right _ (le_roundDiv hunit hfull))
  · rw [twoTo_mul_of_le (Nat.not_lt.1 he)] at h ⊢
    exact Nat.mul_le_mul_right _ (le_roundDiv hunit h)

/-- The nearest float is at most every float that the number is at most. -/
theorem nearestFloatValue_le {v n : Nat} (hv : FewBits v) (h : n ≤ v) :
    nearestFloatValue n ≤ v := by
  obtain ⟨k, e, hk, rfl⟩ := hv
  have hunit := twoTo_pos (spare n)
  rw [nearestFloatValue_eq]
  by_cases he : e < spare n
  · have hfull := twoTo_le_of_spare_pos (Nat.lt_of_le_of_lt (Nat.zero_le e) he)
    have hshort := mul_twoTo_lt hk he
    omega
  · rw [twoTo_mul_of_le (Nat.not_lt.1 he)] at h ⊢
    exact Nat.mul_le_mul_right _ (roundDiv_le hunit h)

/-- A number of few bits, such as `2 ^ 53` and all below it, is its own nearest float. -/
theorem nearestFloatValue_of_fewBits {n : Nat} (h : FewBits n) : nearestFloatValue n = n :=
  Nat.le_antisymm (nearestFloatValue_le h (Nat.le_refl n)) (le_nearestFloatValue h (Nat.le_refl n))

/-- A float is at most the float next to `n` if it is at most `n`, or is that very float. -/
theorem le_nearestFloatValue_iff {v n : Nat} (hv : FewBits v) :
    v ≤ nearestFloatValue n ↔ v ≤ n ∨ n < v ∧ v = nearestFloatValue n := by
  constructor
  · intro hle
    rcases Nat.lt_or_ge n v with hlt | hge
    · exact .inr ⟨hlt, Nat.le_antisymm hle (nearestFloatValue_le hv (Nat.le_of_lt hlt))⟩
    · exact .inl hge
  · rintro (hle | ⟨-, rfl⟩)
    · exact le_nearestFloatValue hv hle
    · exact Nat.le_refl _

end ModelScoring.Decimal
