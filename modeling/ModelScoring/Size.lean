/-!
# Sizes

A size counts rows, columns, elements or steps.  Sizes are the natural numbers below
`sizeLimit`.  A size is read from decimal digits, with at most one plus sign before them.
`lt_of_readSize?` says a size that was read keeps the limit, and `readSize?_eq_some_iff` of which
texts a size is read.
-/

namespace ModelScoring

/-- The first number that is not a size, `2 ^ 64`. -/
abbrev sizeLimit : Nat := 18446744073709551616

theorem sizeLimit_pos : 0 < sizeLimit := by decide

/-- The value of a text of decimal digits. -/
def digitsValue (digits : List Char) : Nat :=
  digits.foldl (fun value c => 10 * value + (c.toNat - '0'.toNat)) 0

/-- Whether a text is one decimal digit or more. -/
def isNumber (cs : List Char) : Bool := !cs.isEmpty && cs.all Char.isDigit

/-- The text without the plus sign it may start with. -/
def dropPlus : List Char → List Char
  | '+' :: cs => cs
  | cs => cs

/-- Reads a size: digits, of a value below the limit, after at most one plus sign. -/
def readSize? (cs : List Char) : Option Nat :=
  let digits := dropPlus cs
  if isNumber digits && decide (digitsValue digits < sizeLimit) then some (digitsValue digits)
  else none

theorem lt_of_readSize? {cs : List Char} {n : Nat} (h : readSize? cs = some n) :
    n < sizeLimit := by
  simp only [readSize?] at h
  split at h
  · next hc =>
    simp only [Bool.and_eq_true, decide_eq_true_eq] at hc
    cases h
    exact hc.2
  · cases h

/-- A text of digits that has a value, after at most one plus sign. -/
def IsNumeral (cs : List Char) (n : Nat) : Prop :=
  ∃ digits, (cs = digits ∨ cs = '+' :: digits) ∧ digits ≠ [] ∧
    (∀ c ∈ digits, c.isDigit = true) ∧ digitsValue digits = n

theorem isNumber_iff {cs : List Char} :
    isNumber cs = true ↔ cs ≠ [] ∧ ∀ c ∈ cs, c.isDigit = true := by
  simp [isNumber]

theorem eq_or_eq_dropPlus (cs : List Char) : cs = dropPlus cs ∨ cs = '+' :: dropPlus cs := by
  unfold dropPlus
  split
  · exact .inr rfl
  · exact .inl rfl

/-- No digit is a plus sign. -/
theorem dropPlus_of_isDigit {cs : List Char} (h : ∀ c ∈ cs, c.isDigit = true) :
    dropPlus cs = cs := by
  unfold dropPlus
  split
  · next rest =>
    have hplus := h '+' List.mem_cons_self
    exact absurd hplus (by decide)
  · rfl

/-- A numeral is read if its value is a size. -/
theorem readSize?_of_isNumeral {cs : List Char} {n : Nat} (h : IsNumeral cs n) :
    readSize? cs = if n < sizeLimit then some n else none := by
  obtain ⟨digits, hcs, hne, hdigits, rfl⟩ := h
  have hdrop : dropPlus cs = digits := by
    rcases hcs with rfl | rfl
    · exact dropPlus_of_isDigit hdigits
    · rfl
  simp [readSize?, hdrop, isNumber_iff.2 ⟨hne, hdigits⟩]

theorem readSize?_eq_some_iff {cs : List Char} {n : Nat} :
    readSize? cs = some n ↔ IsNumeral cs n ∧ n < sizeLimit := by
  constructor
  · intro h
    refine ⟨⟨dropPlus cs, eq_or_eq_dropPlus cs, ?_⟩, lt_of_readSize? h⟩
    simp only [readSize?] at h
    split at h
    · next hc =>
      simp only [Bool.and_eq_true, isNumber_iff] at hc
      exact ⟨hc.1.1, hc.1.2, Option.some.inj h⟩
    · cases h
  · rintro ⟨hnumeral, hlt⟩
    rw [readSize?_of_isNumeral hnumeral, if_pos hlt]

/-- The sum of some sizes, which need not be a size. -/
def sumOf (sizes : List Nat) : Nat := sizes.foldr (· + ·) 0

@[simp] theorem sumOf_nil : sumOf [] = 0 := rfl

@[simp] theorem sumOf_cons (n : Nat) (sizes : List Nat) :
    sumOf (n :: sizes) = n + sumOf sizes := rfl

theorem sumOf_append (sizes others : List Nat) :
    sumOf (sizes ++ others) = sumOf sizes + sumOf others := by
  induction sizes with
  | nil => simp
  | cons n sizes ih => simp [ih, Nat.add_assoc]

end ModelScoring
