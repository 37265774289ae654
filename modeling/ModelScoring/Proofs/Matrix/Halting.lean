import ModelScoring.Proofs.Matrix.Checked

/-!
# Operations that halt

A *calculation* is an operation on matrices together with its operands.  `Calculation.Halts` says, by
shapes and offsets, which calculations halt.  The product of two matrices halts if its shape is not
countable.  A matrix without elements can have any number of rows or columns, so this happens to
operands that take no memory at all.  A selection halts if the shape of its result is not countable,
or if it gets to an offset behind the last row or column.  Nothing else halts.

`Calculation.run_eq_halted_iff` says that these are the calculations that halt, and
`Calculation.checked_eq` that they are those in which a number leaves the range of sizes, or an
element is taken from outside an array, on the way.
-/

namespace ModelScoring

inductive Calculation
  | elementwise (f : Arithmetic) (A B : Matrix)
  | broadcast (f : Arithmetic) (A B : Matrix)
  | abs (A : Matrix)
  | log10 (A : Matrix)
  | transpose (A : Matrix)
  | product (A B : Matrix)
  | mtimes (A B : Matrix)
  | select (axis : Axis) (A indices : Matrix)

namespace Calculation

def run : Calculation → Except MatrixError Matrix
  | elementwise f A B => A.elementwise f B
  | broadcast f A B => A.broadcast f B
  | abs A => .ok A.abs
  | log10 A => .ok A.log10
  | transpose A => .ok A.transpose
  | product A B => A.product B
  | mtimes A B => A.mtimes B
  | select axis A indices => A.select axis indices

/-- The result, where each number on the way is checked. -/
def checked : Calculation → Except MatrixError Matrix
  | elementwise f A B => Checked.elementwise f A B
  | broadcast f A B => Checked.broadcast f A B
  | abs A => Checked.map Float.abs A
  | log10 A => Checked.map Float.log10 A
  | transpose A => Checked.transpose A
  | product A B => Checked.product A B
  | mtimes A B => Checked.mtimes A B
  | select axis A indices => Checked.select axis A indices

/-- A product that has as many elements as no size can count. -/
def ProductTooLarge (A B : Matrix) : Prop := A.cols = B.rows ∧ sizeLimit ≤ A.rows * B.cols

/-- A selection that has as many elements as no size can count, or gets behind the last row or
column of a matrix where these have elements. -/
def SelectionLost (axis : Axis) (A indices : Matrix) : Prop :=
  indices.rows = 1 ∧ ∃ offsets,
    Matrix.picks axis (axis.length A) indices.data.toList = .ok offsets ∧
      (sizeLimit ≤ indices.cols * axis.other.length A ∨
        axis.other.length A ≠ 0 ∧ ∃ offset ∈ offsets, axis.length A ≤ offset)

/-- The calculations that halt. -/
def Halts : Calculation → Prop
  | product A B => ProductTooLarge A B
  | mtimes A B => A.isScalar = false ∧ B.isScalar = false ∧ ProductTooLarge A B
  | select axis A indices => SelectionLost axis A indices
  | elementwise .. | broadcast .. | abs _ | log10 _ | transpose _ => False

theorem checked_eq (c : Calculation) : c.checked = c.run := by
  cases c with
  | elementwise f A B => exact Checked.elementwise_eq f A B
  | broadcast f A B => exact Checked.broadcast_eq f A B
  | abs A => exact Checked.map_eq _ A
  | log10 A => exact Checked.map_eq _ A
  | transpose A => exact Checked.transpose_eq A
  | product A B => exact Checked.product_eq A B
  | mtimes A B => exact Checked.mtimes_eq A B
  | select axis A indices => exact Checked.select_eq axis A indices

/-! ## By shapes -/

/-- A result fails as its shape does. -/
theorem eq_error_iff_of_shape {x : Except MatrixError Matrix} {y : Except MatrixError Shape}
    (h : x.map Matrix.shape = y) (e : MatrixError) : x = .error e ↔ y = .error e := by
  subst h
  cases x with
  | error _ => simp [Except.map]
  | ok _ => simp [Except.map]

theorem pointwise_ne_error (op : Operation) (s t : Shape) {e : MatrixError}
    (he : ∀ lhs rhs, e ≠ .incompatibleDimensions op lhs rhs) : s.pointwise op t ≠ .error e := by
  unfold Shape.pointwise
  split
  · exact fun h => nomatch h
  · split
    · exact fun h => nomatch h
    · split
      · exact fun h => nomatch h
      · exact fun h => he _ _ (Except.error.inj h).symm

theorem product_eq_halted_iff (s t : Shape) :
    s.product t = .error .halted ↔ s.cols = t.rows ∧ sizeLimit ≤ s.rows * t.cols := by
  unfold Shape.product Shape.chains
  by_cases hchains : s.cols = t.rows
  · by_cases hlt : s.rows * t.cols < sizeLimit
    · simp [hchains, hlt, Nat.not_le.2 hlt]
    · simp [hchains, hlt, Nat.not_lt.1 hlt]
  · simp [hchains]

theorem mtimes_eq_halted_iff (s t : Shape) :
    s.mtimes t = .error .halted ↔
      s.isScalar = false ∧ t.isScalar = false ∧ s.cols = t.rows ∧ sizeLimit ≤ s.rows * t.cols := by
  unfold Shape.mtimes
  by_cases h : (s.isScalar || t.isScalar) = true
  · rw [if_pos h]
    constructor
    · intro hhalted
      exact absurd hhalted (pointwise_ne_error .times s t fun _ _ hne => nomatch hne)
    · rintro ⟨hs, ht, -⟩
      simp [hs, ht] at h
  · rw [if_neg h, product_eq_halted_iff]
    simp only [Bool.or_eq_true, not_or, Bool.not_eq_true] at h
    simp [h.1, h.2]

theorem countable_selected_iff (axis : Axis) (A indices : Matrix) :
    (Shape.selected axis A.shape indices.shape).Countable ↔
      indices.cols * axis.other.length A < sizeLimit := by
  cases axis with
  | rows => exact Iff.rfl
  | cols =>
    rw [Nat.mul_comm]
    exact Iff.rfl

theorem select_eq_halted_iff (axis : Axis) (A indices : Matrix) :
    A.select axis indices = .error .halted ↔ SelectionLost axis A indices := by
  unfold SelectionLost
  by_cases h : indices.rows = 1
  · cases hp : Matrix.picks axis (axis.length A) indices.data.toList with
    | error e =>
      obtain ⟨value, rfl⟩ := Matrix.invalidIndex_of_picks_error hp
      rw [Matrix.select_of_picks_error h hp]
      simp
    | ok offsets =>
      by_cases hr : A.Reaches axis offsets
      · have hfits : ¬(axis.other.length A ≠ 0 ∧ ∃ offset ∈ offsets, axis.length A ≤ offset) :=
          fun hbehind => Matrix.not_reaches_iff.2 hbehind hr
        have hcountable := countable_selected_iff axis A indices
        rw [eq_error_iff_of_shape (Matrix.shape_select_of_reaches h hp hr), Shape.select, if_pos h]
        by_cases hlt : indices.cols * axis.other.length A < sizeLimit
        · rw [if_pos (hcountable.2 hlt)]
          simp [h, hfits, Nat.not_le.2 hlt]
        · rw [if_neg fun hyes => hlt (hcountable.1 hyes)]
          simp [h, Nat.not_lt.1 hlt]
      · rw [Matrix.select_of_not_reaches h hp hr]
        exact iff_of_true rfl ⟨h, offsets, rfl, .inr (Matrix.not_reaches_iff.1 hr)⟩
  · rw [Matrix.select_of_rows_ne h]
    simp [h]

theorem run_eq_halted_iff (c : Calculation) : c.run = .error .halted ↔ c.Halts := by
  cases c with
  | elementwise f A B =>
    rw [run, eq_error_iff_of_shape (Matrix.shape_elementwise f A B)]
    by_cases h : A.shape = B.shape <;> simp [h, Halts]
  | broadcast f A B =>
    rw [run, eq_error_iff_of_shape (Matrix.shape_broadcast f A B)]
    exact iff_of_false (pointwise_ne_error _ _ _ fun _ _ hne => nomatch hne) id
  | abs A | log10 A | transpose A => exact iff_of_false (fun h => nomatch h) id
  | product A B =>
    rw [run, eq_error_iff_of_shape (Matrix.shape_product A B)]
    exact product_eq_halted_iff A.shape B.shape
  | mtimes A B =>
    rw [run, eq_error_iff_of_shape (Matrix.shape_mtimes A B)]
    exact mtimes_eq_halted_iff A.shape B.shape
  | select axis A indices => exact select_eq_halted_iff axis A indices

/-- There is a result, or the operands do not fit, or a number is refused, or nothing is said. -/
def Foreseen {α : Type} : Except MatrixError α → Prop
  | .ok _ | .error (.incompatibleDimensions ..) | .error (.invalidIndex ..) | .error .halted => True
  | .error (.indexOutOfRange ..) | .error (.bufferSizeMismatch ..) | .error (.shapeTooLarge _) =>
    False

theorem foreseen_of_shape {x : Except MatrixError Matrix} {y : Except MatrixError Shape}
    (h : x.map Matrix.shape = y) (hy : Foreseen y) : Foreseen x := by
  subst h
  cases x with
  | error e => cases e <;> exact hy
  | ok C => trivial

theorem foreseen_pointwise (op : Operation) (s t : Shape) : Foreseen (s.pointwise op t) := by
  unfold Shape.pointwise
  split
  · trivial
  · split
    · trivial
    · split <;> trivial

theorem foreseen_product (s t : Shape) : Foreseen (s.product t) := by
  unfold Shape.product
  split
  · split <;> trivial
  · trivial

theorem foreseen_mtimes (s t : Shape) : Foreseen (s.mtimes t) := by
  unfold Shape.mtimes
  split
  · exact foreseen_pointwise .times s t
  · exact foreseen_product s t

theorem foreseen_select (axis : Axis) (s t : Shape) : Foreseen (s.select axis t) := by
  unfold Shape.select
  split
  · split <;> trivial
  · trivial

theorem foreseen_run (c : Calculation) : Foreseen c.run := by
  cases c with
  | elementwise f A B =>
    refine foreseen_of_shape (Matrix.shape_elementwise f A B) ?_
    split <;> trivial
  | broadcast f A B =>
    exact foreseen_of_shape (Matrix.shape_broadcast f A B) (foreseen_pointwise _ _ _)
  | abs A | log10 A | transpose A => trivial
  | product A B => exact foreseen_of_shape (Matrix.shape_product A B) (foreseen_product _ _)
  | mtimes A B => exact foreseen_of_shape (Matrix.shape_mtimes A B) (foreseen_mtimes _ _)
  | select axis A indices =>
    rcases Matrix.shape_select axis A indices with h | ⟨value, h⟩ | ⟨-, h⟩
    · exact foreseen_of_shape h (foreseen_select axis _ _)
    · rw [run, h]
      trivial
    · rw [run, h]
      trivial

/-- No calculation says of its result that it is too large. -/
theorem run_ne_shapeTooLarge (c : Calculation) (s : Shape) :
    c.run ≠ .error (.shapeTooLarge s) := by
  intro h
  have hforeseen := c.foreseen_run
  rw [h] at hforeseen
  exact hforeseen

end Calculation

end ModelScoring
