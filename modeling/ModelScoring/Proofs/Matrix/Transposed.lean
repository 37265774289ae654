import ModelScoring.Proofs.Matrix.Slices

/-!
# Selections from a transposed matrix

Exchanging rows and columns turns the rows of a matrix into the columns of another.  So a selection
of rows and a selection of columns, from a matrix and from its transpose, are one and the same up to
another exchange: numbers pick the same offsets (`picks_other`), these reach equally far
(`reaches_transpose`), and the shapes of the results are transposes of each other
(`Shape.select_transposed`).  The elements are compared through the view (`transpose_of_colsAt`),
although one result is made of whole rows and the other of elements taken from every row.

`select_transpose` says that this is so of the results and of the failures.
-/

namespace ModelScoring

namespace Axis

@[simp] theorem other_other (axis : Axis) : axis.other.other = axis := by cases axis <;> rfl

@[simp] theorem length_transpose (axis : Axis) (A : Matrix) :
    axis.length A.transpose = axis.other.length A := by
  cases axis <;> rfl

end Axis

/-- Columns for rows and rows for columns. -/
def Operation.mirrored : Operation → Operation
  | .rows => .cols
  | .cols => .rows
  | op => op

@[simp] theorem Axis.operation_other (axis : Axis) :
    axis.other.operation = axis.operation.mirrored := by
  cases axis <;> rfl

/-- The failure of the same kind with rows and columns exchanged.  The right operand, which holds the
numbers that select, and the number that is refused and its bound stay as they are. -/
def MatrixError.mirrored : MatrixError → MatrixError
  | indexOutOfRange row col shape => indexOutOfRange col row shape.transposed
  | incompatibleDimensions op lhs rhs => incompatibleDimensions op.mirrored lhs.transposed rhs
  | bufferSizeMismatch shape expected actual => bufferSizeMismatch shape.transposed expected actual
  | shapeTooLarge shape => shapeTooLarge shape.transposed
  | invalidIndex axis value bound => invalidIndex axis.other value bound
  | halted => halted

@[simp] theorem Operation.mirrored_mirrored (op : Operation) : op.mirrored.mirrored = op := by
  cases op <;> rfl

@[simp] theorem MatrixError.mirrored_mirrored (e : MatrixError) : e.mirrored.mirrored = e := by
  cases e <;> simp [mirrored]

namespace Shape

theorem selected_transposed (axis : Axis) (s t : Shape) :
    selected axis.other s.transposed t = (selected axis s t).transposed := by
  cases axis <;> rfl

theorem countable_transposed (s : Shape) : s.transposed.Countable ↔ s.Countable := by
  rw [Countable, Countable, count_transposed]

theorem select_transposed (axis : Axis) (s t : Shape) :
    select axis.other s.transposed t =
      ((select axis s t).map transposed).mapError MatrixError.mirrored := by
  unfold select
  simp only [selected_transposed, countable_transposed]
  split
  · split <;> rfl
  · simp [Except.map, Except.mapError, MatrixError.mirrored]

end Shape

namespace Matrix

variable {A I R S : Matrix} {offsets : List Nat}

@[simp] theorem shape_transpose (A : Matrix) : A.transpose.shape = A.shape.transposed := rfl

/-- Numbers pick the same offsets from columns as from rows. -/
theorem picks_other (axis : Axis) (bound : Nat) (values : List Float) :
    picks axis.other bound values = (picks axis bound values).mapError MatrixError.mirrored := by
  induction values with
  | nil => rfl
  | cons value values ih =>
    rw [picks, picks, ih]
    cases pick? bound value with
    | none => rfl
    | some offset => cases picks axis bound values <;> rfl

/-- Numbers pick the same offsets from a matrix and, along the other axis, from its transpose. -/
theorem picks_transpose (axis : Axis) (A : Matrix) (values : List Float) :
    picks axis.other (axis.other.length A.transpose) values =
      (picks axis (axis.length A) values).mapError MatrixError.mirrored := by
  rw [Axis.length_transpose, Axis.other_other, picks_other]

theorem reaches_transpose {axis : Axis} :
    A.transpose.Reaches axis.other offsets ↔ A.Reaches axis offsets := by
  simp [Reaches]

/-- The columns of the transpose at some offsets, transposed, are the rows at the offsets. -/
theorem transpose_of_colsAt {n : Nat} {hn : n < sizeLimit} {hlength : offsets.length = n}
    {hreach : A.Reaches .rows offsets} (hR : A.rowsAt offsets n hn hlength hreach = .ok R)
    (hS : A.transpose.colsAt offsets n hn hlength = .ok S) : S.transpose = R := by
  obtain ⟨hRrows, hRcols, -⟩ := parts_of_rowsAt hR
  obtain ⟨hSrows, hScols, -⟩ := parts_of_colsAt hS
  have hreach' : A.transpose.Reaches .cols offsets := (@reaches_transpose A offsets .rows).2 hreach
  refine ext_get? (Shape.ext (hScols.trans hRrows.symm) (hSrows.trans hRcols.symm)) ?_
  intro r c hr hc
  have hj : r < offsets.length := by
    rw [hlength, ← hScols]
    exact hr
  have hc' : c < A.cols := Nat.lt_of_lt_of_eq hc hSrows
  obtain ⟨k, hk, hrow⟩ := get?_rowsAt hR hj ⟨c, hc'⟩
  obtain ⟨k', hk', hcol⟩ := get?_colsAt hreach' hS ⟨c, hc'⟩ hj
  calc S.transpose.get? r c = S.get? c r := get?_transpose S c r
    _ = some (A.transpose.entry ⟨c, hc'⟩ k') := hcol
    _ = A.transpose.get? c offsets[r] := by rw [← hk', ← get?_eq_entry]
    _ = A.get? offsets[r] c := get?_transpose A _ c
    _ = some (A.entry k ⟨c, hc'⟩) := by rw [← hk, ← get?_eq_entry]
    _ = R.get? r c := hrow.symm

/-- Offsets that reach far enough select transposed results from a matrix and its transpose. -/
theorem eq_transpose_of_reaches {axis : Axis} (h : I.rows = 1)
    (hp : picks axis (axis.length A) I.data.toList = .ok offsets) (hr : A.Reaches axis offsets)
    (hR : select axis A I = .ok R) (hS : select axis.other A.transpose I = .ok S) :
    S = R.transpose := by
  have hp' := picks_transpose axis A I.data.toList
  rw [hp] at hp'
  have hr' := reaches_transpose.2 hr
  cases axis with
  | rows =>
    rw [select_rows_of_reaches h hp hr] at hR
    rw [Axis.other, select_cols_of_reaches h hp' hr'] at hS
    rw [← transpose_of_colsAt hR hS, transpose_transpose]
  | cols =>
    rw [select_cols_of_reaches h hp hr] at hR
    rw [Axis.other, select_rows_of_reaches h hp' hr'] at hS
    exact (transpose_of_colsAt hS (by rwa [transpose_transpose])).symm

/-- Either both results have a shape or neither has, and where they have, the elements agree. -/
theorem select_transpose_of_reaches {axis : Axis} (h : I.rows = 1)
    (hp : picks axis (axis.length A) I.data.toList = .ok offsets) (hr : A.Reaches axis offsets) :
    select axis.other A.transpose I =
      ((select axis A I).map transpose).mapError MatrixError.mirrored := by
  have hp' := picks_transpose axis A I.data.toList
  rw [hp] at hp'
  have hshape := shape_select_of_reaches h hp' (reaches_transpose.2 hr)
  rw [shape_transpose, Shape.select_transposed, ← shape_select_of_reaches h hp hr] at hshape
  cases hR : select axis A I with
  | error e =>
    cases hS : select axis.other A.transpose I with
    | error e' =>
      rw [hR, hS] at hshape
      exact congrArg Except.error (Except.error.inj hshape)
    | ok S =>
      rw [hR, hS] at hshape
      cases hshape
  | ok R =>
    cases hS : select axis.other A.transpose I with
    | error e' =>
      rw [hR, hS] at hshape
      cases hshape
    | ok S => exact congrArg Except.ok (eq_transpose_of_reaches h hp hr hR hS)

/-- A selection from the transpose is that from the matrix, transposed, and fails as it does. -/
theorem select_transpose (axis : Axis) (A I : Matrix) :
    select axis.other A.transpose I =
      ((select axis A I).map transpose).mapError MatrixError.mirrored := by
  by_cases h : I.rows = 1
  · have hp' := picks_transpose axis A I.data.toList
    cases hp : picks axis (axis.length A) I.data.toList with
    | error e =>
      rw [hp] at hp'
      rw [select_of_picks_error h hp, select_of_picks_error h hp']
      rfl
    | ok offsets =>
      by_cases hr : A.Reaches axis offsets
      · exact select_transpose_of_reaches h hp hr
      · rw [hp] at hp'
        rw [select_of_not_reaches h hp hr,
          select_of_not_reaches h hp' (mt reaches_transpose.1 hr)]
        rfl
  · rw [select_of_rows_ne h, select_of_rows_ne h]
    simp [Except.map, Except.mapError, MatrixError.mirrored]

/-- A selection along one axis has a result exactly if the selection by the same numbers along the
other axis of the transpose has one, and the results are transposes of each other.  Where one fails
the other fails with an error of the same kind.  The error of a refused number names that number and
the bound, which are the same in both. -/
theorem select_iff_select_transpose (axis : Axis) (A I : Matrix) :
    ((∃ R, select axis A I = .ok R) ↔ ∃ S, select axis.other A.transpose I = .ok S) ∧
    (∀ S, select axis.other A.transpose I = .ok S ↔ select axis A I = .ok S.transpose) ∧
    ∀ e, select axis A I = .error e ↔ select axis.other A.transpose I = .error e.mirrored := by
  have htranspose : Function.Involutive transpose := transpose_transpose
  have hmirrored : Function.Involutive MatrixError.mirrored := MatrixError.mirrored_mirrored
  rw [select_transpose]
  cases select axis A I with
  | ok R =>
    have hR : ∃ S : Matrix, R = S.transpose := ⟨R.transpose, (transpose_transpose R).symm⟩
    simp [Except.map, Except.mapError, htranspose.eq_iff, hR]
  | error e => simp [Except.map, Except.mapError, hmirrored.injective.eq_iff]

end Matrix

end ModelScoring
