import ModelScoring.Matrix.Product
import ModelScoring.Matrix.Selection

/-!
# The shape of a result

Whether an operation on matrices succeeds, why it fails if it does, and what shape its result has,
is settled by the shapes of the operands.  `Shape.pointwise`, `Shape.product`, `Shape.mtimes` and
`Shape.select` calculate with shapes as the operations do with matrices, and for each operation one
lemma says that the shape of its result is calculated so.

Selecting is the exception.  It looks at the numbers that select, refuses those that are out of
bounds, and halts at one that passes for a row or column behind the last (`PicksBehind`).  The
latter takes a matrix of `2 ^ 53` elements or more (`le_size_of_picksBehind`).
-/

namespace ModelScoring

namespace Shape

/-- The shape of the result of an arithmetic operation, a scalar being paired with every element. -/
def pointwise (op : Operation) (s t : Shape) : Except MatrixError Shape :=
  if s.isScalar then .ok t
  else if t.isScalar then .ok s
  else if s = t then .ok s
  else .error (.incompatibleDimensions op s t)

def product (s t : Shape) : Except MatrixError Shape :=
  if s.chains t then
    if s.rows * t.cols < sizeLimit then .ok ⟨s.rows, t.cols, s.rows_lt, t.cols_lt⟩
    else .error .halted
  else .error (.incompatibleDimensions .mtimes s t)

/-- The shape of a product, or of the multiple by a scalar. -/
def mtimes (s t : Shape) : Except MatrixError Shape :=
  if s.isScalar || t.isScalar then pointwise .times s t else product s t

/-- The shape of as many rows or columns of a matrix as another shape has columns. -/
def selected (axis : Axis) (s t : Shape) : Shape :=
  match axis with
  | .rows => ⟨t.cols, s.cols, t.cols_lt, s.cols_lt⟩
  | .cols => ⟨s.rows, t.cols, s.rows_lt, t.cols_lt⟩

/-- The shape of selected rows or columns, if every number passes. -/
def select (axis : Axis) (s t : Shape) : Except MatrixError Shape :=
  if t.rows = 1 then
    if (selected axis s t).Countable then .ok (selected axis s t) else .error .halted
  else .error (.incompatibleDimensions axis.operation s t)

theorem eq_scalar_of_isScalar {s : Shape} (h : s.isScalar = true) : s = scalar := by
  simp only [isScalar, Bool.and_eq_true, beq_iff_eq] at h
  exact ext h.1 h.2

end Shape

namespace Matrix

variable {A B I : Matrix}

/-! ## Arithmetic -/

theorem shape_elementwise (f : Arithmetic) (A B : Matrix) :
    (elementwise f A B).map shape =
      if A.shape = B.shape then .ok A.shape
      else .error (.incompatibleDimensions f.operation A.shape B.shape) := by
  unfold elementwise
  split <;> rfl

theorem shape_broadcast (f : Arithmetic) (A B : Matrix) :
    (broadcast f A B).map shape = Shape.pointwise f.operation A.shape B.shape := by
  unfold broadcast Shape.pointwise
  by_cases hA : A.shape.isScalar = true
  · obtain ⟨a, ha⟩ := scalar?_eq_some_of_isScalar hA
    rw [if_pos hA, ha]
    by_cases hB : B.shape.isScalar = true
    · obtain ⟨b, hb⟩ := scalar?_eq_some_of_isScalar hB
      rw [hb, Shape.eq_scalar_of_isScalar hB]
      rfl
    · rw [scalar?_eq_none_of_not_isScalar (Bool.eq_false_iff.2 hB)]
      rfl
  · rw [if_neg hA, scalar?_eq_none_of_not_isScalar (Bool.eq_false_iff.2 hA)]
    by_cases hB : B.shape.isScalar = true
    · obtain ⟨b, hb⟩ := scalar?_eq_some_of_isScalar hB
      rw [if_pos hB, hb]
      rfl
    · rw [if_neg hB, scalar?_eq_none_of_not_isScalar (Bool.eq_false_iff.2 hB)]
      exact shape_elementwise f A B

/-! ## Products -/

theorem shape_product (A B : Matrix) : (product A B).map shape = Shape.product A.shape B.shape := by
  unfold product Shape.product
  by_cases hchains : A.shape.chains B.shape = true
  · rw [if_pos hchains, if_pos hchains]
    by_cases hcount : (productShape A B).Countable
    · have hlt : A.shape.rows * B.shape.cols < sizeLimit := hcount
      rw [dif_pos hcount, if_pos hlt]
      rfl
    · have hnlt : ¬A.shape.rows * B.shape.cols < sizeLimit := hcount
      rw [dif_neg hcount, if_neg hnlt]
      rfl
  · rw [if_neg hchains, if_neg hchains]
    rfl

theorem shape_mtimes (A B : Matrix) : (mtimes A B).map shape = Shape.mtimes A.shape B.shape := by
  unfold mtimes Shape.mtimes
  by_cases hscalar : (A.shape.isScalar || B.shape.isScalar) = true
  · rw [if_pos hscalar]
    exact (congrArg (Except.map shape) (if_pos hscalar)).trans (shape_broadcast .times A B)
  · rw [if_neg hscalar]
    exact (congrArg (Except.map shape) (if_neg hscalar)).trans (shape_product A B)

/-! ## Selections -/

/-- Every number is refused or picks an offset. -/
theorem invalidIndex_of_picks_error {axis : Axis} {bound : Nat} {values : List Float}
    {e : MatrixError} (h : picks axis bound values = .error e) :
    ∃ value, e = .invalidIndex axis value bound := by
  induction values with
  | nil => cases h
  | cons value values ih =>
    rcases picks_cons_eq_error_iff.1 h with ⟨-, rfl⟩ | ⟨-, hrest⟩
    · exact ⟨value, rfl⟩
    · exact ih hrest

theorem select_of_rows_ne {axis : Axis} (h : I.rows ≠ 1) :
    select axis A I = .error (.incompatibleDimensions axis.operation A.shape I.shape) :=
  dif_neg h

theorem select_of_picks_error {axis : Axis} {e : MatrixError} (h : I.rows = 1)
    (hp : picks axis (axis.length A) I.data.toList = .error e) : select axis A I = .error e := by
  unfold select
  rw [dif_pos h]
  split
  next e' he =>
    rw [hp] at he
    cases he
    rfl
  next offsets ho =>
    rw [hp] at ho
    cases ho

theorem length_of_picks_row {axis : Axis} {bound : Nat} {offsets : List Nat} (h : I.rows = 1)
    (hp : picks axis bound I.data.toList = .ok offsets) : offsets.length = I.cols := by
  have hcount : I.shape.count = I.rows * I.cols := rfl
  rw [length_of_picks hp, Array.length_toList, I.size_data, hcount, h, Nat.one_mul]

/-- Numbers that all pass select what is at their offsets, if they reach it. -/
theorem select_of_picks {axis : Axis} {offsets : List Nat} (h : I.rows = 1)
    (hp : picks axis (axis.length A) I.data.toList = .ok offsets) :
    select axis A I =
      if hr : A.Reaches axis offsets then
        match axis, hr with
        | .rows, hr => A.rowsAt offsets I.cols I.cols_lt (length_of_picks_row h hp) hr
        | .cols, _ => A.colsAt offsets I.cols I.cols_lt (length_of_picks_row h hp)
      else .error .halted := by
  unfold select
  rw [dif_pos h]
  split
  next e he =>
    rw [hp] at he
    cases he
  next offsets' ho =>
    rw [hp] at ho
    cases ho
    rfl

theorem select_of_not_reaches {axis : Axis} {offsets : List Nat} (h : I.rows = 1)
    (hp : picks axis (axis.length A) I.data.toList = .ok offsets) (hr : ¬A.Reaches axis offsets) :
    select axis A I = .error .halted :=
  (select_of_picks h hp).trans (dif_neg hr)

theorem select_rows_of_reaches {offsets : List Nat} (h : I.rows = 1)
    (hp : picks .rows A.rows I.data.toList = .ok offsets) (hr : A.Reaches .rows offsets) :
    select .rows A I = A.rowsAt offsets I.cols I.cols_lt (length_of_picks_row h hp) hr :=
  (@select_of_picks A I .rows offsets h hp).trans (dif_pos hr)

theorem select_cols_of_reaches {offsets : List Nat} (h : I.rows = 1)
    (hp : picks .cols A.cols I.data.toList = .ok offsets) (hr : A.Reaches .cols offsets) :
    select .cols A I = A.colsAt offsets I.cols I.cols_lt (length_of_picks_row h hp) :=
  (@select_of_picks A I .cols offsets h hp).trans (dif_pos hr)

theorem shape_select_of_reaches {axis : Axis} {offsets : List Nat} (h : I.rows = 1)
    (hp : picks axis (axis.length A) I.data.toList = .ok offsets) (hr : A.Reaches axis offsets) :
    (select axis A I).map shape = Shape.select axis A.shape I.shape := by
  unfold Shape.select
  rw [if_pos h]
  cases axis with
  | rows =>
    rw [select_rows_of_reaches h hp hr, rowsAt]
    by_cases hcount : (Shape.selected .rows A.shape I.shape).Countable
    · rw [if_pos hcount]
      exact congrArg (Except.map shape) (dif_pos hcount)
    · rw [if_neg hcount]
      exact congrArg (Except.map shape) (dif_neg hcount)
  | cols =>
    rw [select_cols_of_reaches h hp hr, colsAt]
    by_cases hcount : (Shape.selected .cols A.shape I.shape).Countable
    · rw [if_pos hcount]
      exact congrArg (Except.map shape) (dif_pos hcount)
    · rw [if_neg hcount]
      exact congrArg (Except.map shape) (dif_neg hcount)

/-- The numbers of a row all pass, and one of them picks what is behind the last row or column of a
matrix where these have elements. -/
def PicksBehind (axis : Axis) (A I : Matrix) : Prop :=
  I.rows = 1 ∧ ∃ offsets, picks axis (axis.length A) I.data.toList = .ok offsets ∧
    axis.other.length A ≠ 0 ∧ ∃ offset ∈ offsets, axis.length A ≤ offset

theorem not_reaches_iff {axis : Axis} {offsets : List Nat} :
    ¬A.Reaches axis offsets ↔
      axis.other.length A ≠ 0 ∧ ∃ offset ∈ offsets, axis.length A ≤ offset := by
  simp [Reaches]

/-- A selection goes by shapes, or refuses a number, or halts at one behind the last. -/
theorem shape_select (axis : Axis) (A I : Matrix) :
    (select axis A I).map shape = Shape.select axis A.shape I.shape ∨
      (∃ value, select axis A I = .error (.invalidIndex axis value (axis.length A))) ∨
      PicksBehind axis A I ∧ select axis A I = .error .halted := by
  by_cases h : I.rows = 1
  · cases hp : picks axis (axis.length A) I.data.toList with
    | error e =>
      obtain ⟨value, rfl⟩ := invalidIndex_of_picks_error hp
      exact .inr (.inl ⟨value, select_of_picks_error h hp⟩)
    | ok offsets =>
      by_cases hr : A.Reaches axis offsets
      · exact .inl (shape_select_of_reaches h hp hr)
      · have hbehind := not_reaches_iff.1 hr
        exact .inr (.inr ⟨⟨h, offsets, hp, hbehind⟩, select_of_not_reaches h hp hr⟩)
  · left
    rw [select_of_rows_ne h]
    exact (if_neg h).symm

/-! ## Picks behind the last -/

/-- A bound that is not rounded up lets no number pass that is greater. -/
theorem lt_of_pick?_of_nearest_le {bound offset : Nat} {value : Float}
    (hbound : Decimal.nearestFloatValue bound ≤ bound) (h : pick? bound value = some offset) :
    offset < bound := by
  unfold pick? at h
  split at h
  · cases h
  · next n hn =>
    split at h
    · next hin =>
      cases h
      omega
    · cases h

theorem lt_of_pick? {bound offset : Nat} {value : Float} (hbound : bound < Decimal.twoTo 53)
    (h : pick? bound value = some offset) : offset < bound :=
  lt_of_pick?_of_nearest_le (Nat.le_of_eq (Decimal.nearestFloatValue_of_lt hbound)) h

/-- The number behind an offset is a size. -/
theorem succ_lt_of_pick? {bound offset : Nat} {value : Float}
    (h : pick? bound value = some offset) : offset + 1 < sizeLimit := by
  unfold pick? at h
  split at h
  · cases h
  · next n _ =>
    split at h
    · cases h
      have hmin := Nat.min_le_right n.toNat (sizeLimit - 1)
      have hlimit : 1 < sizeLimit := by decide
      omega
    · cases h

theorem forall_of_picks {axis : Axis} {bound : Nat} {values : List Float} {offsets : List Nat}
    {P : Nat → Prop} (hpick : ∀ value offset, pick? bound value = some offset → P offset)
    (h : picks axis bound values = .ok offsets) : ∀ offset ∈ offsets, P offset := by
  induction values generalizing offsets with
  | nil =>
    cases h
    exact fun _ hmem => nomatch hmem
  | cons value values ih =>
    obtain ⟨offset, rest, hvalue, hrest, rfl⟩ := picks_cons_eq_ok_iff.1 h
    exact List.forall_mem_cons.2 ⟨hpick value offset hvalue, ih hrest⟩

/-- Only matrices with many elements have picks behind the last row or column. -/
theorem le_size_of_picksBehind {axis : Axis} (h : PicksBehind axis A I) :
    Decimal.twoTo 53 ≤ A.size := by
  obtain ⟨-, offsets, hp, hother, offset, hmem, hpast⟩ := h
  have hlength : Decimal.twoTo 53 ≤ axis.length A :=
    Nat.le_of_not_lt fun hlt =>
      Nat.not_lt.2 hpast (forall_of_picks (fun _ _ => lt_of_pick? hlt) hp offset hmem)
  have hsize : A.size = axis.length A * axis.other.length A := by
    rw [size, A.size_data, Shape.count]
    cases axis with
    | rows => rfl
    | cols => exact Nat.mul_comm _ _
  rw [hsize]
  exact Nat.le_trans hlength (Nat.le_mul_of_pos_right _ (Nat.pos_of_ne_zero hother))

end Matrix

end ModelScoring
