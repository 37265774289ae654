import ModelScoring.Decimal.Notation
import ModelScoring.Matrix.Shape
import ModelScoring.Operation

/-!
# Matrices

A matrix is a countable shape and as many floats as the shape counts, row by row.  The number of
floats and the bound on it are part of the type, so an offset that a position in range gives is
always inside.  `Matrix.get?` is the view of a matrix: it tells everything about it but the
number of columns of a matrix without rows and the number of rows of one without columns.

Matrices are made from a shape and values (`ofArray`), from rows (`ofRows`), or element by element
(`ofFn`).  `get?_ofFn` and `get?_set` say what the view of the result is.

A matrix operation fails with a `MatrixError`.  All but one of them are reported to the user.  The
last, `halted`, stands for a number that went out of the range of sizes on the way: nothing is
reported then, and the run stops.
-/

namespace ModelScoring

inductive Axis
  | rows
  | cols
  deriving DecidableEq, Repr

/-- The operation that selects along an axis. -/
def Axis.operation : Axis → Operation
  | .rows => .rows
  | .cols => .cols

/-- Why there is no resulting matrix or element. -/
inductive MatrixError
  /-- There is no element at the position. -/
  | indexOutOfRange (row col : Nat) (shape : Shape)
  /-- The operation is not defined for operands of these shapes. -/
  | incompatibleDimensions (op : Operation) (lhs rhs : Shape)
  /-- The values do not fill the shape, or overfill it. -/
  | bufferSizeMismatch (shape : Shape) (expected actual : Nat)
  /-- The shape is not countable. -/
  | shapeTooLarge (shape : Shape)
  /-- There is no row or column with this number. -/
  | invalidIndex (axis : Axis) (value : Float) (bound : Nat)
  /-- A number left the range of sizes; the run stops without a report. -/
  | halted

def MatrixError.message : MatrixError → String
  | indexOutOfRange row col shape =>
    s!"index ({row}, {col}) out of range for {shape.text} matrix"
  | incompatibleDimensions op lhs rhs =>
    s!"dimensions of {lhs.text} and {rhs.text} are not suitable for {op.name}"
  | bufferSizeMismatch shape expected actual =>
    s!"{shape.text} matrix needs {expected} values, got {actual}"
  | shapeTooLarge shape => s!"{shape.text} matrix has too many elements"
  | invalidIndex axis value bound =>
    let written := Decimal.Layout.plain.text value
    s!"invalid {axis.operation.name} index {written}: expected 1..={bound}"
  | halted => "a number left the range of sizes"

/-- A matrix of floats, row by row. -/
structure Matrix where
  /-- The numbers of rows and columns. -/
  shape : Shape
  /-- The elements, row by row. -/
  data : Array Float
  /-- There are as many elements as the shape counts. -/
  size_data : data.size = shape.count
  /-- Their number is a size. -/
  countable : shape.Countable

namespace Matrix

abbrev rows (A : Matrix) : Nat := A.shape.rows

abbrev cols (A : Matrix) : Nat := A.shape.cols

theorem rows_lt (A : Matrix) : A.rows < sizeLimit := A.shape.rows_lt

theorem cols_lt (A : Matrix) : A.cols < sizeLimit := A.shape.cols_lt

def size (A : Matrix) : Nat := A.data.size

def isEmpty (A : Matrix) : Bool := A.data.isEmpty

/-- Whether there is exactly one row and one column. -/
def isScalar (A : Matrix) : Bool := A.shape.isScalar

/-- The only element of a matrix with one row and one column. -/
def scalar? (A : Matrix) : Option Float := if A.isScalar then A.data[0]? else none

theorem ext {A B : Matrix} (hshape : A.shape = B.shape) (hdata : A.data = B.data) : A = B := by
  cases A
  cases B
  simp_all

/-- Whether two matrices have the same shape and equal elements.  A zero equals its negative, and
not-a-number does not equal itself. -/
instance : BEq Matrix := ⟨fun A B => A.shape == B.shape && A.data == B.data⟩

/-! ## Elements -/

/-- The offset of a position in range is inside the data. -/
theorem offset_lt {m n r c : Nat} (hr : r < m) (hc : c < n) : r * n + c < m * n :=
  calc r * n + c < r * n + n := Nat.add_lt_add_left hc _
    _ = (r + 1) * n := (Nat.succ_mul r n).symm
    _ ≤ m * n := Nat.mul_le_mul_right n hr

/-- A position is the quotient and the remainder of its offset. -/
theorem offset_div_mod {n c : Nat} (r : Nat) (hc : c < n) :
    (r * n + c) / n = r ∧ (r * n + c) % n = c := by
  have hn : 0 < n := Nat.zero_lt_of_lt hc
  constructor
  · rw [Nat.mul_comm, Nat.mul_add_div hn, Nat.div_eq_of_lt hc, Nat.add_zero]
  · rw [Nat.mul_comm, Nat.mul_add_mod, Nat.mod_eq_of_lt hc]

/-- Positions in range that have the same offset are the same. -/
theorem offset_inj {n r r' c c' : Nat} (hc : c < n) (hc' : c' < n) :
    r * n + c = r' * n + c' ↔ r = r' ∧ c = c' := by
  constructor
  · intro heq
    obtain ⟨hr, hmod⟩ := offset_div_mod r hc
    obtain ⟨hr', hmod'⟩ := offset_div_mod r' hc'
    rw [heq] at hr hmod
    exact ⟨hr.symm.trans hr', hmod.symm.trans hmod'⟩
  · rintro ⟨rfl, rfl⟩
    rfl

/-- The element at a position in range. -/
def entry (A : Matrix) (r : Fin A.rows) (c : Fin A.cols) : Float :=
  have h : r.val * A.cols + c.val < A.data.size := A.size_data ▸ offset_lt r.isLt c.isLt
  A.data[r.val * A.cols + c.val]

/-- The element at a position, if the position is in range. -/
def get? (A : Matrix) (r c : Nat) : Option Float :=
  if r < A.rows ∧ c < A.cols then A.data[r * A.cols + c]? else none

/-- The element at a position. -/
def get (A : Matrix) (r c : Nat) : Except MatrixError Float :=
  match A.get? r c with
  | some x => .ok x
  | none => .error (.indexOutOfRange r c A.shape)

/-- The matrix with another element at a position. -/
def set (A : Matrix) (r c : Nat) (x : Float) : Except MatrixError Matrix :=
  if r < A.rows ∧ c < A.cols then
    .ok
      { shape := A.shape
        data := A.data.setIfInBounds (r * A.cols + c) x
        size_data := by rw [Array.size_setIfInBounds, A.size_data]
        countable := A.countable }
  else .error (.indexOutOfRange r c A.shape)

/-- The view finds every element in range. -/
theorem get?_eq_entry (A : Matrix) (r : Fin A.rows) (c : Fin A.cols) :
    A.get? r c = some (A.entry r c) := by
  have h : r.val * A.cols + c.val < A.data.size := A.size_data ▸ offset_lt r.isLt c.isLt
  simp [get?, entry, r.isLt, c.isLt]

theorem get_eq_ok_iff {A : Matrix} {r c : Nat} {x : Float} :
    A.get r c = .ok x ↔ A.get? r c = some x := by
  unfold get
  split <;> simp_all

theorem get?_eq_none {A : Matrix} {r c : Nat} (h : ¬(r < A.rows ∧ c < A.cols)) :
    A.get? r c = none := by
  simp only [get?, if_neg h]

/-- The quotient and the remainder of an offset are a position in range. -/
theorem div_mod_lt {m n k : Nat} (hk : k < m * n) : k / n < m ∧ k % n < n := by
  have hn : 0 < n := Nat.pos_of_ne_zero fun hzero => by simp [hzero] at hk
  exact ⟨(Nat.div_lt_iff_lt_mul hn).2 hk, Nat.mod_lt _ hn⟩

/-- The view finds every element, at the quotient and the remainder of its offset. -/
theorem get?_div_mod {A : Matrix} {k : Nat} (hk : k < A.data.size) :
    A.get? (k / A.cols) (k % A.cols) = A.data[k]? := by
  have hin : k / A.cols < A.rows ∧ k % A.cols < A.cols :=
    div_mod_lt (Nat.lt_of_lt_of_eq hk A.size_data)
  rw [get?, if_pos hin, Nat.div_add_mod']

/-- Matrices of one shape are equal if they have the same view. -/
theorem ext_get? {A B : Matrix} (hshape : A.shape = B.shape)
    (hget : ∀ r c, r < A.rows → c < A.cols → A.get? r c = B.get? r c) : A = B := by
  have hsize : A.data.size = B.data.size := by rw [A.size_data, B.size_data, hshape]
  have hviews (r c : Nat) : A.get? r c = B.get? r c := by
    by_cases hin : r < A.rows ∧ c < A.cols
    · exact hget r c hin.1 hin.2
    · rw [get?_eq_none hin, get?_eq_none (by rwa [rows, cols, ← hshape])]
  refine ext hshape (Array.ext_getElem? fun k => ?_)
  by_cases hk : k < A.data.size
  · rw [← get?_div_mod hk, ← get?_div_mod (hsize ▸ hk), hviews, cols, cols, hshape]
  · simp [hk, ← hsize]

theorem shape_of_set {A B : Matrix} {r c : Nat} {x : Float} (h : A.set r c x = .ok B) :
    B.shape = A.shape := by
  unfold set at h
  split at h
  · cases h
    rfl
  · cases h

/-- The view of a matrix with one element changed. -/
theorem get?_set {A B : Matrix} {r c : Nat} {x : Float} (h : A.set r c x = .ok B) (i j : Nat) :
    B.get? i j = if i = r ∧ j = c then some x else A.get? i j := by
  simp only [set] at h
  split at h
  · next hin =>
    cases h
    simp only [get?, rows, cols] at hin ⊢
    by_cases hij : i < A.shape.rows ∧ j < A.shape.cols
    · rw [if_pos hij, if_pos hij]
      have hoff : r * A.shape.cols + c < A.data.size := A.size_data ▸ offset_lt hin.1 hin.2
      rw [Array.getElem?_setIfInBounds]
      by_cases hsame : i = r ∧ j = c
      · simp [hsame.1, hsame.2, hoff]
      · have hne : r * A.shape.cols + c ≠ i * A.shape.cols + j := fun heq =>
          hsame ((offset_inj hij.2 hin.2).1 heq.symm)
        rw [if_neg hsame, if_neg hne]
    · rw [if_neg hij, if_neg hij, if_neg]
      rintro ⟨rfl, rfl⟩
      exact hij hin
  · cases h

/-! ## Making matrices -/

/-- The matrix of a shape with given elements, row by row. -/
def ofArray (shape : Shape) (values : Array Float) : Except MatrixError Matrix :=
  if hcount : shape.Countable then
    if hsize : values.size = shape.count then .ok ⟨shape, values, hsize, hcount⟩
    else .error (.bufferSizeMismatch shape shape.count values.size)
  else .error (.shapeTooLarge shape)

def zeros (shape : Shape) : Except MatrixError Matrix :=
  if hcount : shape.Countable then
    .ok ⟨shape, Array.replicate shape.count 0.0, Array.size_replicate, hcount⟩
  else .error (.shapeTooLarge shape)

/-- The matrix without rows and columns. -/
def empty : Matrix := ⟨Shape.empty, #[], rfl, by decide⟩

def scalar (x : Float) : Matrix := ⟨Shape.scalar, #[x], rfl, by decide⟩

def ofRow (values : Array Float) : Except MatrixError Matrix :=
  match Shape.of? 1 values.size with
  | some shape => ofArray shape values
  | none => .error .halted

/-- The matrix with given rows.  The first row gives the number of columns.  The number of values
is looked at first, then the length of each row. -/
def ofRows (rows : List (Array Float)) : Except MatrixError Matrix := do
  let cols := (rows.head?.map Array.size).getD 0
  match Shape.of? rows.length cols with
  | none => .error .halted
  | some shape =>
    let A ← ofArray shape (rows.foldl (· ++ ·) #[])
    match rows.find? fun row => row.size != cols with
    | some bad => .error (.bufferSizeMismatch shape cols bad.size)
    | none => .ok A

/-- The matrix whose elements are the values of a function. -/
def ofFn (shape : Shape) (h : shape.Countable) (f : Fin shape.rows → Fin shape.cols → Float) :
    Matrix where
  shape := shape
  data := Array.ofFn fun k : Fin (shape.rows * shape.cols) =>
    have hcols : 0 < shape.cols := Nat.pos_of_ne_zero fun hzero => by
      have hk := k.isLt
      simp [hzero] at hk
    f ⟨k.val / shape.cols, (Nat.div_lt_iff_lt_mul hcols).2 k.isLt⟩
      ⟨k.val % shape.cols, Nat.mod_lt _ hcols⟩
  size_data := Array.size_ofFn
  countable := h

/-- The matrix with every element replaced by its image. -/
def map (f : Float → Float) (A : Matrix) : Matrix where
  shape := A.shape
  data := A.data.map f
  size_data := by rw [Array.size_map, A.size_data]
  countable := A.countable

/-- Rows and columns exchanged. -/
def transpose (A : Matrix) : Matrix :=
  have hcount : A.shape.transposed.Countable := by
    rw [Shape.Countable, Shape.count_transposed]
    exact A.countable
  ofFn A.shape.transposed hcount fun c r => A.entry r c

/-- The view of a matrix made from a function. -/
theorem get?_ofFn {shape : Shape} {h : shape.Countable}
    {f : Fin shape.rows → Fin shape.cols → Float} (r : Fin shape.rows) (c : Fin shape.cols) :
    (ofFn shape h f).get? r c = some (f r c) := by
  have hoff : r.val * shape.cols + c.val < shape.rows * shape.cols := offset_lt r.isLt c.isLt
  obtain ⟨hdiv, hmod⟩ := offset_div_mod r.val c.isLt
  simp [get?, ofFn, rows, cols, r.isLt, c.isLt, hoff, hdiv, hmod]

/-- The view of a matrix with rows and columns exchanged. -/
theorem get?_transpose (A : Matrix) (r c : Nat) : A.transpose.get? c r = A.get? r c := by
  by_cases h : r < A.rows ∧ c < A.cols
  · rw [get?_eq_entry A ⟨r, h.1⟩ ⟨c, h.2⟩]
    exact @get?_ofFn A.shape.transposed _ _ ⟨c, h.2⟩ ⟨r, h.1⟩
  · rw [get?_eq_none h]
    exact get?_eq_none fun hin => h ⟨hin.2, hin.1⟩

@[simp] theorem transpose_transpose (A : Matrix) : A.transpose.transpose = A :=
  ext_get? (Shape.transposed_transposed A.shape) fun r c _ _ => by
    rw [get?_transpose, get?_transpose]

/-! ## Rows -/

/-- A row, as an array. -/
def row (A : Matrix) (r : Nat) : Array Float := A.data.extract (r * A.cols) ((r + 1) * A.cols)

/-- A row in range has as many elements as there are columns; so has any row if there are none. -/
theorem size_row {A : Matrix} {r : Nat} (h : r < A.rows ∨ A.cols = 0) :
    (A.row r).size = A.cols := by
  rw [row, Array.size_extract, A.size_data, Nat.succ_mul]
  rcases h with h | h
  · have hle : (r + 1) * A.cols ≤ A.rows * A.cols := Nat.mul_le_mul_right _ h
    rw [Nat.succ_mul] at hle
    have hcount : A.shape.count = A.rows * A.cols := rfl
    omega
  · rw [h]
    omega

/-- As many arrays of one length as a list has members, one behind the other. -/
theorem size_flatMap_of_size_eq {α : Type} {n : Nat} (f : α → Array Float) (xs : List α)
    (h : ∀ x ∈ xs, (f x).size = n) : (xs.toArray.flatMap f).size = xs.length * n := by
  induction xs with
  | nil => simp
  | cons x xs ih =>
    have hx := h x List.mem_cons_self
    have hxs := ih fun y hy => h y (List.mem_cons_of_mem _ hy)
    rw [← Array.length_toList, Array.toList_flatMap] at hxs ⊢
    simp only [List.flatMap_cons, List.length_append, Array.length_toList,
      List.length_cons] at hxs ⊢
    rw [hx, hxs, Nat.succ_mul, Nat.add_comm]

end Matrix

end ModelScoring
