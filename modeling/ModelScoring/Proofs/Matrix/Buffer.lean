import ModelScoring.Matrix.Written
import ModelScoring.Proofs.Matrix.Checked

/-!
# Operations on buffers

The constructors and operations of matrices are worked out here on buffers, whose arrays need not
fill their shapes.  Some of them check that their values fill the shape.  Others put a shape and an
array together as they find them.  Elements and parts are taken from an array only if they are
there, and otherwise the operation halts.

On the buffers of matrices each operation comes to what the operation on matrices comes to.
-/

namespace ModelScoring

namespace Buffer

/-! ## Constructors -/

def zeros (shape : Shape) : Except MatrixError Buffer :=
  match shape.count? with
  | none => .error (.shapeTooLarge shape)
  | some n => .ok ⟨shape, Array.replicate n 0.0⟩

def empty : Buffer := ⟨Shape.empty, #[]⟩

def scalar (x : Float) : Buffer := ⟨Shape.scalar, #[x]⟩

def ofRow (values : Array Float) : Except MatrixError Buffer :=
  match Shape.of? 1 values.size with
  | some shape => .ok ⟨shape, values⟩
  | none => .error .halted

/-- The buffer of a shape with given elements.  Their number is checked. -/
def ofArray (shape : Shape) (values : Array Float) : Except MatrixError Buffer :=
  match shape.count? with
  | none => .error (.shapeTooLarge shape)
  | some n =>
    if values.size = n then .ok ⟨shape, values⟩
    else .error (.bufferSizeMismatch shape n values.size)

/-- The buffer with so many rows and columns, which are sizes. -/
def ofSizes (rows cols : Nat) (values : Array Float) : Except MatrixError Buffer :=
  match Shape.of? rows cols with
  | some shape => ofArray shape values
  | none => .error .halted

def ofRows (rows : List (Array Float)) : Except MatrixError Buffer := do
  let cols := (rows.head?.map Array.size).getD 0
  match Shape.of? rows.length cols with
  | none => .error .halted
  | some shape =>
    let A ← ofArray shape (rows.foldl (· ++ ·) #[])
    match rows.find? fun row => row.size != cols with
    | some bad => .error (.bufferSizeMismatch shape cols bad.size)
    | none => .ok A

/-! ## Elements -/

/-- The offset of a position in range. -/
def offset (A : Buffer) (r c : Nat) : Except MatrixError Nat :=
  if A.rows ≤ r ∨ A.cols ≤ c then .error (.indexOutOfRange r c A.shape)
  else do
    let start ← Checked.size (r * A.cols)
    Checked.size (start + c)

def get (A : Buffer) (r c : Nat) : Except MatrixError Float := do
  let k ← A.offset r c
  Checked.element A.data k

def set (A : Buffer) (r c : Nat) (x : Float) : Except MatrixError Buffer := do
  let k ← A.offset r c
  let _ ← Checked.element A.data k
  .ok ⟨A.shape, A.data.setIfInBounds k x⟩

/-- The lines that show a buffer: its array is cut into rows.  Rows have an element. -/
def lines (A : Buffer) : Except MatrixError (List String) :=
  if A.data.isEmpty then .ok ["[]"]
  else if A.cols = 0 then .error .halted
  else .ok ((List.range ((A.data.size + A.cols - 1) / A.cols)).map fun k =>
    String.intercalate "  "
      ((A.data.extract (k * A.cols) ((k + 1) * A.cols)).toList.map (Decimal.fixed 6)))

/-! ## Operations -/

def map (f : Float → Float) (A : Buffer) : Buffer := ⟨A.shape, A.data.map f⟩

def transpose (A : Buffer) : Except MatrixError Buffer := do
  let data ← A.transposedData
  .ok ⟨A.shape.transposed, data⟩

def elementwise (f : Arithmetic) (A B : Buffer) : Except MatrixError Buffer :=
  if A.shape = B.shape then ofArray A.shape (Array.zipWith f.apply A.data B.data)
  else .error (.incompatibleDimensions f.operation A.shape B.shape)

def broadcast (f : Arithmetic) (A B : Buffer) : Except MatrixError Buffer := do
  let a ← A.scalar?
  let b ← B.scalar?
  match a, b with
  | some a, some b => .ok (scalar (f.apply a b))
  | none, some b => .ok (A.map fun a => f.apply a b)
  | some a, none => .ok (B.map fun b => f.apply a b)
  | none, none => elementwise f A B

def product (A B : Buffer) : Except MatrixError Buffer :=
  if A.shape.chains B.shape then do
    let data ← productData A B
    ofSizes A.rows B.cols data
  else .error (.incompatibleDimensions .mtimes A.shape B.shape)

def mtimes (A B : Buffer) : Except MatrixError Buffer :=
  if A.shape.isScalar || B.shape.isScalar then broadcast .times A B else product A B

def select (axis : Axis) (A indices : Buffer) : Except MatrixError Buffer :=
  if indices.rows = 1 then
    match axis with
    | .rows => do
      let offsets ← Matrix.picks .rows A.rows indices.data.toList
      let data ← A.rowsAt offsets
      ofSizes offsets.length A.cols data
    | .cols => do
      let offsets ← Matrix.picks .cols A.cols indices.data.toList
      let data ← A.colsAt offsets
      ofSizes A.rows offsets.length data
  else .error (.incompatibleDimensions axis.operation A.shape indices.shape)

/-- The array has as many elements as the shape counts, and taking it apart never halts: nothing is
looked for behind its end. -/
structure Filled (b : Buffer) : Prop where
  size_data : b.data.size = b.rows * b.cols
  count_le : b.rows * b.cols ≤ 18446744073709551615
  scalar? : b.scalar? ≠ .error .halted
  get (r c : Nat) : b.get r c ≠ .error .halted
  set (r c : Nat) (x : Float) : b.set r c x ≠ .error .halted
  lines : b.lines ≠ .error .halted

end Buffer

/-! ## Buffers of matrices -/

namespace Matrix

variable (A B : Matrix)

theorem buffer_ofArray (shape : Shape) (values : Array Float) :
    Buffer.ofArray shape values = (ofArray shape values).map buffer := by
  unfold Buffer.ofArray ofArray Shape.count?
  by_cases hcount : shape.Countable
  · by_cases hsize : values.size = shape.count
    · simp [hcount, hsize, Except.map, buffer]
    · simp [hcount, hsize, Except.map]
  · simp [hcount, Except.map]

theorem buffer_zeros (shape : Shape) :
    Buffer.zeros shape = (zeros shape).map buffer := by
  unfold Buffer.zeros zeros Shape.count?
  by_cases hcount : shape.Countable
  · simp [hcount, Except.map, buffer]
  · simp [hcount, Except.map]

theorem eq_of_ofArray {shape : Shape} {values : Array Float} (h : ofArray shape values = .ok A) :
    A.shape = shape ∧ A.data = values := by
  unfold ofArray at h
  split at h
  · split at h
    · cases h
      exact ⟨rfl, rfl⟩
    · cases h
  · cases h

/-- Values that were worked out before the shape. -/
theorem bind_ofSizes (shape : Shape) {rows cols : Nat} (values : Except MatrixError (Array Float))
    (hrows : rows = shape.rows) (hcols : cols = shape.cols) :
    (do
      let data ← values
      Buffer.ofSizes rows cols data) =
    (do
      let data ← values
      ofArray shape data).map buffer := by
  subst hrows hcols
  cases values with
  | error e => rfl
  | ok data =>
    have hshape : Shape.of? shape.rows shape.cols = some shape :=
      dif_pos ⟨shape.rows_lt, shape.cols_lt⟩
    rw [Checked.ok_bind, Checked.ok_bind, ← buffer_ofArray, Buffer.ofSizes, hshape]

/-- A row is as long as its shape says, and no count is needed. -/
theorem buffer_ofRow (values : Array Float) :
    Buffer.ofRow values = (ofRow values).map buffer := by
  unfold Buffer.ofRow ofRow
  cases h : Shape.of? 1 values.size with
  | none => rfl
  | some shape =>
    obtain ⟨hrows, hcols⟩ := Shape.eq_of_of? h
    have hcount : values.size = shape.count := by rw [Shape.count, hrows, hcols, Nat.one_mul]
    have hlt : shape.Countable := by
      rw [Shape.Countable, ← hcount, ← hcols]
      exact shape.cols_lt
    dsimp only
    rw [Checked.ofArray_eq_ok hlt hcount]
    rfl

theorem buffer_ofRows (rows : List (Array Float)) :
    Buffer.ofRows rows = (ofRows rows).map buffer := by
  unfold Buffer.ofRows ofRows
  generalize (rows.head?.map Array.size).getD 0 = cols
  dsimp only
  cases Shape.of? rows.length cols with
  | none => rfl
  | some shape =>
    dsimp only
    rw [buffer_ofArray]
    cases ofArray shape (rows.foldl (· ++ ·) #[]) with
    | error e => rfl
    | ok A =>
      simp only [Except.map, Checked.ok_bind]
      cases rows.find? fun row => row.size != cols with
      | none => rfl
      | some bad => rfl

/-- Nothing counts what was pushed, but it is as many elements as there were. -/
theorem buffer_transpose : A.buffer.transpose = .ok A.transpose.buffer := by
  rw [Buffer.transpose, Checked.transposedData_eq]
  rfl

theorem buffer_elementwise (f : Arithmetic) :
    Buffer.elementwise f A.buffer B.buffer = (elementwise f A B).map buffer := by
  rw [← Checked.elementwise_eq]
  unfold Buffer.elementwise Checked.elementwise
  by_cases h : A.shape = B.shape
  · rw [if_pos h, ← buffer_ofArray]
    exact if_pos h
  · rw [if_neg h]
    exact if_neg h

theorem buffer_broadcast (f : Arithmetic) :
    Buffer.broadcast f A.buffer B.buffer = (broadcast f A B).map buffer := by
  unfold Buffer.broadcast broadcast
  rw [Checked.scalar?_eq, Checked.scalar?_eq, Checked.ok_bind, Checked.ok_bind]
  cases A.scalar? with
  | some a => cases B.scalar? <;> rfl
  | none =>
    cases B.scalar? with
    | some b => rfl
    | none => exact buffer_elementwise A B f

theorem buffer_product : Buffer.product A.buffer B.buffer = (product A B).map buffer := by
  rw [← Checked.product_eq]
  unfold Buffer.product Checked.product
  by_cases h : A.shape.chains B.shape = true
  · rw [if_pos h]
    exact (if_pos h).trans (bind_ofSizes (productShape A B) _ rfl rfl)
  · rw [if_neg h]
    exact if_neg h

theorem buffer_mtimes : Buffer.mtimes A.buffer B.buffer = (mtimes A B).map buffer := by
  unfold Buffer.mtimes mtimes
  by_cases h : (A.isScalar || B.isScalar) = true
  · rw [if_pos h]
    exact (if_pos h).trans (buffer_broadcast A B .times)
  · rw [if_neg h]
    exact (if_neg h).trans (buffer_product A B)

theorem buffer_select (axis : Axis) :
    Buffer.select axis A.buffer B.buffer = (select axis A B).map buffer := by
  rw [← Checked.select_eq]
  unfold Buffer.select Checked.select
  by_cases h : B.rows = 1
  · rw [if_pos h]
    refine (if_pos h).trans ?_
    cases axis with
    | rows =>
      show (picks .rows A.rows B.data.toList >>= _) = (picks .rows A.rows B.data.toList >>= _).map _
      cases hp : picks .rows A.rows B.data.toList with
      | error e => rfl
      | ok offsets =>
        exact bind_ofSizes (Shape.selected .rows A.shape B.shape) _
          (length_of_picks_row h hp) rfl
    | cols =>
      show (picks .cols A.cols B.data.toList >>= _) = (picks .cols A.cols B.data.toList >>= _).map _
      cases hp : picks .cols A.cols B.data.toList with
      | error e => rfl
      | ok offsets =>
        exact bind_ofSizes (Shape.selected .cols A.shape B.shape) _
          rfl (length_of_picks_row h hp)
  · rw [if_neg h]
    exact if_neg h

/-! ## Elements of a matrix -/

theorem buffer_offset {r c : Nat} (hr : r < A.rows) (hc : c < A.cols) :
    A.buffer.offset r c = .ok (r * A.cols + c) := by
  have hoffset : r * A.cols + c < A.data.size := A.size_data ▸ offset_lt hr hc
  have hcount : A.data.size < sizeLimit := A.size_data ▸ A.countable
  have hin : ¬(A.buffer.rows ≤ r ∨ A.buffer.cols ≤ c) :=
    not_or.2 ⟨Nat.not_le.2 hr, Nat.not_le.2 hc⟩
  rw [Buffer.offset, if_neg hin]
  show (Checked.size (r * A.cols) >>= fun start => Checked.size (start + c)) = _
  rw [Checked.size_of_lt (by omega), Checked.ok_bind, Checked.size_of_lt (by omega)]

theorem buffer_offset_of_not {r c : Nat} (h : ¬(r < A.rows ∧ c < A.cols)) :
    A.buffer.offset r c = .error (.indexOutOfRange r c A.shape) := by
  have hout : A.rows ≤ r ∨ A.cols ≤ c := by omega
  exact if_pos hout

theorem buffer_get (r c : Nat) : A.buffer.get r c = A.get r c := by
  by_cases hin : r < A.rows ∧ c < A.cols
  · have hoffset : r * A.cols + c < A.data.size := A.size_data ▸ offset_lt hin.1 hin.2
    rw [Buffer.get, buffer_offset A hin.1 hin.2, Checked.ok_bind, get, get?, if_pos hin,
      Array.getElem?_eq_getElem hoffset]
    exact Checked.element_of_lt hoffset
  · rw [get, get?_eq_none hin, Buffer.get, buffer_offset_of_not A hin]
    rfl

theorem buffer_set (r c : Nat) (x : Float) :
    A.buffer.set r c x = (A.set r c x).map buffer := by
  by_cases hin : r < A.rows ∧ c < A.cols
  · have hoffset : r * A.cols + c < A.data.size := A.size_data ▸ offset_lt hin.1 hin.2
    have helement := Checked.element_of_lt hoffset
    rw [Buffer.set, buffer_offset A hin.1 hin.2, Checked.ok_bind, set, if_pos hin]
    exact congrArg (· >>= fun _ => _) helement
  · rw [set, if_neg hin, Buffer.set, buffer_offset_of_not A hin]
    rfl

/-- A matrix with elements has columns, and its array is cut into its rows. -/
theorem buffer_lines : A.buffer.lines = .ok A.lines := by
  have hsize : A.data.size = A.rows * A.cols := A.size_data
  unfold Buffer.lines lines
  by_cases hempty : A.isEmpty = true
  · rw [if_pos hempty]
    exact if_pos hempty
  · have hpos : 0 < A.rows * A.cols := by
      rw [← hsize]
      simpa [isEmpty, Array.size_pos_iff] using hempty
    have hcols : 0 < A.cols := Nat.pos_of_mul_pos_left hpos
    have hrows : (A.data.size + A.cols - 1) / A.cols = A.rows := by
      rw [hsize, Nat.add_sub_assoc hcols, Nat.mul_comm, Nat.mul_add_div hcols,
        Nat.div_eq_of_lt (by omega), Nat.add_zero]
    rw [if_neg hempty]
    refine (if_neg hempty).trans ((if_neg (Nat.ne_of_gt hcols)).trans ?_)
    exact congrArg (fun n => Except.ok ((List.range n).map fun r =>
      String.intercalate "  " ((A.row r).toList.map (Decimal.fixed 6)))) hrows

theorem filled_buffer : A.buffer.Filled where
  size_data := A.size_data
  count_le := Nat.le_of_lt_succ A.countable
  scalar? := by simp [Checked.scalar?_eq]
  get r c := by
    rw [buffer_get, get]
    split <;> simp
  set r c x := by
    rw [buffer_set, set]
    split <;> simp [Except.map]
  lines := by simp [buffer_lines]

end Matrix

end ModelScoring
