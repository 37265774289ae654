import ModelScoring.Proofs.Matrix.Kernel
import ModelScoring.Proofs.Matrix.ResultShape

/-!
# Matrix operations, number by number

The operations are worked out here on the buffers of their operands, one row after the other.  Where
a check of a loop fails, the operation halts.  The array that comes out has to fill its shape.

One lemma for each operation says that this is the operation of the library, for all operands.  So
`halted` stands for exactly those operands for which a check fails on the way, and no other check is
needed.
-/

namespace ModelScoring

namespace Checked

/-! ## Rows -/

variable {A B : Matrix}

theorem row_of_lt {r : Nat} (h : r < A.rows) : row A.data A.cols r = .ok (A.row r) := by
  have hstop : (r + 1) * A.cols ≤ A.data.size := by
    rw [A.size_data]
    exact Nat.mul_le_mul_right _ h
  have hcount : A.data.size < sizeLimit := A.size_data ▸ A.countable
  exact row_of_le hcount (Nat.lt_of_le_of_lt h A.rows_lt) hstop

/-- A row is found if it is one of the matrix or rows have no elements. -/
theorem row_eq {r : Nat} (hr : r + 1 < sizeLimit) :
    row A.data A.cols r =
      if A.cols = 0 ∨ r < A.rows then .ok (A.row r) else .error .halted := by
  by_cases hlt : r < A.rows
  · rw [row_of_lt hlt, if_pos (.inr hlt)]
  · by_cases hcols : A.cols = 0
    · rw [if_pos (.inl hcols), row, hcols, Nat.mul_zero, size_of_lt (by decide), ok_bind,
        size_of_lt hr, ok_bind, Nat.mul_zero, size_of_lt (by decide), ok_bind, part,
        if_pos ⟨Nat.le_refl 0, Nat.zero_le _⟩, Matrix.row, hcols, Nat.mul_zero, Nat.mul_zero]
    · rw [if_neg (fun h => h.elim hcols hlt), row]
      by_cases hstart : r * A.cols < sizeLimit
      · rw [size_of_lt hstart, ok_bind, size_of_lt hr, ok_bind]
        by_cases hstop : (r + 1) * A.cols < sizeLimit
        · have hpast : ¬(r + 1) * A.cols ≤ A.data.size := by
            rw [A.size_data, Nat.not_le]
            exact Nat.mul_lt_mul_of_pos_right (Nat.lt_succ_of_le (Nat.not_lt.1 hlt))
              (Nat.pos_of_ne_zero hcols)
          rw [size_of_lt hstop, ok_bind, part, if_neg fun h => hpast h.2]
        · rw [size_of_le (Nat.not_lt.1 hstop), error_bind]
      · rw [size_of_le (Nat.not_lt.1 hstart), error_bind]

/-! ## Arithmetic -/

/-- Every element replaced by its image. -/
def map (f : Float → Float) (A : Matrix) : Except MatrixError Matrix :=
  Matrix.ofArray A.shape (A.data.map f)

/-- An operation on the elements at the same positions. -/
def elementwise (f : Arithmetic) (A B : Matrix) : Except MatrixError Matrix :=
  if A.shape = B.shape then Matrix.ofArray A.shape (Array.zipWith f.apply A.data B.data)
  else .error (.incompatibleDimensions f.operation A.shape B.shape)

/-- An operation on two matrices, a scalar being paired with every element of the other. -/
def broadcast (f : Arithmetic) (A B : Matrix) : Except MatrixError Matrix := do
  let a ← A.buffer.scalar?
  let b ← B.buffer.scalar?
  match a, b with
  | some a, some b => .ok (Matrix.scalar (f.apply a b))
  | none, some b => map (fun a => f.apply a b) A
  | some a, none => map (fun b => f.apply a b) B
  | none, none => elementwise f A B

theorem ofArray_eq_ok {shape : Shape} {values : Array Float} (hcount : shape.Countable)
    (hsize : values.size = shape.count) :
    Matrix.ofArray shape values = .ok ⟨shape, values, hsize, hcount⟩ := by
  rw [Matrix.ofArray, dif_pos hcount, dif_pos hsize]

theorem scalar?_eq (A : Matrix) : A.buffer.scalar? = .ok A.scalar? := by
  unfold Buffer.scalar? Matrix.scalar? Matrix.isScalar
  rw [A.shape_buffer, A.data_buffer]
  by_cases h : A.shape.isScalar = true
  · have hsize : 0 < A.data.size := by
      have hshape := Shape.eq_scalar_of_isScalar h
      rw [A.size_data, hshape]
      decide
    rw [if_pos h, if_pos h, element_of_lt hsize, Array.getElem?_eq_getElem hsize]
    rfl
  · rw [if_neg h, if_neg h]

theorem map_eq (f : Float → Float) (A : Matrix) : map f A = .ok (A.map f) :=
  ofArray_eq_ok A.countable (by rw [Array.size_map, A.size_data])

theorem elementwise_eq (f : Arithmetic) (A B : Matrix) :
    elementwise f A B = Matrix.elementwise f A B := by
  unfold elementwise Matrix.elementwise
  by_cases h : A.shape = B.shape
  · rw [if_pos h, dif_pos h]
    exact ofArray_eq_ok _ _
  · rw [if_neg h, dif_neg h]

theorem broadcast_eq (f : Arithmetic) (A B : Matrix) :
    broadcast f A B = Matrix.broadcast f A B := by
  unfold broadcast Matrix.broadcast
  rw [scalar?_eq, scalar?_eq, ok_bind, ok_bind]
  cases A.scalar? with
  | some a =>
    cases B.scalar? with
    | some b => rfl
    | none => exact map_eq _ B
  | none =>
    cases B.scalar? with
    | some b => exact map_eq _ A
    | none => exact elementwise_eq f A B

/-! ## Transposing -/

/-- Rows and columns exchanged, column by column. -/
def transpose (A : Matrix) : Except MatrixError Matrix := do
  let data ← A.buffer.transposedData
  Matrix.ofArray A.shape.transposed data

/-- The first elements of the transposed matrix. -/
def transposedTo (A : Matrix) (n : Nat) : Array Float :=
  Array.ofFn fun k : Fin n => A.data.getD (k % A.rows * A.cols + k / A.rows) 0.0

theorem transposedTo_succ (A : Matrix) (n : Nat) :
    transposedTo A (n + 1) =
      (transposedTo A n).push (A.data.getD (n % A.rows * A.cols + n / A.rows) 0.0) :=
  Array.ofFn_succ

theorem transposeElement_eq {c r : Nat} (hc : c < A.cols) (hr : r < A.rows) :
    A.buffer.transposeElement c r (transposedTo A (c * A.rows + r)) =
      .ok (transposedTo A (c * A.rows + (r + 1))) := by
  have hcount : A.data.size < sizeLimit := A.size_data ▸ A.countable
  have hoffset : r * A.cols + c < A.data.size := A.size_data ▸ Matrix.offset_lt hr hc
  obtain ⟨hdiv, hmod⟩ := Matrix.offset_div_mod c hr
  rw [Buffer.transposeElement, A.cols_buffer, size_of_lt (by omega), ok_bind,
    size_of_lt (by omega), ok_bind, A.data_buffer, element_of_lt hoffset, ok_bind,
    ← Nat.add_assoc, transposedTo_succ, hmod, hdiv]
  simp [Array.getD, hoffset]

theorem transposedTo_all (A : Matrix) : transposedTo A (A.cols * A.rows) = A.transpose.data := by
  unfold transposedTo Matrix.transpose Matrix.ofFn
  congr 1
  funext k
  have hrows : 0 < A.rows := Nat.pos_of_ne_zero fun hzero => by
    have hk := k.isLt
    simp [hzero] at hk
  have hoffset : k.val % A.rows * A.cols + k.val / A.rows < A.data.size :=
    A.size_data ▸ Matrix.offset_lt (Nat.mod_lt _ hrows) ((Nat.div_lt_iff_lt_mul hrows).2 k.isLt)
  simp [Array.getD, hoffset, Matrix.entry, Shape.transposed]

theorem transposedData_eq (A : Matrix) : A.buffer.transposedData = .ok A.transpose.data := by
  have hcolumn (c : Nat) (hc : c < A.cols) :
      loop (A.buffer.transposeElement c) A.rows (transposedTo A (c * A.rows)) =
        .ok (transposedTo A ((c + 1) * A.rows)) := by
    rw [Nat.succ_mul]
    exact loop_eq_ok (fun r => transposedTo A (c * A.rows + r)) fun r hr =>
      transposeElement_eq hc hr
  have hstart : transposedTo A (0 * A.rows) = #[] := by
    rw [Nat.zero_mul]
    exact Array.ofFn_zero
  rw [← transposedTo_all, Buffer.transposedData, ← hstart]
  exact loop_eq_ok (fun c => transposedTo A (c * A.rows)) hcolumn

theorem transpose_eq (A : Matrix) : transpose A = .ok A.transpose := by
  rw [transpose, transposedData_eq, ok_bind]
  exact ofArray_eq_ok A.transpose.countable A.transpose.size_data

/-! ## Products -/

/-- The product of two matrices, row by row. -/
def product (A B : Matrix) : Except MatrixError Matrix :=
  if A.shape.chains B.shape then do
    let data ← A.buffer.productData B.buffer
    Matrix.ofArray (Matrix.productShape A B) data
  else .error (.incompatibleDimensions .mtimes A.shape B.shape)

/-- The product, or the multiple by a scalar. -/
def mtimes (A B : Matrix) : Except MatrixError Matrix :=
  if A.isScalar || B.isScalar then broadcast .times A B else product A B

/-- A row of the product after some terms. -/
def productSum (A B : Matrix) (r p : Nat) : Array Float :=
  Matrix.combine B.cols ((A.row r).toList.take p) (B.rowList.take p)

/-- The product after some rows. -/
def productRows (A B : Matrix) (n : Nat) : Array Float :=
  (List.range n).toArray.flatMap fun r => Matrix.combine B.cols (A.row r).toList B.rowList

/-- The array of elements after some rows: the others are still zero. -/
def productTo (A B : Matrix) (n : Nat) : Array Float :=
  productRows A B n ++ Array.replicate ((A.rows - n) * B.cols) 0.0

section product

variable {r p : Nat}

theorem getElem_row (hr : r < A.rows) (hp : p < A.cols) (h : p < (A.row r).toList.length) :
    (A.row r).toList[p] = A.entry ⟨r, hr⟩ ⟨p, hp⟩ := by
  simp [Matrix.row, Matrix.entry]

theorem productSum_succ (hr : r < A.rows) (hp : p < A.cols) (hchains : A.cols = B.rows) :
    productSum A B r (p + 1) =
      Matrix.addMultiple (productSum A B r p) (A.entry ⟨r, hr⟩ ⟨p, hp⟩) (B.row p) := by
  have hleft : p < (A.row r).toList.length := by
    rw [Array.length_toList, Matrix.size_row (.inl hr)]
    exact hp
  have hright : p < B.rowList.length := by
    rw [Matrix.rowList, List.length_map, List.length_range]
    exact hchains ▸ hp
  have hrow : B.rowList[p] = B.row p := by simp [Matrix.rowList]
  unfold productSum Matrix.combine
  rw [List.take_succ_eq_append_getElem hleft, List.take_succ_eq_append_getElem hright,
    List.zip_append (by rw [List.length_take_of_le (Nat.le_of_lt hleft),
      List.length_take_of_le (Nat.le_of_lt hright)]), List.foldl_append, getElem_row hr hp hleft,
    hrow]
  rfl

/-- After all terms the row is done. -/
theorem productSum_cols (hr : r < A.rows) (hchains : A.cols = B.rows) :
    productSum A B r A.cols = Matrix.combine B.cols (A.row r).toList B.rowList := by
  have hleft : (A.row r).toList.length = A.cols := by
    rw [Array.length_toList, Matrix.size_row (.inl hr)]
  have hright : B.rowList.length = A.cols := by
    rw [Matrix.rowList, List.length_map, List.length_range, hchains]
  rw [productSum, List.take_of_length_le (Nat.le_of_eq hleft),
    List.take_of_length_le (Nat.le_of_eq hright)]

theorem productTerm_eq (hr : r < A.rows) (hp : p < A.cols) (hchains : A.cols = B.rows) :
    A.buffer.productTerm B.buffer r p (productSum A B r p) =
      .ok (productSum A B r (p + 1)) := by
  have hcount : A.data.size < sizeLimit := A.size_data ▸ A.countable
  have hoffset : r * A.cols + p < A.data.size := A.size_data ▸ Matrix.offset_lt hr hp
  rw [Buffer.productTerm, A.cols_buffer, size_of_lt (by omega), ok_bind, size_of_lt (by omega),
    ok_bind, A.data_buffer, element_of_lt hoffset, ok_bind, B.cols_buffer, B.data_buffer,
    row_of_lt (hchains ▸ hp), ok_bind, productSum_succ hr hp hchains]
  rfl

theorem size_productRows (A B : Matrix) (n : Nat) : (productRows A B n).size = n * B.cols := by
  have hsize := Matrix.size_flatMap_of_size_eq
    (fun r => Matrix.combine B.cols (A.row r).toList B.rowList) (List.range n)
    fun _ _ => Matrix.size_combine fun _ hrow => Matrix.size_of_mem_rowList hrow
  rwa [List.length_range] at hsize

theorem productRows_succ (A B : Matrix) (n : Nat) :
    productRows A B (n + 1) =
      productRows A B n ++ Matrix.combine B.cols (A.row n).toList B.rowList := by
  unfold productRows
  rw [List.range_succ, ← List.append_toArray, Array.flatMap_append]
  simp

theorem size_productTo (hr : r ≤ A.rows) :
    (productTo A B r).size = A.rows * B.cols := by
  rw [productTo, Array.size_append, size_productRows, Array.size_replicate, ← Nat.add_mul,
    Nat.add_sub_of_le hr]

/-- The next row is still zero. -/
theorem extract_productTo (hr : r < A.rows) :
    (productTo A B r).extract (r * B.cols) ((r + 1) * B.cols) = Array.replicate B.cols 0.0 := by
  have hsize := size_productRows A B r
  have hle : B.cols ≤ (A.rows - r) * B.cols := Nat.le_mul_of_pos_left _ (Nat.sub_pos_of_lt hr)
  rw [productTo, Array.extract_append, Array.extract_eq_empty_of_le (by omega),
    Array.empty_append, Array.extract_replicate, hsize, Nat.sub_self, Nat.succ_mul,
    Nat.add_sub_cancel_left, Nat.min_eq_left hle, Nat.sub_zero]

/-- The next row takes the place of its zeros. -/
theorem replace_productTo (hr : r < A.rows) :
    (productTo A B r).extract 0 (r * B.cols) ++ Matrix.combine B.cols (A.row r).toList B.rowList ++
      (productTo A B r).extract ((r + 1) * B.cols) (productTo A B r).size =
        productTo A B (r + 1) := by
  have hsize := size_productRows A B r
  have hzeros : (A.rows - r) * B.cols = (A.rows - (r + 1)) * B.cols + B.cols := by
    rw [← Nat.succ_mul]
    congr 1
    omega
  have hfront : (productTo A B r).extract 0 (r * B.cols) = productRows A B r := by
    rw [productTo, Array.extract_append, hsize, Nat.sub_self, Nat.zero_sub,
      Array.extract_eq_self_of_le (Nat.le_of_eq hsize), Array.extract_zero, Array.append_empty]
  have hback : (productTo A B r).extract ((r + 1) * B.cols) (productTo A B r).size =
      Array.replicate ((A.rows - (r + 1)) * B.cols) 0.0 := by
    rw [size_productTo (Nat.le_of_lt hr), productTo, Array.extract_append,
      Array.extract_eq_empty_of_le (by rw [hsize, Nat.succ_mul]; omega), Array.empty_append,
      Array.extract_replicate, hsize, ← Nat.sub_mul, Nat.min_self, Nat.succ_mul,
      Nat.add_sub_cancel_left, hzeros, Nat.add_sub_cancel]
  rw [hfront, hback, ← productRows_succ]
  rfl

theorem productRow_eq (hr : r < A.rows) (hchains : A.cols = B.rows)
    (hcount : A.rows * B.cols < sizeLimit) :
    A.buffer.productRow B.buffer r (productTo A B r) = .ok (productTo A B (r + 1)) := by
  have hsize := size_productTo (B := B) (Nat.le_of_lt hr)
  have hstop : (r + 1) * B.cols ≤ A.rows * B.cols := Nat.mul_le_mul_right _ hr
  have hstart : r * B.cols ≤ (r + 1) * B.cols := Nat.mul_le_mul_right _ (Nat.le_succ r)
  have hzeros : row (productTo A B r) B.cols r = .ok (Array.replicate B.cols 0.0) := by
    rw [row_of_le (by omega) (Nat.lt_of_le_of_lt hr A.rows_lt) (by omega), extract_productTo hr]
  have hsum : loop (A.buffer.productTerm B.buffer r) A.cols (Array.replicate B.cols 0.0) =
      .ok (Matrix.combine B.cols (A.row r).toList B.rowList) := by
    rw [← productSum_cols hr hchains]
    exact loop_eq_ok (productSum A B r) fun p hp => productTerm_eq hr hp hchains
  rw [Buffer.productRow, A.cols_buffer, B.cols_buffer, hzeros, ok_bind, hsum, ok_bind,
    size_of_lt (by omega), ok_bind, size_of_lt (by omega), ok_bind, replace_productTo hr]

/-- The elements of the product come out if their number is a size. -/
theorem productData_eq (hchains : A.cols = B.rows) :
    A.buffer.productData B.buffer =
      if A.rows * B.cols < sizeLimit then .ok (productRows A B A.rows) else .error .halted := by
  rw [Buffer.productData, A.rows_buffer, B.cols_buffer]
  split
  · next hlt =>
    have hrows := loop_eq_ok (productTo A B) (n := A.rows) fun r hr => productRow_eq hr hchains hlt
    have hstart : productTo A B 0 = Array.replicate (A.rows * B.cols) 0.0 := by
      simp [productTo, productRows]
    have hstop : productTo A B A.rows = productRows A B A.rows := by simp [productTo]
    rw [hstart, hstop] at hrows
    rw [size_of_lt hlt, ok_bind, hrows]
  · next hle => rw [size_of_le (Nat.not_lt.1 hle), error_bind]

theorem product_eq (A B : Matrix) : product A B = Matrix.product A B := by
  unfold product Matrix.product
  by_cases hchains : A.shape.chains B.shape = true
  · rw [if_pos hchains, if_pos hchains, productData_eq (by simpa [Shape.chains] using hchains)]
    by_cases hcount : (Matrix.productShape A B).Countable
    · have hlt : A.rows * B.cols < sizeLimit := hcount
      rw [if_pos hlt, ok_bind, dif_pos hcount]
      exact ofArray_eq_ok hcount (size_productRows A B A.rows)
    · have hle : ¬A.rows * B.cols < sizeLimit := hcount
      rw [if_neg hle, error_bind, dif_neg hcount]
  · rw [if_neg hchains, if_neg hchains]

theorem mtimes_eq (A B : Matrix) : mtimes A B = Matrix.mtimes A B := by
  rw [mtimes, Matrix.mtimes, broadcast_eq, product_eq]

end product

/-! ## Selections -/

/-- The rows or columns with the given numbers. -/
def select (axis : Axis) (A indices : Matrix) : Except MatrixError Matrix :=
  if indices.rows = 1 then do
    let offsets ← Matrix.picks axis (axis.length A) indices.data.toList
    let data ← match axis with
      | .rows => A.buffer.rowsAt offsets
      | .cols => A.buffer.colsAt offsets
    Matrix.ofArray (Shape.selected axis A.shape indices.shape) data
  else .error (.incompatibleDimensions axis.operation A.shape indices.shape)

section select

variable {offsets : List Nat}

theorem rowsAt_eq (h : ∀ r ∈ offsets, r + 1 < sizeLimit) :
    A.buffer.rowsAt offsets =
      if offsets.length * A.cols < sizeLimit ∧ A.Reaches .rows offsets then
        .ok (offsets.toArray.flatMap A.row)
      else .error .halted := by
  have hround (r : Nat) (hr : r ∈ offsets) (data : Array Float) :
      (do
        let found ← row A.data A.cols r
        .ok (data ++ found)) =
      if A.cols = 0 ∨ r < A.rows then .ok (data ++ A.row r) else .error MatrixError.halted := by
    rw [row_eq (h r hr)]
    split <;> rfl
  have hreach : A.Reaches .rows offsets ↔ ∀ r ∈ offsets, A.cols = 0 ∨ r < A.rows := by
    constructor
    · rintro (hcols | hall) r hr
      · exact .inl hcols
      · exact .inr (hall r hr)
    · intro hall
      by_cases hcols : A.cols = 0
      · exact .inl hcols
      · exact .inr fun r hr => (hall r hr).resolve_left hcols
  rw [Buffer.rowsAt, A.cols_buffer, A.data_buffer]
  by_cases hlt : offsets.length * A.cols < sizeLimit
  · rw [size_of_lt hlt, ok_bind, foldlM_eq offsets hround]
    by_cases hr : A.Reaches .rows offsets
    · rw [if_pos (hreach.1 hr), if_pos ⟨hlt, hr⟩, Array.flatMap, List.foldl_toArray]
      rfl
    · rw [if_neg fun hall => hr (hreach.2 hall), if_neg fun hand => hr hand.2]
  · rw [size_of_le (Nat.not_lt.1 hlt), error_bind, if_neg fun hand => hlt hand.1]

theorem columnsOf_eq {r : Nat} (hr : r < A.rows) (data : Array Float) :
    A.buffer.columnsOf offsets r data =
      if ∀ c ∈ offsets, c < A.cols then
        .ok (data ++ (offsets.map fun c => (A.row r).getD c 0.0).toArray)
      else .error .halted := by
  have hsize := Matrix.size_row (A := A) (.inl hr)
  have hround (c : Nat) (_ : c ∈ offsets) (data : Array Float) :
      (do
        let x ← element (A.row r) c
        .ok (data.push x)) =
      if c < A.cols then .ok (data.push ((A.row r).getD c 0.0))
      else .error MatrixError.halted := by
    by_cases hc : c < A.cols
    · have hlt : c < (A.row r).size := hsize ▸ hc
      rw [if_pos hc, element_of_lt hlt, ok_bind]
      simp [Array.getD, hlt]
    · rw [if_neg hc, element_of_le (hsize ▸ Nat.not_lt.1 hc), error_bind]
  rw [Buffer.columnsOf, A.cols_buffer, A.data_buffer, row_of_lt hr, ok_bind,
    foldlM_eq offsets hround, List.foldl_push_eq_append]

theorem colsAt_eq :
    A.buffer.colsAt offsets =
      if A.rows * offsets.length < sizeLimit ∧ A.Reaches .cols offsets then
        .ok ((List.range A.rows).toArray.flatMap fun r =>
          (offsets.map fun c => (A.row r).getD c 0.0).toArray)
      else .error .halted := by
  rw [Buffer.colsAt, A.rows_buffer]
  by_cases hlt : A.rows * offsets.length < sizeLimit
  · rw [size_of_lt hlt, ok_bind]
    by_cases hall : ∀ c ∈ offsets, c < A.cols
    · rw [if_pos ⟨hlt, .inr hall⟩]
      refine loop_eq_ok (fun n => (List.range n).toArray.flatMap fun r =>
        (offsets.map fun c => (A.row r).getD c 0.0).toArray) fun r hr => ?_
      rw [columnsOf_eq hr, if_pos hall, List.range_succ, ← List.append_toArray,
        Array.flatMap_append]
      simp
    · by_cases hrows : A.rows = 0
      · rw [if_pos ⟨hlt, .inl hrows⟩, hrows]
        rfl
      · rw [if_neg fun hand => hand.2.elim hrows hall]
        refine loop_eq_error (Nat.pos_of_ne_zero hrows) (fun r hr data => ?_) _
        rw [columnsOf_eq hr, if_neg hall]
  · rw [size_of_le (Nat.not_lt.1 hlt), error_bind, if_neg fun hand => hlt hand.1]

theorem select_eq (axis : Axis) (A I : Matrix) : select axis A I = Matrix.select axis A I := by
  by_cases h : I.rows = 1
  · cases hp : Matrix.picks axis (axis.length A) I.data.toList with
    | error e =>
      rw [select, if_pos h, hp, error_bind, Matrix.select_of_picks_error h hp]
    | ok offsets =>
      have hlength := Matrix.length_of_picks_row h hp
      rw [select, if_pos h, hp, ok_bind]
      by_cases hr : A.Reaches axis offsets
      · cases axis with
        | rows =>
          have hsmall := Matrix.forall_of_picks (fun _ _ => Matrix.succ_lt_of_pick?) hp
          dsimp only
          rw [Matrix.select_rows_of_reaches h hp hr, rowsAt_eq hsmall, Matrix.rowsAt, hlength]
          by_cases hcount : (⟨I.cols, A.cols, I.cols_lt, A.cols_lt⟩ : Shape).Countable
          · have hlt : I.cols * A.cols < sizeLimit := hcount
            rw [if_pos ⟨hlt, hr⟩, ok_bind, dif_pos hcount]
            exact ofArray_eq_ok hcount _
          · have hnlt : ¬I.cols * A.cols < sizeLimit := hcount
            rw [if_neg fun hand => hnlt hand.1, error_bind, dif_neg hcount]
        | cols =>
          dsimp only
          rw [Matrix.select_cols_of_reaches h hp hr, colsAt_eq, Matrix.colsAt, hlength]
          by_cases hcount : (⟨A.rows, I.cols, A.rows_lt, I.cols_lt⟩ : Shape).Countable
          · have hlt : A.rows * I.cols < sizeLimit := hcount
            rw [if_pos ⟨hlt, hr⟩, ok_bind, dif_pos hcount]
            exact ofArray_eq_ok hcount _
          · have hnlt : ¬A.rows * I.cols < sizeLimit := hcount
            rw [if_neg fun hand => hnlt hand.1, error_bind, dif_neg hcount]
      · rw [Matrix.select_of_not_reaches h hp hr]
        cases axis with
        | rows =>
          have hsmall := Matrix.forall_of_picks (fun _ _ => Matrix.succ_lt_of_pick?) hp
          dsimp only
          rw [rowsAt_eq hsmall, if_neg fun hand => hr hand.2, error_bind]
        | cols =>
          dsimp only
          rw [colsAt_eq, if_neg fun hand => hr hand.2, error_bind]
  · rw [select, if_neg h, Matrix.select_of_rows_ne h]

end select

end Checked

end ModelScoring
