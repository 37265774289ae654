import ModelScoring.Proofs.Matrix.Elements
import ModelScoring.Proofs.Matrix.Recipe

/-!
# Rectangular rows

Rows are put one behind the other, and the first of them says how many columns there are.  The
number of values is held against the shape that follows from this, and after that the length of each
row against the number of columns.  Ragged rows can have the right number of values, so without the
second check they would make a matrix whose elements are not where they were listed.

Rows of one length do make the matrix in which they stand one behind the other, and what is got at a
position is the element at its place in its row (`MadeOf`).  `RowsOutcome` has one rule for each
report, in the order in which the checks are made, and one for the matrix; `ofRows_eq_iff_outcome`
says that these are the outcomes.  `ofRows_rectangular` draws from it that a matrix is made exactly
of rows that are not ragged and whose elements can be counted.  `halted` stands for lengths that are
not sizes, which no list or row in a run has.
-/

namespace ModelScoring

theorem Shape.of?_eq_some_iff {rows cols : Nat} {s : Shape} :
    of? rows cols = some s ↔ s.dims = (rows, cols) := by
  constructor
  · intro h
    obtain ⟨hrows, hcols⟩ := eq_of_of? h
    rw [dims, hrows, hcols]
  · intro h
    cases h
    exact dif_pos ⟨s.rows_lt, s.cols_lt⟩

theorem Shape.of?_eq_none_iff {rows cols : Nat} :
    of? rows cols = none ↔ sizeLimit ≤ rows ∨ sizeLimit ≤ cols := by
  unfold of?
  split
  · next h => simp [h]
  · next h =>
    simp only [true_iff]
    omega

namespace Matrix

variable {A B : Matrix} {rows : List (Array Float)} {shape : Shape}
  {out : Except MatrixError Matrix}

/-! ## Rows -/

/-- The length of the first row. -/
def width (rows : List (Array Float)) : Nat := (rows.head?.map Array.size).getD 0

/-- Some of the rows differ in length. -/
def Ragged (rows : List (Array Float)) : Prop :=
  ∃ row ∈ rows, ∃ other ∈ rows, row.size ≠ other.size

theorem size_eq_width_of_not_ragged (h : ¬Ragged rows) : ∀ row ∈ rows, row.size = width rows := by
  intro row hrow
  cases rows with
  | nil => cases hrow
  | cons first rest =>
    exact Decidable.byContradiction fun hne => h ⟨row, hrow, first, List.mem_cons_self, hne⟩

/-- The matrix has these rows.  Without rows it has no columns. -/
structure MadeOf (A : Matrix) (rows : List (Array Float)) : Prop where
  length : rows.length = A.rows
  size : ∀ row ∈ rows, row.size = A.cols
  cols_nil : rows = [] → A.cols = 0
  get (r c : Nat) (x : Float) : A.get r c = .ok x ↔ ∃ row, rows[r]? = some row ∧ row[c]? = some x

theorem MadeOf.get?_eq (h : A.MadeOf rows) (r c : Nat) :
    A.get? r c = rows[r]?.bind fun row => row[c]? := by
  refine Option.ext fun x => ?_
  rw [← get_eq_ok_iff, h.get, Option.bind_eq_some_iff]

theorem MadeOf.width_eq (h : A.MadeOf rows) : width rows = A.cols := by
  cases rows with
  | nil => exact (h.cols_nil rfl).symm
  | cons row rows => exact h.size row List.mem_cons_self

theorem MadeOf.dims_eq (h : A.MadeOf rows) : A.shape.dims = (rows.length, width rows) := by
  rw [Shape.dims, h.width_eq, h.length]

theorem MadeOf.not_ragged (h : A.MadeOf rows) : ¬Ragged rows := by
  rintro ⟨row, hrow, other, hother, hne⟩
  exact hne ((h.size row hrow).trans (h.size other hother).symm)

/-- Rows make one matrix at most. -/
theorem MadeOf.unique (hA : A.MadeOf rows) (hB : B.MadeOf rows) : A = B := by
  have hshape : A.shape = B.shape :=
    Shape.ext (hA.length.symm.trans hB.length) (hA.width_eq.symm.trans hB.width_eq)
  refine ext_get? hshape fun r c _ _ => ?_
  rw [hA.get?_eq, hB.get?_eq]

/-! ## Rows, one behind the other -/

theorem foldl_append_eq_flatMap (rows : List (Array Float)) :
    rows.foldl (· ++ ·) #[] = rows.toArray.flatMap id := by
  rw [Array.flatMap, List.foldl_toArray]
  rfl

theorem size_flatMap_id (rows : List (Array Float)) :
    (rows.toArray.flatMap id).size = sumOf (rows.map Array.size) := by
  rw [← Array.length_toList, Array.toList_flatMap]
  induction rows with
  | nil => rfl
  | cons row rows ih => simp_all [List.flatMap_cons]

section even

variable (hlength : rows.length = shape.rows) (heven : ∀ row ∈ rows, row.size = shape.cols)
include hlength heven

theorem size_flatMap_of_even : (rows.toArray.flatMap id).size = shape.count := by
  rw [size_flatMap_of_size_eq id rows heven, hlength, Shape.count]

/-- The view finds each element of rows of one length at its place in its row. -/
theorem get?_of_even (hsize : (rows.toArray.flatMap id).size = shape.count)
    (hcount : shape.Countable) (r c : Nat) :
    get? ⟨shape, rows.toArray.flatMap id, hsize, hcount⟩ r c =
      rows[r]?.bind fun row => row[c]? := by
  by_cases hr : r < rows.length
  · rw [List.getElem?_eq_getElem hr, Option.bind_some]
    by_cases hc : c < shape.cols
    · have hin : r < shape.rows ∧ c < shape.cols := ⟨hlength ▸ hr, hc⟩
      exact (if_pos hin).trans (getElem?_flatMap_of_size_eq id heven hr hc)
    · have hrow : rows[r].size = shape.cols := heven _ (List.getElem_mem hr)
      rw [get?_eq_none fun hin => hc hin.2, Array.getElem?_eq_none (by omega)]
  · rw [get?_eq_none fun hin => hr (Nat.lt_of_lt_of_eq hin.1 hlength.symm),
      List.getElem?_eq_none (Nat.not_lt.1 hr), Option.bind_none]

theorem madeOf_of_even (hnil : rows = [] → shape.cols = 0)
    (hsize : (rows.toArray.flatMap id).size = shape.count) (hcount : shape.Countable) :
    MadeOf ⟨shape, rows.toArray.flatMap id, hsize, hcount⟩ rows where
  length := hlength
  size := heven
  cols_nil := hnil
  get r c x := by
    rw [get_eq_ok_iff, get?_of_even hlength heven hsize hcount, Option.bind_eq_some_iff]

/-- Rows of one length make a matrix if its elements can be counted. -/
theorem exists_madeOf (hnil : rows = [] → shape.cols = 0) (hcount : shape.Countable) :
    ∃ A : Matrix, A.MadeOf rows :=
  ⟨_, madeOf_of_even hlength heven hnil (size_flatMap_of_even hlength heven) hcount⟩

end even

/-! ## Outcomes -/

/-- What rows come to. -/
inductive RowsOutcome (rows : List (Array Float)) : Except MatrixError Matrix → Prop
  /-- The number of rows or the length of the first is no size. -/
  | unsized (unsized : sizeLimit ≤ rows.length ∨ sizeLimit ≤ width rows) :
    RowsOutcome rows (.error .halted)
  /-- The elements cannot be counted. -/
  | tooLarge {shape : Shape} (dims : shape.dims = (rows.length, width rows))
      (uncountable : ¬shape.Countable) :
    RowsOutcome rows (.error (.shapeTooLarge shape))
  /-- All rows together have too few or too many values. -/
  | miscounted {shape : Shape} (dims : shape.dims = (rows.length, width rows))
      (countable : shape.Countable) (total : sumOf (rows.map Array.size) ≠ shape.count) :
    RowsOutcome rows
      (.error (.bufferSizeMismatch shape shape.count (sumOf (rows.map Array.size))))
  /-- All rows together have as many values as they should, but one row has not, and none before
  it. -/
  | uneven {shape : Shape} {before after : List (Array Float)} {row : Array Float}
      (dims : shape.dims = (rows.length, width rows)) (countable : shape.Countable)
      (total : sumOf (rows.map Array.size) = shape.count) (split : rows = before ++ row :: after)
      (even : ∀ earlier ∈ before, earlier.size = shape.cols) (uneven : row.size ≠ shape.cols) :
    RowsOutcome rows (.error (.bufferSizeMismatch shape shape.cols row.size))
  | matrix {A : Matrix} (madeOf : A.MadeOf rows) : RowsOutcome rows (.ok A)

/-- The first row with another number of elements than there are columns. -/
def uneven? (shape : Shape) (rows : List (Array Float)) : Option (Array Float) :=
  rows.find? fun row => row.size != shape.cols

theorem uneven?_eq_none_iff :
    uneven? shape rows = none ↔ ∀ row ∈ rows, row.size = shape.cols := by
  simp [uneven?]

theorem uneven?_eq_some_iff {row : Array Float} :
    uneven? shape rows = some row ↔ row.size ≠ shape.cols ∧
      ∃ before after, rows = before ++ row :: after ∧
        ∀ earlier ∈ before, earlier.size = shape.cols := by
  simp [uneven?, List.find?_eq_some_iff_append]

theorem ofRows_of_unsized (h : sizeLimit ≤ rows.length ∨ sizeLimit ≤ width rows) :
    ofRows rows = .error .halted := by
  have hnone : Shape.of? rows.length (width rows) = none := Shape.of?_eq_none_iff.2 h
  unfold width at hnone
  simp only [ofRows, hnone]

/-- The matrix, or what is said of the first row with another number of elements. -/
def unlessUneven (shape : Shape) (rows : List (Array Float)) (A : Matrix) :
    Except MatrixError Matrix :=
  match uneven? shape rows with
  | some row => .error (.bufferSizeMismatch shape shape.cols row.size)
  | none => .ok A

theorem ofRows_of_dims (h : shape.dims = (rows.length, width rows)) :
    ofRows rows = ofArray shape (rows.toArray.flatMap id) >>= unlessUneven shape rows := by
  have hsome : Shape.of? rows.length (width rows) = some shape := Shape.of?_eq_some_iff.2 h
  obtain ⟨-, hcols⟩ := Shape.eq_of_of? hsome
  rw [← hcols] at hsome
  unfold width at hcols
  simp only [ofRows, ← hcols, hsome, foldl_append_eq_flatMap]
  rfl

theorem RowsOutcome.ofRows_eq (h : RowsOutcome rows out) : ofRows rows = out := by
  cases h with
  | unsized h => exact ofRows_of_unsized h
  | tooLarge hdims hcount =>
    rw [ofRows_of_dims hdims, ofArray, dif_neg hcount, Checked.error_bind]
  | miscounted hdims hcount htotal =>
    rw [← size_flatMap_id] at htotal ⊢
    rw [ofRows_of_dims hdims, ofArray, dif_pos hcount, dif_neg htotal, Checked.error_bind]
  | uneven hdims hcount htotal hsplit heven huneven =>
    rw [← size_flatMap_id] at htotal
    have hfirst := uneven?_eq_some_iff.2 ⟨huneven, _, _, hsplit, heven⟩
    rw [ofRows_of_dims hdims, Checked.ofArray_eq_ok hcount htotal, Checked.ok_bind, unlessUneven,
      hfirst]
  | @matrix A hA =>
    have hsize := size_flatMap_of_even hA.length hA.size
    have hflat := madeOf_of_even hA.length hA.size hA.cols_nil hsize A.countable
    rw [ofRows_of_dims hA.dims_eq, Checked.ofArray_eq_ok A.countable hsize, Checked.ok_bind,
      unlessUneven, uneven?_eq_none_iff.2 hA.size, hflat.unique hA]

/-- The rules leave nothing out. -/
theorem exists_rowsOutcome (rows : List (Array Float)) : ∃ out, RowsOutcome rows out := by
  cases hshape : Shape.of? rows.length (width rows) with
  | none => exact ⟨_, .unsized (Shape.of?_eq_none_iff.1 hshape)⟩
  | some shape =>
    have hdims := Shape.of?_eq_some_iff.1 hshape
    obtain ⟨hrows, hcols⟩ := Shape.eq_of_of? hshape
    by_cases hcount : shape.Countable
    · by_cases htotal : sumOf (rows.map Array.size) = shape.count
      · cases hfirst : uneven? shape rows with
        | some row =>
          obtain ⟨huneven, before, after, hsplit, heven⟩ := uneven?_eq_some_iff.1 hfirst
          exact ⟨_, .uneven hdims hcount htotal hsplit heven huneven⟩
        | none =>
          have hnil : rows = [] → shape.cols = 0 := fun h => hcols.trans (h ▸ rfl)
          obtain ⟨A, hA⟩ :=
            exists_madeOf hrows.symm (uneven?_eq_none_iff.1 hfirst) hnil hcount
          exact ⟨_, .matrix hA⟩
      · exact ⟨_, .miscounted hdims hcount htotal⟩
    · exact ⟨_, .tooLarge hdims hcount⟩

theorem ofRows_eq_iff_outcome : ofRows rows = out ↔ RowsOutcome rows out := by
  constructor
  · rintro rfl
    obtain ⟨out, hout⟩ := exists_rowsOutcome rows
    rwa [hout.ofRows_eq]
  · exact RowsOutcome.ofRows_eq

theorem ofRows_eq_ok_iff : ofRows rows = .ok A ↔ A.MadeOf rows := by
  rw [ofRows_eq_iff_outcome]
  constructor
  · rintro ⟨⟩
    assumption
  · exact .matrix

theorem ofRows_eq_halted_iff :
    ofRows rows = .error .halted ↔ sizeLimit ≤ rows.length ∨ sizeLimit ≤ width rows := by
  rw [ofRows_eq_iff_outcome]
  constructor
  · rintro ⟨⟩
    assumption
  · exact .unsized

/-- Rows make a matrix exactly if they are not ragged and their elements can be counted, and the
matrix has these rows.  Of ragged rows something is said, whatever they have together, unless the
number of rows or the length of the first is no size.  What is said follows the rules. -/
theorem ofRows_rectangular (rows : List (Array Float)) :
    ((∃ A, ofRows rows = .ok A) ↔
      ¬Ragged rows ∧ ∃ shape : Shape, shape.dims = (rows.length, width rows) ∧
        shape.Countable) ∧
    (∀ A, ofRows rows = .ok A ↔ A.MadeOf rows) ∧
    (Ragged rows → ∃ e, ofRows rows = .error e ∧
      (e = .halted ↔ sizeLimit ≤ rows.length ∨ sizeLimit ≤ width rows)) ∧
    ∀ out, ofRows rows = out ↔ RowsOutcome rows out := by
  refine ⟨⟨?_, ?_⟩, fun A => ofRows_eq_ok_iff, ?_, fun out => ofRows_eq_iff_outcome⟩
  · rintro ⟨A, hA⟩
    have hmade := ofRows_eq_ok_iff.1 hA
    exact ⟨hmade.not_ragged, A.shape, hmade.dims_eq, A.countable⟩
  · rintro ⟨heven, shape, hdims, hcount⟩
    obtain ⟨hlength, hwidth⟩ := Prod.mk.inj hdims
    have hsize (row : Array Float) (hrow : row ∈ rows) : row.size = shape.cols :=
      (size_eq_width_of_not_ragged heven row hrow).trans hwidth.symm
    obtain ⟨A, hA⟩ :=
      exists_madeOf hlength.symm hsize (fun h => hwidth.trans (h ▸ rfl)) hcount
    exact ⟨A, ofRows_eq_ok_iff.2 hA⟩
  · intro hragged
    cases h : ofRows rows with
    | ok A => exact absurd hragged (ofRows_eq_ok_iff.1 h).not_ragged
    | error e =>
      refine ⟨e, rfl, ?_⟩
      rw [← ofRows_eq_halted_iff, h, Except.error.injEq]

/-- Rows of two, one and three elements: as many together as three rows of two. -/
def compensating : List (Array Float) := [#[1.0, 2.0], #[3.0], #[4.0, 5.0, 6.0]]

/-- The second row is reported. -/
theorem ofRows_rectangular_compensating :
    Ragged compensating ∧
      sumOf (compensating.map Array.size) = compensating.length * width compensating ∧
      ∃ e, ofRows compensating = .error e ∧ e ≠ .halted ∧
        e.message = "[3, 2] matrix needs 2 values, got 1" := by
  have hragged : Ragged compensating :=
    ⟨#[1.0, 2.0], List.mem_cons_self, #[3.0], List.mem_cons_of_mem _ List.mem_cons_self, by decide⟩
  obtain ⟨-, -, herror, hout⟩ := ofRows_rectangular compensating
  obtain ⟨e, he, hhalted⟩ := herror hragged
  have hsized : ¬(sizeLimit ≤ compensating.length ∨ sizeLimit ≤ width compensating) := by decide
  refine ⟨hragged, by decide, e, he, fun h => hsized (hhalted.1 h), ?_⟩
  have huneven : RowsOutcome compensating
      (.error (.bufferSizeMismatch ⟨3, 2, by decide, by decide⟩ 2 1)) :=
    @RowsOutcome.uneven _ ⟨3, 2, by decide, by decide⟩ [#[1.0, 2.0]] [#[4.0, 5.0, 6.0]] #[3.0]
      rfl (by decide) rfl rfl (by simp) (by decide)
  obtain rfl := Except.error.inj (he.symm.trans ((hout _).2 huneven))
  decide +kernel

end Matrix

end ModelScoring
