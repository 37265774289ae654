import ModelScoring.Matrix.Pointwise

/-!
# The matrix product

A row of the product is built from a row of zeros by adding multiples of the rows of the right
operand, in their order.  So each element is a sum that starts at positive zero and takes its
products one by one, which fixes how it is rounded.  `dot` is that sum for a single element.
The work runs along rows, and no column is ever collected.

A product whose shape is not countable halts the run.
-/

namespace ModelScoring.Matrix

/-- One array plus a multiple of another. -/
def addMultiple (sum : Array Float) (factor : Float) (row : Array Float) : Array Float :=
  Array.zipWith (fun s x => s + factor * x) sum row

/-- The sum of the multiples of rows, of `n` elements each, by the elements of a row. -/
def combine (n : Nat) (factors : List Float) (rows : List (Array Float)) : Array Float :=
  (factors.zip rows).foldl (fun sum term => addMultiple sum term.1 term.2)
    (Array.replicate n 0.0)

def rowList (A : Matrix) : List (Array Float) := (List.range A.rows).map A.row

theorem size_addMultiple {sum row : Array Float} {factor : Float} (h : row.size = sum.size) :
    (addMultiple sum factor row).size = sum.size := by
  simp [addMultiple, h]

theorem size_combine {n : Nat} {factors : List Float} {rows : List (Array Float)}
    (h : ∀ row ∈ rows, row.size = n) : (combine n factors rows).size = n := by
  suffices hfold : ∀ (terms : List (Float × Array Float)) (sum : Array Float),
      (∀ term ∈ terms, term.2.size = n) → sum.size = n →
        (terms.foldl (fun s term => addMultiple s term.1 term.2) sum).size = n from
    hfold _ _ (fun term hterm => h _ (List.of_mem_zip hterm).2) Array.size_replicate
  intro terms
  induction terms with
  | nil => intro sum _ hsum; exact hsum
  | cons term terms ih =>
    intro sum hterms hsum
    have hterm := hterms term List.mem_cons_self
    refine ih _ (fun t ht => hterms t (List.mem_cons_of_mem _ ht)) ?_
    rw [size_addMultiple (hterm.trans hsum.symm), hsum]

theorem size_of_mem_rowList {A : Matrix} {row : Array Float} (h : row ∈ A.rowList) :
    row.size = A.cols := by
  obtain ⟨r, hr, rfl⟩ := List.mem_map.1 h
  exact size_row (.inl (List.mem_range.1 hr))

/-- The shape of the product of two matrices. -/
def productShape (A B : Matrix) : Shape := ⟨A.rows, B.cols, A.rows_lt, B.cols_lt⟩

/-- The product of two matrices. -/
def product (A B : Matrix) : Except MatrixError Matrix :=
  if A.shape.chains B.shape then
    if hcount : (productShape A B).Countable then
      let right := B.rowList
      .ok
        { shape := productShape A B
          data := (List.range A.rows).toArray.flatMap fun r =>
            combine B.cols (A.row r).toList right
          size_data := by
            have hsize := size_flatMap_of_size_eq
              (fun r => combine B.cols (A.row r).toList B.rowList) (List.range A.rows)
              fun _ _ => size_combine fun _ hrow => size_of_mem_rowList hrow
            rw [List.length_range] at hsize
            exact hsize
          countable := hcount }
    else .error .halted
  else .error (.incompatibleDimensions .mtimes A.shape B.shape)

/-- The multiple by a scalar, if either operand is one, and else the product. -/
def mtimes (A B : Matrix) : Except MatrixError Matrix :=
  if A.isScalar || B.isScalar then broadcast .times A B else product A B

/-- The sum of the products along a row of one matrix and a column of another, from positive zero
and from left to right. -/
def dot (A B : Matrix) (h : A.cols = B.rows) (r : Fin A.rows) (c : Fin B.cols) : Float :=
  Fin.foldl A.cols (fun sum p => sum + A.entry r p * B.entry (p.cast h) c) 0.0

end ModelScoring.Matrix
