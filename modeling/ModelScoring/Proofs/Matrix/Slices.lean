import ModelScoring.Proofs.Matrix.Elements
import ModelScoring.Proofs.Matrix.Refused

/-!
# The rows and columns that are selected

Rows are selected whole, one behind the other.  Columns are selected by going through the rows and
taking from each the elements at the offsets.  Either way the data of the result is made of pieces
of one length, one for each of its rows, so an element stands in the piece of its row
(`getElem?_flatMap_of_size_eq`).  `get?_rowsAt` and `get?_colsAt` say which element of the source it
is.

Each number picks one offset (`picks_eq_ok_iff`), which is one less than its rounded value.  The
rounded value is a size by then, so a value greater than every size is cut down to the greatest.
`eq_of_toSize_eq` says that this concerns only a row or column behind `2 ^ 64 - 2` others.

`select_eq_slices` says that a row or column of the result is the row or column of the source that
its number counts.
-/

namespace ModelScoring

namespace Matrix

open Decimal

/-! ## Offsets -/

/-- A whole number as a size.  Zero stands for those below, the greatest size for those above. -/
def toSize (n : Int) : Nat := min n.toNat (sizeLimit - 1)

/-- Below the greatest size a whole number is what it was. -/
theorem eq_of_toSize_eq {n : Int} {k : Nat} (h : toSize n = k + 1) (hk : k + 2 < sizeLimit) :
    n = k + 1 := by
  unfold toSize at h
  omega

/-- The number at a place of a row of numbers counts the row or column of a matrix that stands
behind `k` others.  It is finite and its value rounds to `k + 1`, or is cut down to that in a matrix
of `2 ^ 64 - 1` elements. -/
def Counts (A I : Matrix) (j k : Nat) : Prop :=
  ∃ value q, I.get? 0 j = some value ∧ (Binary64.ofFloat value).value? = some q ∧
    toSize (halfAway q) = k + 1 ∧ (A.size + 1 < sizeLimit → halfAway q = k + 1)

variable {A I R : Matrix} {axis : Axis} {bound offset : Nat} {value : Float} {values : List Float}
  {offsets : List Nat}

/-- The offset that a number picks is one less than the number, rounded. -/
theorem toSize_halfAway_of_pick? (h : pick? bound value = some offset) :
    ∃ q, (Binary64.ofFloat value).value? = some q ∧ toSize (halfAway q) = offset + 1 := by
  unfold pick? at h
  split at h
  · cases h
  · next n hn =>
    obtain ⟨q, hq, rfl⟩ := Option.map_eq_some_iff.1 ((Binary64.toInt?_eq _).symm.trans hn)
    split at h
    · next hin =>
      cases h
      have hlimit : 1 < sizeLimit := by decide
      refine ⟨q, hq, ?_⟩
      unfold toSize
      omega
    · cases h

/-- Each number picks the offset at its place. -/
theorem picks_eq_ok_iff :
    picks axis bound values = .ok offsets ↔
      List.Forall₂ (fun value offset => pick? bound value = some offset) values offsets := by
  induction values generalizing offsets with
  | nil =>
    rw [picks, List.forall₂_nil_left_iff]
    exact ⟨fun h => (Except.ok.inj h).symm, fun h => h ▸ rfl⟩
  | cons value values ih =>
    rw [picks_cons_eq_ok_iff, List.forall₂_cons_left_iff]
    simp only [ih]

/-- The offset at a place is that of the number at the place. -/
theorem counts_of_picks {j k : Nat} (hrow : I.rows = 1)
    (h : picks axis bound I.data.toList = .ok offsets) (hj : j < offsets.length)
    (hk : k = offsets[j]) (hsize : k < A.size) : Counts A I j k := by
  subst hk
  have hlength : offsets.length = I.cols := length_of_picks_row hrow h
  have hj' : j < I.data.toList.length := length_of_picks h ▸ hj
  obtain ⟨q, hq, hoffset⟩ := toSize_halfAway_of_pick? ((picks_eq_ok_iff.1 h).get hj' hj)
  refine ⟨I.data.toList[j], q, ?_, hq, hoffset, fun _ => eq_of_toSize_eq hoffset (by omega)⟩
  rw [get?, if_pos ⟨by omega, hlength ▸ hj⟩, Nat.zero_mul, Nat.zero_add, ← Array.getElem?_toList]
  exact List.getElem?_eq_getElem hj'

/-! ## Pieces of one length -/

theorem parts_of_rowsAt {n : Nat} {hn : n < sizeLimit} {hlength : offsets.length = n}
    {hreach : A.Reaches .rows offsets} (h : A.rowsAt offsets n hn hlength hreach = .ok R) :
    R.rows = n ∧ R.cols = A.cols ∧ R.data = offsets.toArray.flatMap A.row := by
  unfold rowsAt at h
  dsimp only at h
  split at h
  · cases h
    exact ⟨rfl, rfl, rfl⟩
  · cases h

theorem parts_of_colsAt {n : Nat} {hn : n < sizeLimit} {hlength : offsets.length = n}
    (h : A.colsAt offsets n hn hlength = .ok R) :
    R.rows = A.rows ∧ R.cols = n ∧ R.data = (List.range A.rows).toArray.flatMap fun r =>
      (offsets.map fun offset => (A.row r).getD offset 0.0).toArray := by
  unfold colsAt at h
  dsimp only at h
  split at h
  · cases h
    exact ⟨rfl, rfl, rfl⟩
  · cases h

/-- A row of the result is the row of the source at the offset. -/
theorem get?_rowsAt {n : Nat} {hn : n < sizeLimit} {hlength : offsets.length = n}
    {hreach : A.Reaches .rows offsets} (h : A.rowsAt offsets n hn hlength hreach = .ok R) {j : Nat}
    (hj : j < offsets.length) (c : Fin A.cols) :
    ∃ k : Fin A.rows, k.val = offsets[j] ∧ R.get? j c = some (A.entry k c) := by
  obtain ⟨hrows, hcols, hdata⟩ := parts_of_rowsAt h
  have hk : offsets[j] < A.rows :=
    hreach.resolve_left (Nat.ne_of_gt (Nat.zero_lt_of_lt c.isLt)) _ (List.getElem_mem hj)
  have hsize (offset : Nat) (hoffset : offset ∈ offsets) : (A.row offset).size = A.cols :=
    size_row (hreach.symm.imp (fun hall => hall offset hoffset) id)
  have hpiece := getElem?_flatMap_of_size_eq A.row hsize hj c.isLt
  refine ⟨⟨offsets[j], hk⟩, rfl, ?_⟩
  have hin : j < R.rows ∧ c.val < R.cols := by
    rw [hrows, hcols, ← hlength]
    exact ⟨hj, c.isLt⟩
  rw [get?, if_pos hin, hcols, hdata, hpiece]
  exact getElem?_row ⟨offsets[j], hk⟩ c

/-- An element of a row of the result is the element of the row of the source at the offset. -/
theorem get?_colsAt {n : Nat} {hn : n < sizeLimit} {hlength : offsets.length = n}
    (hreach : A.Reaches .cols offsets) (h : A.colsAt offsets n hn hlength = .ok R) (r : Fin A.rows)
    {j : Nat} (hj : j < offsets.length) :
    ∃ k : Fin A.cols, k.val = offsets[j] ∧ R.get? r j = some (A.entry r k) := by
  obtain ⟨hrows, hcols, hdata⟩ := parts_of_colsAt h
  have hk : offsets[j] < A.cols :=
    hreach.resolve_left (Nat.ne_of_gt (Nat.zero_lt_of_lt r.isLt)) _ (List.getElem_mem hj)
  have hr : r.val < (List.range A.rows).length := by
    rw [List.length_range]
    exact r.isLt
  have hpiece := getElem?_flatMap_of_size_eq
    (fun r => (offsets.map fun offset => (A.row r).getD offset 0.0).toArray)
    (fun _ _ => List.size_toArray.trans (List.length_map _)) hr hj
  refine ⟨⟨offsets[j], hk⟩, rfl, ?_⟩
  have hin : r.val < R.rows ∧ j < R.cols := by
    rw [hrows, hcols, ← hlength]
    exact ⟨r.isLt, hj⟩
  rw [get?, if_pos hin, hcols, hdata, ← hlength, hpiece, List.getElem_range,
    List.getElem?_toArray, List.getElem?_map, List.getElem?_eq_getElem hj, Option.map_some,
    Array.getD_eq_getD_getElem?, getElem?_row r ⟨offsets[j], hk⟩, Option.getD_some]

/-! ## Selections -/

/-- A selection has a result only from offsets that reach it. -/
theorem picks_of_select (h : select axis A I = .ok R) :
    I.rows = 1 ∧ ∃ offsets, picks axis (axis.length A) I.data.toList = .ok offsets ∧
      A.Reaches axis offsets := by
  by_cases hrow : I.rows = 1
  · cases hp : picks axis (axis.length A) I.data.toList with
    | error e =>
      rw [select_of_picks_error hrow hp] at h
      cases h
    | ok offsets =>
      by_cases hr : A.Reaches axis offsets
      · exact ⟨hrow, offsets, rfl, hr⟩
      · rw [select_of_not_reaches hrow hp hr] at h
        cases h
  · rw [select_of_rows_ne hrow] at h
    cases h

theorem lt_size {r c : Nat} (hr : r < A.rows) (hc : c < A.cols) : r < A.size ∧ c < A.size := by
  have hsize : A.size = A.rows * A.cols := A.size_data
  constructor
  · exact hsize ▸ Nat.lt_of_lt_of_le hr (Nat.le_mul_of_pos_right _ (Nat.zero_lt_of_lt hc))
  · exact hsize ▸ Nat.lt_of_lt_of_le hc (Nat.le_mul_of_pos_left _ (Nat.zero_lt_of_lt hr))

/-- A selection of columns has the rows of the source and a column for each number, and each element
is that of the same row in the column that the number counts.  A selection of rows has a row for
each number and the columns of the source, and each element is that of the same column in the row
that the number counts. -/
theorem select_eq_slices (A I : Matrix) :
    (∀ R, select .cols A I = .ok R → R.rows = A.rows ∧ R.cols = I.cols ∧
      ∀ (r : Fin A.rows) (j : Fin I.cols), ∃ k : Fin A.cols,
        Counts A I j k ∧ R.get? r j = some (A.entry r k)) ∧
    ∀ R, select .rows A I = .ok R → R.rows = I.cols ∧ R.cols = A.cols ∧
      ∀ (j : Fin I.cols) (c : Fin A.cols), ∃ k : Fin A.rows,
        Counts A I j k ∧ R.get? j c = some (A.entry k c) := by
  constructor
  · intro R h
    obtain ⟨hrow, offsets, hp, hr⟩ := picks_of_select h
    have hlength := length_of_picks_row hrow hp
    rw [select_cols_of_reaches hrow hp hr] at h
    obtain ⟨hrows, hcols, -⟩ := parts_of_colsAt h
    refine ⟨hrows, hcols, fun r j => ?_⟩
    have hj : j.val < offsets.length := hlength.symm ▸ j.isLt
    obtain ⟨k, hk, helement⟩ := get?_colsAt hr h r hj
    exact ⟨k, counts_of_picks hrow hp hj hk (lt_size r.isLt k.isLt).2, helement⟩
  · intro R h
    obtain ⟨hrow, offsets, hp, hr⟩ := picks_of_select h
    have hlength := length_of_picks_row hrow hp
    rw [select_rows_of_reaches hrow hp hr] at h
    obtain ⟨hrows, hcols, -⟩ := parts_of_rowsAt h
    refine ⟨hrows, hcols, fun j c => ?_⟩
    have hj : j.val < offsets.length := hlength.symm ▸ j.isLt
    obtain ⟨k, hk, helement⟩ := get?_rowsAt h hj c
    exact ⟨k, counts_of_picks hrow hp hj hk (lt_size k.isLt c.isLt).1, helement⟩

def sixValues : Matrix :=
  ⟨⟨2, 3, by decide, three_lt_sizeLimit⟩, #[1.0, 2.0, 3.0, 4.0, 5.0, 6.0], rfl, by decide⟩

/-- Numbers that are not in order, not all different and not all whole. -/
def unordered : Matrix :=
  ⟨⟨1, 3, Shape.scalar.rows_lt, three_lt_sizeLimit⟩, #[3.0, 1.25, 2.5], rfl, three_lt_sizeLimit⟩

/-- The third column is selected by three and by two and a half. -/
theorem select_eq_slices_unordered :
    ∃ R, select .cols sixValues unordered = .ok R ∧ R.data = #[3.0, 1.0, 3.0, 6.0, 4.0, 6.0] ∧
      R.rows = 2 ∧ R.cols = 3 ∧ ∃ k : Fin 3, Counts sixValues unordered 2 k ∧
        R.get? 1 2 = some (sixValues.entry ⟨1, by decide⟩ k) := by
  have hdata : (select .cols sixValues unordered).toOption.map Matrix.data =
      some #[3.0, 1.0, 3.0, 6.0, 4.0, 6.0] := by decide +kernel
  cases hR : select .cols sixValues unordered with
  | error e =>
    rw [hR] at hdata
    cases hdata
  | ok R =>
    rw [hR] at hdata
    obtain ⟨hrows, hcols, helements⟩ := (select_eq_slices sixValues unordered).1 R hR
    exact ⟨R, rfl, Option.some.inj hdata, hrows, hcols, helements ⟨1, by decide⟩ ⟨2, by decide⟩⟩

end Matrix

end ModelScoring
