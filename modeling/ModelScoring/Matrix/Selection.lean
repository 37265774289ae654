import ModelScoring.Matrix.Basic

/-!
# Selecting rows and columns

Rows and columns are selected by a row of numbers, which count from one.  A number is rounded
first, a half going away from zero.  Numbers may repeat and come in any order, and the result has
the selected rows or columns in that order.

A number is refused if it is no finite number or its rounded value is not between one and the
bound.  The bound is the number of rows or columns, as the float next to it.  Beyond `2 ^ 53` that
float may be greater, so that a number past the last row or column passes.  It then selects
nothing if rows or columns have no elements, and halts the run if they have.
-/

namespace ModelScoring

namespace Axis

/-- How many rows or columns a matrix has. -/
def length (axis : Axis) (A : Matrix) : Nat :=
  match axis with
  | .rows => A.rows
  | .cols => A.cols

def other : Axis → Axis
  | .rows => .cols
  | .cols => .rows

end Axis

namespace Matrix

/-- The offset, from zero, that a number selects within a bound. -/
def pick? (bound : Nat) (value : Float) : Option Nat :=
  match (Decimal.Binary64.ofFloat value).toInt? with
  | none => none
  | some n =>
    if 1 ≤ n ∧ n ≤ (Decimal.nearestFloatValue bound : Int) then
      some (min n.toNat (sizeLimit - 1) - 1)
    else none

/-- The offsets that numbers select within a bound, or the first number that is refused. -/
def picks (axis : Axis) (bound : Nat) : List Float → Except MatrixError (List Nat)
  | [] => .ok []
  | value :: values =>
    match pick? bound value with
    | none => .error (.invalidIndex axis value bound)
    | some offset =>
      match picks axis bound values with
      | .error e => .error e
      | .ok offsets => .ok (offset :: offsets)

section picks

variable {axis : Axis} {bound : Nat} {value : Float} {values : List Float} {offsets : List Nat}

theorem picks_cons_eq_ok_iff :
    picks axis bound (value :: values) = .ok offsets ↔
      ∃ offset rest, pick? bound value = some offset ∧ picks axis bound values = .ok rest ∧
        offsets = offset :: rest := by
  rw [picks]
  cases pick? bound value with
  | none => simp
  | some offset =>
    cases picks axis bound values with
    | error e => simp
    | ok rest => simp [eq_comm]

theorem picks_cons_eq_error_iff {e : MatrixError} :
    picks axis bound (value :: values) = .error e ↔
      pick? bound value = none ∧ e = .invalidIndex axis value bound ∨
        (pick? bound value).isSome ∧ picks axis bound values = .error e := by
  rw [picks]
  cases pick? bound value with
  | none => simp [eq_comm]
  | some offset => cases picks axis bound values <;> simp

theorem length_of_picks (h : picks axis bound values = .ok offsets) :
    offsets.length = values.length := by
  induction values generalizing offsets with
  | nil =>
    cases h
    rfl
  | cons value values ih =>
    obtain ⟨offset, rest, -, hrest, rfl⟩ := picks_cons_eq_ok_iff.1 h
    rw [List.length_cons, List.length_cons, ih hrest]

end picks

/-- Whether every offset reaches a row or column, or there is nothing in them to reach. -/
def Reaches (A : Matrix) (axis : Axis) (offsets : List Nat) : Prop :=
  axis.other.length A = 0 ∨ ∀ offset ∈ offsets, offset < axis.length A

instance (A : Matrix) (axis : Axis) (offsets : List Nat) : Decidable (A.Reaches axis offsets) :=
  inferInstanceAs (Decidable (_ ∨ _))

/-- The rows at the given offsets. -/
def rowsAt (A : Matrix) (offsets : List Nat) (n : Nat) (hn : n < sizeLimit)
    (hlength : offsets.length = n) (hreach : A.Reaches .rows offsets) :
    Except MatrixError Matrix :=
  let shape : Shape := ⟨n, A.cols, hn, A.cols_lt⟩
  if hcount : shape.Countable then
    .ok
      { shape := shape
        data := offsets.toArray.flatMap A.row
        size_data := by
          have hsize := size_flatMap_of_size_eq A.row offsets fun offset hoffset =>
            size_row (hreach.symm.imp (fun h => h offset hoffset) id)
          rw [hlength] at hsize
          exact hsize
        countable := hcount }
  else .error .halted

/-- The columns at the given offsets. -/
def colsAt (A : Matrix) (offsets : List Nat) (n : Nat) (hn : n < sizeLimit)
    (hlength : offsets.length = n) : Except MatrixError Matrix :=
  let shape : Shape := ⟨A.rows, n, A.rows_lt, hn⟩
  if hcount : shape.Countable then
    .ok
      { shape := shape
        data := (List.range A.rows).toArray.flatMap fun r =>
          let row := A.row r
          (offsets.map fun offset => row.getD offset 0.0).toArray
        size_data := by
          have hsize := size_flatMap_of_size_eq
            (fun r => (offsets.map fun offset => (A.row r).getD offset 0.0).toArray)
            (List.range A.rows) fun r _ => by simpa using hlength
          rw [List.length_range] at hsize
          exact hsize
        countable := hcount }
  else .error .halted

/-- The rows or columns with the given numbers. -/
def select (axis : Axis) (A indices : Matrix) : Except MatrixError Matrix :=
  if hrow : indices.rows = 1 then
    match h : picks axis (axis.length A) indices.data.toList with
    | .error e => .error e
    | .ok offsets =>
      have hlength : offsets.length = indices.cols := by
        have hcount : indices.shape.count = indices.rows * indices.cols := rfl
        rw [length_of_picks h, Array.length_toList, indices.size_data, hcount, hrow, Nat.one_mul]
      if hreach : A.Reaches axis offsets then
        match axis, hreach with
        | .rows, hreach => A.rowsAt offsets indices.cols indices.cols_lt hlength hreach
        | .cols, _ => A.colsAt offsets indices.cols indices.cols_lt hlength
      else .error .halted
  else .error (.incompatibleDimensions axis.operation A.shape indices.shape)

end Matrix

end ModelScoring
