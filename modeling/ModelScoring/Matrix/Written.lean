import ModelScoring.Json
import ModelScoring.Matrix.Basic

/-!
# Matrices as text

A matrix is shown one row to a line, each element with six places and two spaces between
elements.  A matrix without elements is shown as `[]`.  In JSON a matrix is its two numbers and
the list of its elements, row by row.
-/

namespace ModelScoring.Matrix

/-- The lines that show a matrix. -/
def lines (A : Matrix) : List String :=
  if A.isEmpty then ["[]"]
  else (List.range A.rows).map fun r =>
    String.intercalate "  " ((A.row r).toList.map (Decimal.fixed 6))

/-- The text that shows a matrix. -/
def text (A : Matrix) : String := String.intercalate "\n" A.lines

/-- The fields of a matrix in JSON. -/
def jsonFields (A : Matrix) : List (String × Json) :=
  [("rows", .natural A.rows), ("cols", .natural A.cols),
    ("data", .array (A.data.toList.map .float))]

def json (A : Matrix) : Json := .object A.jsonFields

end ModelScoring.Matrix
