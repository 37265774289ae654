import ModelScoring.Decimal.Numeral
import ModelScoring.Reading
import ModelScoring.Text.Cut

/-!
# Input rows

An input row is written as values with commas between them, and blank ones do not count.  A file
holds a row on each line; blank lines and lines that start with `#` do not count, but there must be
a row.  For a model of some width there is also the ramp, the row of the numbers from one on.
-/

namespace ModelScoring

abbrev Row := Array Float

inductive RowSource
  /-- One row, as written. -/
  | line (text : String)
  /-- The rows in a file. -/
  | file (path : String)
  /-- The ramp as wide as the model wants it. -/
  | ramp
  deriving DecidableEq, Repr

inductive RowsError
  /-- A value is no numeral. -/
  | invalidValue (value : String)
  /-- A value on a line of a file is no numeral. -/
  | invalidLine (path : String) (line : Nat) (value : String)
  /-- The file cannot be read. -/
  | unreadable (path fault : String)
  /-- The file holds no rows. -/
  | empty (path : String)
  deriving DecidableEq, Repr

/-- Reads the values of a row.  The first that is no numeral is the error. -/
def readRowValues : List (List Char) → Except String (List Float)
  | [] => .ok []
  | piece :: pieces =>
    match Decimal.readFloat? piece with
    | none => .error (String.ofList piece)
    | some x =>
      match readRowValues pieces with
      | .error value => .error value
      | .ok xs => .ok (x :: xs)

def readRow (cs : List Char) : Except String Row :=
  (readRowValues (Text.fullPieces (· == ',') cs)).map List.toArray

/-- Whether a line holds a row. -/
def holdsRow (line : List Char) : Bool :=
  match Text.trim line with
  | [] => false
  | c :: _ => c != '#'

/-- Reads numbered lines, each a row. -/
def readRowLines (path : String) : List (List Char × Nat) → Except RowsError (List Row)
  | [] => .ok []
  | (line, number) :: lines =>
    match readRow line with
    | .error value => .error (.invalidLine path number value)
    | .ok row =>
      match readRowLines path lines with
      | .error e => .error e
      | .ok rows => .ok (row :: rows)

/-- Reads the rows of the file at a path from its text. -/
def readRows (path text : String) : Except RowsError (List Row) :=
  let lines := (text.toList.splitOnP (· == '\n')).zipIdx 1
  match readRowLines path (lines.filter fun line => holdsRow line.1) with
  | .ok [] => .error (.empty path)
  | rows => rows

/-- The numbers from one to a width. -/
def rampOf (width : Nat) : Row := ((List.range width).map fun k => (k + 1).toFloat).toArray

/-- Reads the rows of a source, for a model of some width. -/
def RowSource.rows (source : RowSource) (width : Nat) : Reading (Except RowsError (List Row)) :=
  match source with
  | .line text => pure ((readRow text.toList).mapError .invalidValue |>.map ([·]))
  | .ramp => pure (.ok [rampOf width])
  | .file path => do
    match ← Reading.text path with
    | .error fault => pure (.error (.unreadable path fault))
    | .ok text => pure (readRows path text)

end ModelScoring
