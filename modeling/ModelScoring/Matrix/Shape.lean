import ModelScoring.Size
import ModelScoring.Text.Cut

/-!
# Shapes

A shape is a number of rows and a number of columns, both of them sizes.  Its count, the number
of elements, need not be a size.  A shape whose count is one is *countable*, and only countable
shapes are shapes of matrices.

A shape is written `[rows, cols]`.  `Shape.read?` accepts that form, with or without the brackets
and with any blanks around the parts, if the shape is countable.
-/

namespace ModelScoring

/-- A number of rows and a number of columns. -/
structure Shape where
  rows : Nat
  cols : Nat
  /-- The number of rows is a size. -/
  rows_lt : rows < sizeLimit := by decide
  /-- The number of columns is a size. -/
  cols_lt : cols < sizeLimit := by decide
  deriving DecidableEq

namespace Shape

/-- The shape with given numbers of rows and columns, if both are sizes. -/
def of? (rows cols : Nat) : Option Shape :=
  if h : rows < sizeLimit ∧ cols < sizeLimit then some ⟨rows, cols, h.1, h.2⟩ else none

/-- The shape of a single value. -/
def scalar : Shape := ⟨1, 1, by decide, by decide⟩

/-- The shape without rows and columns. -/
def empty : Shape := ⟨0, 0, by decide, by decide⟩

/-- How many elements a matrix of the shape has. -/
def count (s : Shape) : Nat := s.rows * s.cols

/-- Whether the number of elements is a size. -/
def Countable (s : Shape) : Prop := s.count < sizeLimit

instance (s : Shape) : Decidable s.Countable := inferInstanceAs (Decidable (_ < _))

/-- The number of elements, if it is a size. -/
def count? (s : Shape) : Option Nat := if s.Countable then some s.count else none

/-- The number of elements, or the greatest size if there are more. -/
def cappedCount (s : Shape) : Nat := min s.count (sizeLimit - 1)

/-- Whether there is exactly one row and one column. -/
def isScalar (s : Shape) : Bool := s.rows == 1 && s.cols == 1

def isEmpty (s : Shape) : Bool := s.cappedCount == 0

/-- Rows and columns exchanged. -/
def transposed (s : Shape) : Shape := ⟨s.cols, s.rows, s.cols_lt, s.rows_lt⟩

/-- Whether matrices of the two shapes have a product. -/
def chains (s t : Shape) : Bool := s.cols == t.rows

def text (s : Shape) : String := "[" ++ s.rows.repr ++ ", " ++ s.cols.repr ++ "]"

/-- The text between a pair of brackets, or the whole of a text without either. -/
def unbracket? (cs : List Char) : Option (List Char) :=
  match cs with
  | '[' :: inner => if inner.getLast? = some ']' then some inner.dropLast else none
  | _ => if cs.getLast? = some ']' then none else some cs

/-- Reads a countable shape from characters. -/
def readChars? (cs : List Char) : Option Shape := do
  let inner ← unbracket? (Text.trim cs)
  match Text.pieces (· == ',') inner with
  | [first, second] =>
    let rows ← readSize? first
    let cols ← readSize? second
    let shape ← of? rows cols
    if shape.Countable then some shape else none
  | _ => none

def read? (text : String) : Option Shape := readChars? text.toList

theorem eq_of_of? {rows cols : Nat} {s : Shape} (h : of? rows cols = some s) :
    s.rows = rows ∧ s.cols = cols := by
  unfold of? at h
  split at h
  · cases h
    exact ⟨rfl, rfl⟩
  · cases h

/-- Only countable shapes are read. -/
theorem countable_of_readChars? {cs : List Char} {s : Shape} (h : readChars? cs = some s) :
    s.Countable := by
  simp only [readChars?, Option.bind_eq_bind, Option.bind_eq_some_iff] at h
  obtain ⟨inner, -, h⟩ := h
  split at h
  · simp only [Option.bind_eq_some_iff] at h
    obtain ⟨rows, -, cols, -, t, -, h⟩ := h
    split at h
    · next hcount =>
      cases h
      exact hcount
    · cases h
  · cases h

theorem ext {s t : Shape} (hrows : s.rows = t.rows) (hcols : s.cols = t.cols) : s = t := by
  cases s
  cases t
  simp_all

@[simp] theorem transposed_transposed (s : Shape) : s.transposed.transposed = s := rfl

theorem count_transposed (s : Shape) : s.transposed.count = s.count := Nat.mul_comm _ _

end Shape

example : (Shape.read? " [ 2 ,+3] ").map (fun s => (s.rows, s.cols)) = some (2, 3) := by
  decide +kernel
example : Shape.read? "[2, 3" = none := by decide +kernel

end ModelScoring
