import ModelScoring.Matrix.Product

/-!
# Loops over arrays of elements

A *buffer* is a shape and an array of elements.  Nothing says that the array fills the shape.  The
loops of the operations are worked out here on buffers.  Each product and each sum that gives an
offset, a length or an end is checked to be a size, and each element and each part that is taken
from an array is checked to be inside.  Where a check fails, the loop halts.

The operations on matrices run these loops on the buffers of their operands, and so do the
operations on buffers.
-/

namespace ModelScoring

/-- A shape and some elements, which need not fill it. -/
structure Buffer where
  shape : Shape
  data : Array Float

namespace Buffer

abbrev rows (A : Buffer) : Nat := A.shape.rows

abbrev cols (A : Buffer) : Nat := A.shape.cols

end Buffer

namespace Matrix

def buffer (A : Matrix) : Buffer := ⟨A.shape, A.data⟩

@[simp] theorem shape_buffer (A : Matrix) : A.buffer.shape = A.shape := rfl

@[simp] theorem data_buffer (A : Matrix) : A.buffer.data = A.data := rfl

theorem rows_buffer (A : Matrix) : A.buffer.rows = A.rows := rfl

theorem cols_buffer (A : Matrix) : A.buffer.cols = A.cols := rfl

end Matrix

/-! ## Checks -/

namespace Checked

/-- A number that was calculated on the way. -/
def size (n : Nat) : Except MatrixError Nat := if n < sizeLimit then .ok n else .error .halted

def element (xs : Array Float) (k : Nat) : Except MatrixError Float :=
  match xs[k]? with
  | some x => .ok x
  | none => .error .halted

/-- The part from a start to an end. -/
def part (xs : Array Float) (start stop : Nat) : Except MatrixError (Array Float) :=
  if start ≤ stop ∧ stop ≤ xs.size then .ok (xs.extract start stop) else .error .halted

/-- The row with a number, of `n` elements. -/
def row (xs : Array Float) (n r : Nat) : Except MatrixError (Array Float) := do
  let start ← size (r * n)
  let next ← size (r + 1)
  let stop ← size (next * n)
  part xs start stop

/-- So many rounds, each of which takes what the one before has left. -/
def loop {α : Type} (round : Nat → α → Except MatrixError α) : Nat → α → Except MatrixError α
  | 0, s => .ok s
  | n + 1, s => do
    let t ← loop round n s
    round n t

theorem ok_bind {α β : Type} (a : α) (f : α → Except MatrixError β) :
    (Except.ok a >>= f) = f a := rfl

theorem error_bind {α β : Type} (e : MatrixError) (f : α → Except MatrixError β) :
    ((Except.error e : Except MatrixError α) >>= f) = .error e := rfl

theorem size_of_lt {n : Nat} (h : n < sizeLimit) : size n = .ok n := if_pos h

theorem size_of_le {n : Nat} (h : sizeLimit ≤ n) : size n = .error .halted :=
  if_neg (Nat.not_lt.2 h)

theorem element_of_lt {xs : Array Float} {k : Nat} (h : k < xs.size) :
    element xs k = .ok xs[k] := by
  rw [element, Array.getElem?_eq_getElem h]

theorem element_of_le {xs : Array Float} {k : Nat} (h : xs.size ≤ k) :
    element xs k = .error .halted := by
  rw [element, Array.getElem?_eq_none h]

/-- If the end of a row is inside, so are all numbers on the way there. -/
theorem row_of_le {xs : Array Float} {n r : Nat} (hxs : xs.size < sizeLimit)
    (hr : r + 1 < sizeLimit) (hstop : (r + 1) * n ≤ xs.size) :
    row xs n r = .ok (xs.extract (r * n) ((r + 1) * n)) := by
  have hstart : r * n ≤ (r + 1) * n := Nat.mul_le_mul_right _ (Nat.le_succ r)
  rw [row, size_of_lt (by omega), ok_bind, size_of_lt hr, ok_bind, size_of_lt (by omega),
    ok_bind, part, if_pos ⟨hstart, hstop⟩]

/-- What holds after each round is what the round makes of what held before. -/
theorem loop_eq_ok {α : Type} {round : Nat → α → Except MatrixError α} {n : Nat}
    (state : Nat → α) (h : ∀ k < n, round k (state k) = .ok (state (k + 1))) :
    loop round n (state 0) = .ok (state n) := by
  induction n with
  | zero => rfl
  | succ n ih =>
    rw [loop, ih fun k hk => h k (Nat.lt_succ_of_lt hk), ok_bind]
    exact h n (Nat.lt_succ_self n)

/-- A loop without a round succeeds, and otherwise fails if every round does. -/
theorem loop_eq_error {α : Type} {round : Nat → α → Except MatrixError α} {e : MatrixError}
    {n : Nat} (hn : 0 < n) (h : ∀ k < n, ∀ s, round k s = .error e) (s : α) :
    loop round n s = .error e := by
  induction n with
  | zero => cases hn
  | succ n ih =>
    rw [loop]
    cases n with
    | zero => exact h 0 hn s
    | succ n =>
      rw [ih (Nat.succ_pos n) fun k hk => h k (Nat.lt_succ_of_lt hk), error_bind]

/-- A fold whose rounds succeed under a condition succeeds if it always holds. -/
theorem foldlM_eq {α β : Type} {round : β → α → Except MatrixError β} {next : β → α → β}
    {ok : α → Prop} [DecidablePred ok] {e : MatrixError} (xs : List α)
    (h : ∀ x ∈ xs, ∀ s, round s x = if ok x then .ok (next s x) else .error e) (s : β) :
    xs.foldlM round s = if ∀ x ∈ xs, ok x then .ok (xs.foldl next s) else .error e := by
  induction xs generalizing s with
  | nil => rfl
  | cons x xs ih =>
    rw [List.foldlM_cons, h x List.mem_cons_self s]
    by_cases hx : ok x
    · rw [if_pos hx, ok_bind, ih (fun y hy => h y (List.mem_cons_of_mem _ hy))]
      simp [hx]
    · rw [if_neg hx, error_bind, if_neg fun hall => hx (hall x List.mem_cons_self)]

end Checked

/-! ## Loops -/

namespace Buffer

open Checked (size element row loop)

/-- The only element of a buffer with one row and one column. -/
def scalar? (A : Buffer) : Except MatrixError (Option Float) :=
  if A.shape.isScalar then do
    let x ← element A.data 0
    .ok (some x)
  else .ok none

/-- Takes the element of a row and a column over. -/
def transposeElement (A : Buffer) (c r : Nat) (data : Array Float) :
    Except MatrixError (Array Float) := do
  let start ← size (r * A.cols)
  let offset ← size (start + c)
  let x ← element A.data offset
  .ok (data.push x)

/-- The elements column by column. -/
def transposedData (A : Buffer) : Except MatrixError (Array Float) :=
  loop (fun c => loop (A.transposeElement c) A.rows) A.cols #[]

/-- Adds the multiple of a row of the right operand to a row of the product. -/
def productTerm (A B : Buffer) (r p : Nat) (sum : Array Float) :
    Except MatrixError (Array Float) := do
  let start ← size (r * A.cols)
  let offset ← size (start + p)
  let factor ← element A.data offset
  let right ← row B.data B.cols p
  .ok (Matrix.addMultiple sum factor right)

/-- Works out a row of the product, where it stands. -/
def productRow (A B : Buffer) (r : Nat) (data : Array Float) :
    Except MatrixError (Array Float) := do
  let zeros ← row data B.cols r
  let sum ← loop (productTerm A B r) A.cols zeros
  let start ← size (r * B.cols)
  let stop ← size ((r + 1) * B.cols)
  .ok (data.extract 0 start ++ sum ++ data.extract stop data.size)

/-- The elements of the product, row by row. -/
def productData (A B : Buffer) : Except MatrixError (Array Float) := do
  let count ← size (A.rows * B.cols)
  loop (productRow A B) A.rows (Array.replicate count 0.0)

/-- The rows at the given offsets, one behind the other. -/
def rowsAt (A : Buffer) (offsets : List Nat) : Except MatrixError (Array Float) := do
  let _ ← size (offsets.length * A.cols)
  offsets.foldlM (fun data r => do
    let found ← row A.data A.cols r
    .ok (data ++ found)) #[]

/-- Takes the elements at the given offsets of a row over. -/
def columnsOf (A : Buffer) (offsets : List Nat) (r : Nat) (data : Array Float) :
    Except MatrixError (Array Float) := do
  let found ← row A.data A.cols r
  offsets.foldlM (fun data c => do
    let x ← element found c
    .ok (data.push x)) data

/-- The columns at the given offsets, row by row. -/
def colsAt (A : Buffer) (offsets : List Nat) : Except MatrixError (Array Float) := do
  let _ ← size (A.rows * offsets.length)
  loop (A.columnsOf offsets) A.rows #[]

end Buffer

end ModelScoring
