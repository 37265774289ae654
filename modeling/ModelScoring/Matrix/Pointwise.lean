import ModelScoring.Matrix.Basic

/-!
# Element by element

An arithmetic operation works on two matrices element by element.  `elementwise` wants the same
shape twice.  `broadcast` also takes a scalar on either side and pairs it with every element of
the other side.  `get?_map`, `get?_elementwise`, `broadcast_scalar_left` and
`broadcast_scalar_right` say what the results hold.
-/

namespace ModelScoring

inductive Arithmetic
  | plus
  | minus
  | times
  | rdivide
  | power
  deriving DecidableEq, Repr

namespace Arithmetic

/-- The operation of scripts that is this one, element by element. -/
def operation : Arithmetic → Operation
  | plus => .plus
  | minus => .minus
  | times => .times
  | rdivide => .rdivide
  | power => .power

def apply : Arithmetic → Float → Float → Float
  | plus, a, b => a + b
  | minus, a, b => a - b
  | times, a, b => a * b
  | rdivide, a, b => a / b
  | power, a, b => Float.pow a b

end Arithmetic

namespace Matrix

/-- An operation on the elements at the same positions of two matrices of one shape. -/
def elementwise (f : Arithmetic) (A B : Matrix) : Except MatrixError Matrix :=
  if h : A.shape = B.shape then
    .ok
      { shape := A.shape
        data := Array.zipWith f.apply A.data B.data
        size_data := by rw [Array.size_zipWith, A.size_data, B.size_data, h, Nat.min_self]
        countable := A.countable }
  else .error (.incompatibleDimensions f.operation A.shape B.shape)

/-- An operation on two matrices, a scalar being paired with every element of the other. -/
def broadcast (f : Arithmetic) (A B : Matrix) : Except MatrixError Matrix :=
  match A.scalar?, B.scalar? with
  | some a, some b => .ok (scalar (f.apply a b))
  | none, some b => .ok (A.map fun a => f.apply a b)
  | some a, none => .ok (B.map fun b => f.apply a b)
  | none, none => elementwise f A B

/-- Absolute values. -/
def abs (A : Matrix) : Matrix := A.map Float.abs

/-- Logarithms to the base ten. -/
def log10 (A : Matrix) : Matrix := A.map Float.log10

/-- The view of a matrix with every element replaced by its image. -/
theorem get?_map (f : Float → Float) (A : Matrix) (r c : Nat) :
    (A.map f).get? r c = (A.get? r c).map f := by
  have hget : (A.map f).get? r c =
      if r < A.rows ∧ c < A.cols then (A.data.map f)[r * A.cols + c]? else none := rfl
  rw [hget, get?, Array.getElem?_map]
  split <;> rfl

/-- Two matrices are combined exactly if they have the same shape. -/
theorem elementwise_eq_ok_iff {f : Arithmetic} {A B : Matrix} :
    (∃ C, elementwise f A B = .ok C) ↔ A.shape = B.shape := by
  unfold elementwise
  split <;> simp_all

/-- The view of a combination. -/
theorem get?_elementwise {f : Arithmetic} {A B C : Matrix} (h : elementwise f A B = .ok C)
    (r c : Nat) :
    C.get? r c = (A.get? r c).bind fun a => (B.get? r c).map fun b => f.apply a b := by
  unfold elementwise at h
  split at h
  · next hshape =>
    cases h
    have hB : B.get? r c =
        if r < A.rows ∧ c < A.cols then B.data[r * A.cols + c]? else none := by
      rw [get?, rows, cols, rows, cols, hshape]
    rw [hB, get?, get?]
    by_cases hin : r < A.rows ∧ c < A.cols
    · rw [if_pos hin, if_pos hin, if_pos hin, Array.getElem?_zipWith]
      cases A.data[r * A.cols + c]? <;> cases B.data[r * A.cols + c]? <;> rfl
    · rw [if_neg hin, if_neg hin]
      rfl
  · cases h

/-- A scalar matrix has a value. -/
theorem scalar?_eq_some_of_isScalar {A : Matrix} (h : A.isScalar = true) :
    ∃ a, A.scalar? = some a := by
  have hsize : 0 < A.data.size := by
    simp only [isScalar, Shape.isScalar, Bool.and_eq_true, beq_iff_eq] at h
    rw [A.size_data, Shape.count, h.1, h.2]
    decide
  exact ⟨A.data[0], by simp [scalar?, h, hsize]⟩

theorem scalar?_eq_none_of_not_isScalar {A : Matrix} (h : A.isScalar = false) :
    A.scalar? = none := by
  simp [scalar?, h]

/-- A scalar on the left meets every element of a matrix that is no scalar. -/
theorem broadcast_scalar_left {f : Arithmetic} {A B : Matrix} {a : Float}
    (ha : A.scalar? = some a) (hb : B.scalar? = none) :
    broadcast f A B = .ok (B.map fun b => f.apply a b) := by
  rw [broadcast, ha, hb]

/-- A scalar on the right meets every element of a matrix that is no scalar. -/
theorem broadcast_scalar_right {f : Arithmetic} {A B : Matrix} {b : Float}
    (ha : A.scalar? = none) (hb : B.scalar? = some b) :
    broadcast f A B = .ok (A.map fun a => f.apply a b) := by
  rw [broadcast, ha, hb]

end Matrix

end ModelScoring
