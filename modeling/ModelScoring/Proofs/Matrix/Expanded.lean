import ModelScoring.Proofs.Matrix.ResultShape

/-!
# Scalars in the place of matrices

An arithmetic operation takes two matrices of one shape.  It also takes a scalar on either side,
which meets every element of the other side.  This could be had by putting in the place of the
scalar the matrix of the other shape that has its value everywhere (`expanded`), and then working
element by element.  No such matrix is ever made.  `broadcast` has a case of its own for each side
that can be a scalar, and in these it looks at no shapes.

`broadcast_eq_elementwise_expanded` says that it comes to the same, for empty matrices too, and
which operands are refused.  The two operands keep their sides: the value of the left one is always
the first that an operation takes.
-/

namespace ModelScoring.Matrix

variable {A B C : Matrix} {a b : Float}

/-! ## Expanding -/

/-- The matrix of a shape with one value everywhere. -/
def uniform (shape : Shape) (h : shape.Countable) (x : Float) : Matrix :=
  ⟨shape, Array.replicate shape.count x, Array.size_replicate, h⟩

/-- An operand as it meets another.  A scalar that meets a matrix which is none becomes a matrix of
that shape. -/
def expanded (A B : Matrix) : Matrix :=
  match A.scalar?, B.scalar? with
  | some a, none => uniform B.shape B.countable a
  | _, _ => A

/-- The element of an operand at a position.  A scalar has its value at every position. -/
def spread? (A : Matrix) (r c : Nat) : Option Float :=
  if A.isScalar then A.scalar? else A.get? r c

theorem get?_uniform {shape : Shape} {h : shape.Countable} {x : Float} {r c : Nat}
    (hr : r < shape.rows) (hc : c < shape.cols) : (uniform shape h x).get? r c = some x := by
  have hoff : r * shape.cols + c < shape.count := offset_lt hr hc
  simp [get?, uniform, rows, cols, hr, hc, hoff]

theorem isScalar_of_scalar?_eq_some (h : A.scalar? = some a) : A.isScalar = true := by
  unfold scalar? at h
  split at h
  · next hscalar => exact hscalar
  · cases h

theorem isScalar_of_scalar?_eq_none (h : A.scalar? = none) : A.isScalar = false := by
  refine Bool.eq_false_iff.2 fun hscalar => ?_
  obtain ⟨a, ha⟩ := scalar?_eq_some_of_isScalar hscalar
  cases h.symm.trans ha

/-- A matrix with a single value is the scalar of that value. -/
theorem eq_scalar_of_scalar? (h : A.scalar? = some a) : A = scalar a := by
  have hscalar := isScalar_of_scalar?_eq_some h
  have hshape : A.shape = Shape.scalar := Shape.eq_scalar_of_isScalar hscalar
  have hsize : A.data.size = 1 := by rw [A.size_data, hshape]; rfl
  rw [scalar?, if_pos hscalar] at h
  obtain ⟨x, hx⟩ := Array.size_eq_one_iff.1 hsize
  rw [hx] at h
  obtain rfl : x = a := by simpa using h
  exact ext hshape hx

theorem expanded_of_scalar (ha : A.scalar? = some a) (hb : B.scalar? = none) :
    expanded A B = uniform B.shape B.countable a := by
  rw [expanded, ha, hb]

theorem expanded_of_scalar_right (hb : B.scalar? = some b) : expanded A B = A := by
  unfold expanded
  rw [hb]
  cases A.scalar? <;> rfl

theorem expanded_of_not_scalar (ha : A.scalar? = none) : expanded A B = A := by
  rw [expanded, ha]

/-! ## Working element by element -/

theorem zipWith_replicate_left (f : Float → Float → Float) {n : Nat} {xs : Array Float}
    (h : xs.size = n) : Array.zipWith f (Array.replicate n a) xs = xs.map (f a) := by
  refine Array.ext (by simp [h]) fun i hi hi' => ?_
  simp

theorem zipWith_replicate_right (f : Float → Float → Float) {n : Nat} {xs : Array Float}
    (h : xs.size = n) : Array.zipWith f xs (Array.replicate n b) = xs.map (f · b) := by
  refine Array.ext (by simp [h]) fun i hi hi' => ?_
  simp

theorem broadcast_eq (f : Arithmetic) (A B : Matrix) :
    broadcast f A B = elementwise f (expanded A B) (expanded B A) := by
  cases ha : A.scalar? with
  | none =>
    cases hb : B.scalar? with
    | none =>
      rw [expanded_of_not_scalar ha, expanded_of_not_scalar hb, broadcast, ha, hb]
    | some b =>
      rw [broadcast_scalar_right ha hb, expanded_of_not_scalar ha, expanded_of_scalar hb ha]
      refine ((dif_pos rfl).trans (congrArg Except.ok ?_)).symm
      exact ext rfl (zipWith_replicate_right f.apply A.size_data)
  | some a =>
    cases hb : B.scalar? with
    | none =>
      rw [broadcast_scalar_left ha hb, expanded_of_scalar ha hb, expanded_of_not_scalar hb]
      refine ((dif_pos rfl).trans (congrArg Except.ok ?_)).symm
      exact ext rfl (zipWith_replicate_left f.apply B.size_data)
    | some b =>
      rw [expanded_of_scalar_right hb, expanded_of_scalar_right ha, broadcast, ha, hb,
        eq_scalar_of_scalar? ha, eq_scalar_of_scalar? hb]
      refine ((dif_pos rfl).trans (congrArg Except.ok ?_)).symm
      exact ext rfl (by simp [scalar])

/-- What shape an operand is expanded to. -/
theorem shape_expanded (A B : Matrix) :
    (expanded A B).shape = if A.isScalar then B.shape else A.shape := by
  cases ha : A.scalar? with
  | none => rw [expanded_of_not_scalar ha, isScalar_of_scalar?_eq_none ha, if_neg nofun]
  | some a =>
    have hscalar := isScalar_of_scalar?_eq_some ha
    rw [if_pos hscalar]
    cases hb : B.scalar? with
    | none => rw [expanded_of_scalar ha hb]; rfl
    | some b =>
      rw [expanded_of_scalar_right hb, Shape.eq_scalar_of_isScalar hscalar,
        Shape.eq_scalar_of_isScalar (isScalar_of_scalar?_eq_some hb)]

/-- What an expanded operand has at a position of its shape. -/
theorem get?_expanded {r c : Nat} (hr : r < (expanded A B).rows) (hc : c < (expanded A B).cols) :
    (expanded A B).get? r c = A.spread? r c := by
  cases ha : A.scalar? with
  | none =>
    rw [expanded_of_not_scalar ha, spread?, isScalar_of_scalar?_eq_none ha, if_neg nofun]
  | some a =>
    rw [spread?, if_pos (isScalar_of_scalar?_eq_some ha), ha]
    cases hb : B.scalar? with
    | none =>
      rw [expanded_of_scalar ha hb] at hr hc ⊢
      exact get?_uniform hr hc
    | some b =>
      rw [expanded_of_scalar_right hb] at hr hc ⊢
      rw [eq_scalar_of_scalar? ha] at hr hc ⊢
      obtain rfl : r = 0 := Nat.lt_one_iff.1 hr
      obtain rfl : c = 0 := Nat.lt_one_iff.1 hc
      rfl

/-- The expanded operands have one shape exactly if an operand is a scalar or both have one
shape. -/
theorem shape_expanded_eq_iff (A B : Matrix) :
    (expanded A B).shape = (expanded B A).shape ↔
      A.isScalar = true ∨ B.isScalar = true ∨ A.shape = B.shape := by
  rw [shape_expanded, shape_expanded]
  by_cases hA : A.isScalar = true
  · by_cases hB : B.isScalar = true
    · rw [if_pos hA, if_pos hB, Shape.eq_scalar_of_isScalar hA, Shape.eq_scalar_of_isScalar hB]
      exact iff_of_true rfl (.inl hA)
    · rw [if_pos hA, if_neg hB]
      exact iff_of_true rfl (.inl hA)
  · by_cases hB : B.isScalar = true
    · rw [if_neg hA, if_pos hB]
      exact iff_of_true rfl (.inr (.inl hB))
    · rw [if_neg hA, if_neg hB]
      simp [hA, hB]

theorem expanded_of_shape_eq (h : A.shape = B.shape) : expanded A B = A := by
  cases hb : B.scalar? with
  | some b => exact expanded_of_scalar_right hb
  | none =>
    have hA : A.isScalar = false := by
      rw [isScalar, h]
      exact isScalar_of_scalar?_eq_none hb
    exact expanded_of_not_scalar (scalar?_eq_none_of_not_isScalar hA)

/-! ## Broadcasting -/

theorem exists_broadcast_iff {f : Arithmetic} :
    (∃ C, broadcast f A B = .ok C) ↔
      A.isScalar = true ∨ B.isScalar = true ∨ A.shape = B.shape := by
  rw [broadcast_eq, elementwise_eq_ok_iff, shape_expanded_eq_iff]

theorem broadcast_of_incompatible (f : Arithmetic)
    (h : ¬(A.isScalar = true ∨ B.isScalar = true ∨ A.shape = B.shape)) :
    broadcast f A B = .error (.incompatibleDimensions f.operation A.shape B.shape) := by
  obtain ⟨hA, hrest⟩ := not_or.1 h
  obtain ⟨hB, hshape⟩ := not_or.1 hrest
  have hscalar {X : Matrix} (hX : ¬X.isScalar = true) : X.scalar? = none :=
    scalar?_eq_none_of_not_isScalar (Bool.eq_false_iff.2 hX)
  rw [broadcast_eq, expanded_of_not_scalar (hscalar hA), expanded_of_not_scalar (hscalar hB)]
  exact dif_neg hshape

/-- A result has the shape of both expanded operands. -/
theorem shape_of_broadcast {f : Arithmetic} (h : broadcast f A B = .ok C) :
    C.shape = (expanded A B).shape ∧ C.shape = (expanded B A).shape := by
  rw [broadcast_eq] at h
  have hshapes := elementwise_eq_ok_iff.1 ⟨C, h⟩
  have hmap := shape_elementwise f (expanded A B) (expanded B A)
  rw [h, if_pos hshapes] at hmap
  have hshape : C.shape = (expanded A B).shape := Except.ok.inj hmap
  exact ⟨hshape, hshape.trans hshapes⟩

/-- An element of a result has the elements of the operands at its position, the left one first. -/
theorem get?_broadcast {f : Arithmetic} (h : broadcast f A B = .ok C) {r c : Nat}
    (hr : r < C.rows) (hc : c < C.cols) :
    ∃ a b, A.spread? r c = some a ∧ B.spread? r c = some b ∧
      C.get? r c = some (f.apply a b) := by
  have hfind {X : Matrix} (hX : C.shape = X.shape) : ∃ x, X.get? r c = some x := by
    rw [rows, hX] at hr
    rw [cols, hX] at hc
    exact ⟨_, get?_eq_entry X ⟨r, hr⟩ ⟨c, hc⟩⟩
  obtain ⟨hleft, hright⟩ := shape_of_broadcast h
  obtain ⟨a, ha⟩ := hfind hleft
  obtain ⟨b, hb⟩ := hfind hright
  rw [broadcast_eq] at h
  refine ⟨a, b, ?_, ?_, ?_⟩
  · rw [← ha, get?_expanded (by rwa [rows, ← hleft]) (by rwa [cols, ← hleft])]
  · rw [← hb, get?_expanded (by rwa [rows, ← hright]) (by rwa [cols, ← hright])]
  · rw [get?_elementwise h, ha, hb]
    rfl

/-- Pairing a scalar with every element of a matrix is working element by element with the matrix
that has its value everywhere.  An operation on two matrices is refused exactly if neither is a
scalar and their shapes differ, with both shapes in their order.  Operands of one shape are worked
on element by element, and a product with a scalar is the multiple by it. -/
theorem broadcast_eq_elementwise_expanded (f : Arithmetic) (A B : Matrix) :
    broadcast f A B = elementwise f (expanded A B) (expanded B A) ∧
    ((∃ C, broadcast f A B = .ok C) ↔
      A.isScalar = true ∨ B.isScalar = true ∨ A.shape = B.shape) ∧
    (¬(A.isScalar = true ∨ B.isScalar = true ∨ A.shape = B.shape) →
      broadcast f A B = .error (.incompatibleDimensions f.operation A.shape B.shape)) ∧
    (∀ C, broadcast f A B = .ok C →
      C.shape = (if A.isScalar then B.shape else A.shape) ∧
        ∀ r c, r < C.rows → c < C.cols → ∃ a b, A.spread? r c = some a ∧
          B.spread? r c = some b ∧ C.get? r c = some (f.apply a b)) ∧
    (∀ C, elementwise f A B = .ok C → broadcast f A B = .ok C) ∧
    (A.isScalar = true ∨ B.isScalar = true → mtimes A B = broadcast .times A B) := by
  refine ⟨broadcast_eq f A B, exists_broadcast_iff, broadcast_of_incompatible f, ?_, ?_, ?_⟩
  · intro C hC
    refine ⟨?_, fun r c hr hc => get?_broadcast hC hr hc⟩
    rw [(shape_of_broadcast hC).1, shape_expanded]
  · intro C hC
    have hshape := elementwise_eq_ok_iff.1 ⟨C, hC⟩
    rw [broadcast_eq, expanded_of_shape_eq hshape, expanded_of_shape_eq hshape.symm, hC]
  · intro hscalar
    exact if_pos (Bool.or_eq_true_iff.2 hscalar)

theorem two_columns_lt : 2 < sizeLimit := by decide

def pair : Matrix :=
  ⟨⟨1, 2, Shape.scalar.rows_lt, two_columns_lt⟩, #[4.0, 2.0], rfl, two_columns_lt⟩

/-- A scalar on the left is taken first, and an empty operand is none. -/
theorem broadcast_eq_elementwise_expanded_leftScalar :
    (∃ C, broadcast .minus (scalar 10.0) pair = .ok C ∧ C.get? 0 1 = some 8.0) ∧
      broadcast .minus empty pair =
        .error (.incompatibleDimensions .minus Shape.empty pair.shape) := by
  obtain ⟨-, hok, -, hview, -, -⟩ := broadcast_eq_elementwise_expanded .minus (scalar 10.0) pair
  obtain ⟨-, -, hrefused, -, -, -⟩ := broadcast_eq_elementwise_expanded .minus empty pair
  obtain ⟨C, hC⟩ := hok.2 (.inl rfl)
  obtain ⟨hshape, helements⟩ := hview C hC
  have hpair : C.shape = pair.shape := hshape
  obtain ⟨a, b, ha, hb, hget⟩ := helements 0 1 (by rw [rows, hpair]; decide)
    (by rw [cols, hpair]; decide)
  obtain rfl : 10.0 = a := Option.some.inj ha
  obtain rfl : 2.0 = b := Option.some.inj hb
  have height : Arithmetic.minus.apply 10.0 2.0 = 8.0 := by decide +kernel
  exact ⟨⟨C, hC, height ▸ hget⟩, hrefused (by decide)⟩

end ModelScoring.Matrix
