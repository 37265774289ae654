import ModelScoring.Proofs.Matrix.Elements
import ModelScoring.Proofs.Matrix.Expanded
import ModelScoring.Proofs.Matrix.Halting
import ModelScoring.Proofs.Matrix.Transposed

/-!
# Operations on transposed operands

An operation that works element by element does the same at every position, so it gives the
transposed result if its operands are transposed.  A product gives the transposed result if its
operands are also exchanged: a row of the one product is a column of the other, and the terms of an
element come in the same order.  Only the two factors of each term change sides, and floats can be
multiplied in either order (`float_mul_comm`).

`Transposes x y` says that `y` succeeds exactly if `x` does, with the transposed result.  Each
operation has a lemma which says that of it.  The results are compared through the view, since the
view tells when a matrix is the result of an operation (`elementwise_eq_ok_iff_get?`,
`product_eq_ok_iff`).

`transpose_laws` and `mtimes_reversed` are the laws of element-wise operations and of products.
-/

namespace ModelScoring

/-! ## The order of factors -/

section factors

open Float.Model (UnpackedFloat)

theorem sign_mul_comm (s t : UnpackedFloat.Sign) : s * t = t * s := by
  cases s <;> cases t <;> rfl

theorem unpacked_mul_comm (format : Float.Model.Format) (a b : UnpackedFloat) :
    UnpackedFloat.mul format a b = UnpackedFloat.mul format b a := by
  cases a with
  | notANumber => cases b <;> rfl
  | infinity s =>
    cases b with
    | notANumber | zero t => rfl
    | infinity t | finite t m e h => exact congrArg UnpackedFloat.infinity (sign_mul_comm s t)
  | zero s =>
    cases b with
    | notANumber | infinity t => rfl
    | zero t | finite t m e h => exact congrArg UnpackedFloat.zero (sign_mul_comm s t)
  | finite s m e h =>
    cases b with
    | notANumber => rfl
    | infinity t => exact congrArg UnpackedFloat.infinity (sign_mul_comm s t)
    | zero t => exact congrArg UnpackedFloat.zero (sign_mul_comm s t)
    | finite t n e' h' =>
      -- the exact product of two finite numbers is rounded once, and so in both orders alike
      show UnpackedFloat.roundWithAccuracy format (s * t) (m * n) (e + e') .exact =
        UnpackedFloat.roundWithAccuracy format (t * s) (n * m) (e' + e) .exact
      rw [sign_mul_comm, Nat.mul_comm, Int.add_comm]

/-- Floats can be multiplied in either order.  There is only one not-a-number. -/
theorem float_mul_comm (x y : Float) : x * y = y * x :=
  congrArg (fun z => Float.ofModel (Float.Model.pack z)) (unpacked_mul_comm _ _ _)

end factors

theorem Shape.transposed_inj {s t : Shape} : s.transposed = t.transposed ↔ s = t := by
  have htransposed : Function.Involutive transposed := transposed_transposed
  exact htransposed.injective.eq_iff

namespace Matrix

variable {A B C : Matrix} {f : Arithmetic} {x y : Except MatrixError Matrix}

theorem transpose_inj : A.transpose = B.transpose ↔ A = B := by
  have htranspose : Function.Involutive transpose := transpose_transpose
  exact htranspose.injective.eq_iff

/-! ## Transposed results -/

/-- One calculation succeeds exactly if another does, with the transposed result. -/
structure Transposes (x y : Except MatrixError Matrix) : Prop where
  exists_iff : (∃ D, y = .ok D) ↔ ∃ C, x = .ok C
  ok_transpose {C : Matrix} : x = .ok C → y = .ok C.transpose

theorem Transposes.ok_iff (h : Transposes x y) : y = .ok C.transpose ↔ x = .ok C := by
  refine ⟨fun hy => ?_, h.ok_transpose⟩
  obtain ⟨D, hD⟩ := h.exists_iff.1 ⟨_, hy⟩
  have hC : C.transpose = D.transpose := Except.ok.inj (hy.symm.trans (h.ok_transpose hD))
  rw [hD, transpose_inj.1 hC]

theorem transposes_of_ok_iff (h : ∀ C, y = .ok C.transpose ↔ x = .ok C) : Transposes x y where
  exists_iff := by
    constructor
    · rintro ⟨D, hD⟩
      exact ⟨D.transpose, (h _).1 (by rwa [transpose_transpose])⟩
    · rintro ⟨C, hC⟩
      exact ⟨C.transpose, (h C).2 hC⟩
  ok_transpose hC := (h _).2 hC

theorem transposes_select (axis : Axis) (A I : Matrix) :
    Transposes (select axis A I) (select axis.other A.transpose I) := by
  refine transposes_of_ok_iff fun C => ?_
  rw [select_transpose]
  cases select axis A I with
  | ok R => simp [Except.map, Except.mapError, transpose_inj]
  | error e => simp [Except.map, Except.mapError]

/-! ## Element by element -/

/-- The element at an exchanged position, and no element at a position that is not in range. -/
theorem get_transpose (A : Matrix) (r c : Nat) :
    A.transpose.get c r = (A.get r c).mapError MatrixError.mirrored := by
  rw [get, get, get?_transpose]
  cases A.get? r c <;> rfl

theorem transpose_map (f : Float → Float) (A : Matrix) :
    A.transpose.map f = (A.map f).transpose := by
  refine ext_get? rfl fun r c _ _ => ?_
  rw [get?_map, get?_transpose, get?_transpose, get?_map]

theorem isScalar_transpose (A : Matrix) : A.transpose.isScalar = A.isScalar := Bool.and_comm _ _

theorem transpose_scalar (x : Float) : (scalar x).transpose = scalar x := by
  refine ext_get? rfl fun r c hr hc => ?_
  obtain rfl : r = 0 := Nat.lt_one_iff.1 hr
  obtain rfl : c = 0 := Nat.lt_one_iff.1 hc
  exact get?_transpose (scalar x) 0 0

theorem scalar?_transpose (A : Matrix) : A.transpose.scalar? = A.scalar? := by
  cases ha : A.scalar? with
  | none =>
    rw [scalar?_eq_none_of_not_isScalar]
    rw [isScalar_transpose, isScalar_of_scalar?_eq_none ha]
  | some a =>
    have hA := eq_scalar_of_scalar? ha
    rw [hA, transpose_scalar, ← hA, ha]

theorem transpose_uniform {shape : Shape} (h : shape.Countable) (x : Float) :
    (uniform shape h x).transpose =
      uniform shape.transposed ((Shape.countable_transposed shape).2 h) x := by
  refine ext_get? rfl fun r c hr hc => ?_
  rw [get?_transpose]
  exact (get?_uniform hc hr).trans (get?_uniform hr hc).symm

theorem transpose_expanded (A B : Matrix) :
    expanded A.transpose B.transpose = (expanded A B).transpose := by
  unfold expanded
  rw [scalar?_transpose, scalar?_transpose]
  cases A.scalar? with
  | none => rfl
  | some a =>
    cases B.scalar? with
    | none => exact (transpose_uniform B.countable a).symm
    | some b => rfl

/-- A combination has the shape of both operands and at each position what is made of the two
elements there. -/
theorem elementwise_eq_ok_iff_get? :
    elementwise f A B = .ok C ↔ A.shape = B.shape ∧ C.shape = A.shape ∧
      ∀ r c, C.get? r c = (A.get? r c).bind fun a => (B.get? r c).map fun b => f.apply a b := by
  constructor
  · intro h
    have hshape := shape_elementwise f A B
    have hequal := elementwise_eq_ok_iff.1 ⟨C, h⟩
    rw [h, if_pos hequal] at hshape
    exact ⟨hequal, Except.ok.inj hshape, get?_elementwise h⟩
  · rintro ⟨hequal, hshape, hget⟩
    obtain ⟨D, hD⟩ := elementwise_eq_ok_iff.2 hequal
    have hDshape := shape_elementwise f A B
    rw [hD, if_pos hequal] at hDshape
    have hCD : C = D := ext_get? (hshape.trans (Except.ok.inj hDshape).symm) fun r c _ _ => by
      rw [hget, get?_elementwise hD]
    rw [hD, hCD]

theorem transposes_elementwise (f : Arithmetic) (A B : Matrix) :
    Transposes (elementwise f A B) (elementwise f A.transpose B.transpose) := by
  refine transposes_of_ok_iff fun C => ?_
  simp only [elementwise_eq_ok_iff_get?, shape_transpose, Shape.transposed_inj, get?_transpose]
  rw [forall_comm]

theorem transposes_broadcast (f : Arithmetic) (A B : Matrix) :
    Transposes (broadcast f A B) (broadcast f A.transpose B.transpose) := by
  rw [broadcast_eq, broadcast_eq, transpose_expanded, transpose_expanded]
  exact transposes_elementwise f _ _

/-- Rows and columns are exchanged by going through the columns, and down each of them.  Doing it
twice gives the matrix back, and an element-wise operation gives the same before as after. -/
theorem transpose_laws (A : Matrix) :
    Checked.transpose A = .ok A.transpose ∧
    (A.transpose.rows = A.cols ∧ A.transpose.cols = A.rows) ∧
    (∀ (r : Fin A.rows) (c : Fin A.cols),
      A.get r c = .ok (A.entry r c) ∧ A.transpose.get c r = .ok (A.entry r c)) ∧
    A.transpose.transpose = A ∧
    (∀ f B, Transposes (elementwise f A B) (elementwise f A.transpose B.transpose)) ∧
    (∀ f B, Transposes (broadcast f A B) (broadcast f A.transpose B.transpose)) ∧
    A.transpose.abs = A.abs.transpose ∧ A.transpose.log10 = A.log10.transpose := by
  refine ⟨Checked.transpose_eq A, ⟨rfl, rfl⟩, fun r c => ?_, transpose_transpose A,
    fun f B => transposes_elementwise f A B, fun f B => transposes_broadcast f A B,
    transpose_map Float.abs A, transpose_map Float.log10 A⟩
  have hget : A.get r c = .ok (A.entry r c) := by rw [get, get?_eq_entry]
  exact ⟨hget, by rw [get_transpose, hget]; rfl⟩

/-! ## Products -/

theorem entry_transpose (A : Matrix) (r : Fin A.rows) (c : Fin A.cols) :
    A.transpose.entry c r = A.entry r c :=
  entry_eq_of_get? (get?_transpose A r c)

/-- The factors of each term change sides, and the terms keep their order. -/
theorem dot_transpose (h : A.cols = B.rows) (r : Fin A.rows) (c : Fin B.cols) :
    dot B.transpose A.transpose h.symm c r = dot A B h r c := by
  refine dot_congr h.symm fun p : Fin B.rows => ?_
  calc B.transpose.entry c p * A.transpose.entry (p.cast h.symm) r
    _ = B.entry p c * A.entry r (p.cast h.symm) :=
      congrArg₂ (· * ·) (entry_transpose B p c) (entry_transpose A r (p.cast h.symm))
    _ = A.entry r (p.cast h.symm) * B.entry p c := float_mul_comm _ _

theorem product_transpose_of_ok (h : product A B = .ok C) :
    product B.transpose A.transpose = .ok C.transpose := by
  obtain ⟨hinner, hrows, hcols, hget⟩ := product_eq_ok_iff.1 h
  refine product_eq_ok_iff.2 ⟨hinner.symm, hcols, hrows, fun c r => ?_⟩
  rw [get?_transpose]
  exact (hget r c).trans (congrArg some (dot_transpose hinner r c).symm)

theorem transposes_product (A B : Matrix) :
    Transposes (product A B) (product B.transpose A.transpose) := by
  refine transposes_of_ok_iff fun C => ⟨fun h => ?_, product_transpose_of_ok⟩
  simpa using product_transpose_of_ok h

theorem elementwise_times_of_exchanged (h : elementwise .times A B = .ok C) :
    elementwise .times B A = .ok C := by
  obtain ⟨hequal, hshape, hget⟩ := elementwise_eq_ok_iff_get?.1 h
  refine elementwise_eq_ok_iff_get?.2 ⟨hequal.symm, hshape.trans hequal, fun r c => ?_⟩
  rw [hget]
  cases A.get? r c with
  | none => cases B.get? r c <;> rfl
  | some a =>
    cases B.get? r c with
    | none => rfl
    | some b => exact congrArg some (float_mul_comm a b)

theorem broadcast_times_of_exchanged (h : broadcast .times A B = .ok C) :
    broadcast .times B A = .ok C := by
  rw [broadcast_eq] at h ⊢
  exact elementwise_times_of_exchanged h

theorem transposes_broadcast_times (A B : Matrix) :
    Transposes (broadcast .times A B) (broadcast .times B.transpose A.transpose) := by
  refine transposes_of_ok_iff fun C => ?_
  rw [← (transposes_broadcast .times A B).ok_iff]
  exact ⟨broadcast_times_of_exchanged, broadcast_times_of_exchanged⟩

theorem transposes_mtimes (A B : Matrix) :
    Transposes (mtimes A B) (mtimes B.transpose A.transpose) := by
  unfold mtimes
  rw [isScalar_transpose, isScalar_transpose, Bool.or_comm B.isScalar]
  split
  · exact transposes_broadcast_times A B
  · exact transposes_product A B

/-- A product halts only if its elements cannot be counted. -/
theorem mtimes_ne_halted (h : A.rows * B.cols < sizeLimit) : mtimes A B ≠ .error .halted := by
  intro hhalted
  obtain ⟨-, -, -, hlarge⟩ := (Calculation.run_eq_halted_iff (.mtimes A B)).1 hhalted
  exact Nat.not_lt.2 hlarge h

/-- The product of the transposed operands, in the other order, is the transposed product.  It is
there exactly if the product is, and neither halts if the elements of the product can be counted.
This is so of multiples by a scalar and of products of two matrices. -/
theorem mtimes_reversed (A B : Matrix) :
    Transposes (mtimes A B) (mtimes B.transpose A.transpose) ∧
    Transposes (product A B) (product B.transpose A.transpose) ∧
    (A.rows * B.cols < sizeLimit →
      mtimes A B ≠ .error .halted ∧ mtimes B.transpose A.transpose ≠ .error .halted) := by
  refine ⟨transposes_mtimes A B, transposes_product A B, fun h => ⟨mtimes_ne_halted h, ?_⟩⟩
  exact mtimes_ne_halted (Nat.mul_comm _ _ ▸ h)

/-- A column and a row, both of more than one element. -/
theorem mtimes_reversed_outer :
    ones.rows * pair.cols < sizeLimit ∧ ∃ C, mtimes ones pair = .ok C ∧ C.rows = 3 ∧ C.cols = 2 ∧
      mtimes pair.transpose ones.transpose = .ok C.transpose ∧
      mtimes pair.transpose ones.transpose ≠ .error .halted := by
  have hcount : ones.rows * pair.cols < sizeLimit := by decide
  obtain ⟨C, hC, hrows, hcols⟩ := exists_product (A := ones) (B := pair) rfl hcount
  obtain ⟨htransposes, -, hhalted⟩ := mtimes_reversed ones pair
  have hmtimes : mtimes ones pair = .ok C := hC
  exact ⟨hcount, C, hmtimes, hrows, hcols, htransposes.ok_transpose hmtimes, (hhalted hcount).2⟩

end Matrix

end ModelScoring
