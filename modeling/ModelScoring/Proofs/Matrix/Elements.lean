import ModelScoring.Proofs.Matrix.Checked

/-!
# Elements of a product

The product is worked out where it stands, in one array.  It goes row by row and, in a row, term by
term: a multiple of a row of the right operand is added to the whole row at once.  Floats do not add
up to the same sum in every order, so it matters in which order an element takes its terms.

`Checked.getElem?_productSum` follows an element through the rounds of its row.  After so many
terms it is the sum of the products of as many elements, from positive zero and from left to right.
The other rows do not touch it, since each row stands behind the ones before it
(`getElem?_flatMap_of_size_eq`).

`Matrix.product_eq_dot` says that an element of the product is the sum `dot` of its row and its
column, bit for bit.  `Matrix.product_eq_ok_iff` says that this and its shape are all there is to a
product, and `Matrix.dot_congr` that such a sum depends on nothing but its terms.
-/

namespace ModelScoring

namespace Matrix

/-! ## Rows, one behind the other -/

/-- An element of one of several arrays of one length, where it stands among all of them. -/
theorem getElem?_flatMap_of_size_eq {α : Type} {n r c : Nat} (f : α → Array Float) {xs : List α}
    (h : ∀ x ∈ xs, (f x).size = n) (hr : r < xs.length) (hc : c < n) :
    (xs.toArray.flatMap f)[r * n + c]? = (f xs[r])[c]? := by
  induction xs generalizing r with
  | nil => cases hr
  | cons x xs ih =>
    have hx := h x List.mem_cons_self
    have hflat : (x :: xs).toArray.flatMap f = f x ++ xs.toArray.flatMap f := by
      rw [List.toArray_cons, Array.flatMap_append]
      simp
    rw [hflat, Array.getElem?_append, hx]
    cases r with
    | zero => rw [Nat.zero_mul, Nat.zero_add, if_pos hc, List.getElem_cons_zero]
    | succ r =>
      have hpast : ¬(r + 1) * n + c < n := by
        rw [Nat.succ_mul]
        omega
      have hback : (r + 1) * n + c - n = r * n + c := by
        rw [Nat.succ_mul]
        omega
      rw [if_neg hpast, hback, List.getElem_cons_succ]
      exact ih (fun y hy => h y (List.mem_cons_of_mem _ hy)) (Nat.lt_of_succ_lt_succ hr)

theorem getElem?_row {A : Matrix} (r : Fin A.rows) (c : Fin A.cols) :
    (A.row r)[c.val]? = some (A.entry r c) := by
  have hlength : c.val < (A.row r).toList.length := by
    rw [Array.length_toList, size_row (.inl r.isLt)]
    exact c.isLt
  rw [← Array.getElem?_toList, List.getElem?_eq_getElem hlength,
    Checked.getElem_row r.isLt c.isLt hlength]

end Matrix

/-! ## Sums -/

variable {A B C : Matrix}

/-- The elements of a row of the product after some terms. -/
theorem Checked.getElem?_productSum (h : A.cols = B.rows) (r : Fin A.rows) (c : Fin B.cols)
    {n : Nat} (hn : n ≤ A.cols) :
    (productSum A B r n)[c.val]? =
      some (Fin.foldl n (fun sum p =>
        sum + A.entry r (p.castLE hn) * B.entry (p.castLE (h ▸ hn)) c) 0.0) := by
  induction n with
  | zero =>
    have hzeros : productSum A B r 0 = Array.replicate B.cols 0.0 := by
      simp [productSum, Matrix.combine]
    rw [hzeros, Array.getElem?_replicate, if_pos c.isLt]
    rfl
  | succ n ih =>
    have hright := Matrix.getElem?_row (A := B) ⟨n, h ▸ hn⟩ c
    -- Round `n` adds the multiple of row `n` to the whole row, and so its last term to the element.
    rw [productSum_succ r.isLt (Nat.lt_of_succ_le hn) h, Matrix.addMultiple,
      Array.getElem?_zipWith, ih (Nat.le_of_succ_le hn), hright, Fin.foldl_succ_last]
    rfl

namespace Matrix

/-- An element of a whole row of the product. -/
theorem getElem?_combine (h : A.cols = B.rows) (r : Fin A.rows) (c : Fin B.cols) :
    (combine B.cols (A.row r).toList B.rowList)[c.val]? = some (dot A B h r c) := by
  rw [← Checked.productSum_cols r.isLt h]
  exact Checked.getElem?_productSum h r c (Nat.le_refl _)

theorem get?_product {C : Matrix} (h : A.cols = B.rows) (hC : product A B = .ok C)
    (r : Fin A.rows) (c : Fin B.cols) : C.get? r c = some (dot A B h r c) := by
  unfold product at hC
  split at hC
  · split at hC
    · cases hC
      have hrow (k : Nat) (_ : k ∈ List.range A.rows) :
          (combine B.cols (A.row k).toList B.rowList).size = B.cols :=
        size_combine fun _ hmem => size_of_mem_rowList hmem
      have hr : r.val < (List.range A.rows).length := by
        rw [List.length_range]
        exact r.isLt
      have helement := getElem?_flatMap_of_size_eq _ hrow hr c.isLt
      rw [List.getElem_range, getElem?_combine h r c] at helement
      rw [get?, if_pos ⟨r.isLt, c.isLt⟩]
      exact helement
    · cases hC
  · cases hC

/-- Operands whose inner dimensions agree have a product, if its elements can be counted. -/
theorem exists_product (h : A.cols = B.rows) (hcount : A.rows * B.cols < sizeLimit) :
    ∃ C, product A B = .ok C ∧ C.rows = A.rows ∧ C.cols = B.cols := by
  have hchains : A.shape.chains B.shape = true := by simpa [Shape.chains] using h
  have hcountable : (productShape A B).Countable := hcount
  unfold product
  rw [if_pos hchains, dif_pos hcountable]
  exact ⟨_, rfl, rfl, rfl⟩

/-- The inner dimensions are all that a product looks at before it counts. -/
theorem product_eq_incompatible_iff (op : Operation) (s t : Shape) :
    product A B = .error (.incompatibleDimensions op s t) ↔
      A.cols ≠ B.rows ∧ op = .mtimes ∧ s = A.shape ∧ t = B.shape := by
  have hchains : A.shape.chains B.shape = true ↔ A.cols = B.rows := by simp [Shape.chains]
  unfold product
  by_cases h : A.shape.chains B.shape = true
  · rw [if_pos h]
    refine iff_of_false (fun heq => ?_) fun hne => hne.1 (hchains.1 h)
    split at heq <;> cases heq
  · rw [if_neg h]
    constructor
    · intro heq
      cases heq
      exact ⟨fun heq => h (hchains.2 heq), rfl, rfl, rfl⟩
    · rintro ⟨-, rfl, rfl, rfl⟩
      rfl

theorem dims_of_product (h : product A B = .ok C) :
    A.cols = B.rows ∧ C.rows = A.rows ∧ C.cols = B.cols := by
  unfold product at h
  split at h
  · next hchains =>
    split at h
    · cases h
      exact ⟨beq_iff_eq.1 hchains, rfl, rfl⟩
    · cases h
  · cases h

/-- A product has the rows of the left operand, the columns of the right one, and at each position
the sum along the row and the column there. -/
theorem product_eq_ok_iff :
    product A B = .ok C ↔ ∃ h : A.cols = B.rows, C.rows = A.rows ∧ C.cols = B.cols ∧
      ∀ (r : Fin A.rows) (c : Fin B.cols), C.get? r c = some (dot A B h r c) := by
  constructor
  · intro hC
    obtain ⟨h, hrows, hcols⟩ := dims_of_product hC
    exact ⟨h, hrows, hcols, get?_product h hC⟩
  · rintro ⟨h, hrows, hcols, hget⟩
    have hcount : A.rows * B.cols < sizeLimit := hrows ▸ hcols ▸ C.countable
    obtain ⟨D, hD, hDrows, hDcols⟩ := exists_product h hcount
    have hCD : C = D := by
      refine ext_get? (Shape.ext (hrows.trans hDrows.symm) (hcols.trans hDcols.symm)) ?_
      intro r c hr hc
      have hdot := hget ⟨r, hrows ▸ hr⟩ ⟨c, hcols ▸ hc⟩
      rw [hdot, get?_product h hD ⟨r, hrows ▸ hr⟩ ⟨c, hcols ▸ hc⟩]
    rw [hD, hCD]

theorem entry_eq_of_get? {r : Fin A.rows} {c : Fin A.cols} {r' : Fin B.rows} {c' : Fin B.cols}
    (h : A.get? r c = B.get? r' c') : A.entry r c = B.entry r' c' := by
  rw [get?_eq_entry, get?_eq_entry] at h
  exact Option.some.inj h

/-- Two elements of products are the same sum if their terms are the same. -/
theorem dot_congr {A' B' : Matrix} {h : A.cols = B.rows} {h' : A'.cols = B'.rows} {r : Fin A.rows}
    {c : Fin B.cols} {r' : Fin A'.rows} {c' : Fin B'.cols} (hcols : A.cols = A'.cols)
    (hterm : ∀ p : Fin A.cols, A.entry r p * B.entry (p.cast h) c =
      A'.entry r' (p.cast hcols) * B'.entry (p.cast (hcols.trans h')) c') :
    dot A B h r c = dot A' B' h' r' c' := by
  unfold dot
  rw [Fin.foldl_congr hcols]
  congr 1
  funext sum p
  exact congrArg (sum + ·) (hterm (p.cast hcols.symm))

/-- The product that is worked out in place is made of the sums along rows and columns, each taken
from positive zero and from left to right.  Operands whose inner dimensions differ are refused with
both their shapes, and no others are. -/
theorem product_eq_dot (A B : Matrix) :
    Checked.product A B = product A B ∧
    (∀ op s t, product A B = .error (.incompatibleDimensions op s t) ↔
      A.cols ≠ B.rows ∧ op = .mtimes ∧ s = A.shape ∧ t = B.shape) ∧
    ∀ h : A.cols = B.rows, A.rows * B.cols < sizeLimit →
      ∃ C, product A B = .ok C ∧ C.rows = A.rows ∧ C.cols = B.cols ∧
        ∀ (r : Fin A.rows) (c : Fin B.cols), C.get? r c = some (dot A B h r c) := by
  refine ⟨Checked.product_eq A B, product_eq_incompatible_iff, fun h hcount => ?_⟩
  obtain ⟨C, hC, hrows, hcols⟩ := exists_product h hcount
  exact ⟨C, hC, hrows, hcols, get?_product h hC⟩

theorem three_lt_sizeLimit : 3 < sizeLimit := by decide

/-- A row whose elements add up to one, and to zero if they are added from left to right. -/
def absorbing : Matrix :=
  ⟨⟨1, 3, Shape.scalar.rows_lt, three_lt_sizeLimit⟩, #[1e16, 1.0, -1e16], rfl, three_lt_sizeLimit⟩

def ones : Matrix :=
  ⟨⟨3, 1, three_lt_sizeLimit, Shape.scalar.cols_lt⟩, #[1.0, 1.0, 1.0], rfl, three_lt_sizeLimit⟩

theorem product_eq_dot_absorbing :
    absorbing.cols = ones.rows ∧ absorbing.rows * ones.cols < sizeLimit ∧
      ∃ C, product absorbing ones = .ok C ∧ C.get? 0 0 = some 0.0 := by
  obtain ⟨C, hC, -, -, hdot⟩ := (product_eq_dot absorbing ones).2.2 rfl (by decide)
  have hzero : dot absorbing ones rfl ⟨0, by decide⟩ ⟨0, by decide⟩ = 0.0 := by decide +kernel
  refine ⟨rfl, by decide, C, hC, ?_⟩
  rw [← hzero]
  exact hdot ⟨0, by decide⟩ ⟨0, by decide⟩

end Matrix

end ModelScoring
