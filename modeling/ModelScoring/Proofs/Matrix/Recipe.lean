import ModelScoring.Proofs.Matrix.Buffer

/-!
# Recipes

A *recipe* says how a matrix is made: by a constructor, or by an operation on what other recipes
make.  `Recipe.fill` follows it on buffers, which need not be filled, and `Recipe.build` on
matrices.  Both come to the same (`fill_eq_map_build`).  So what a recipe makes is the buffer of a
matrix, though hardly a step checks it, and `Recipe.dims` tells its numbers of rows and columns
beforehand.
-/

namespace ModelScoring

/-- How a matrix is made. -/
inductive Recipe
  | zeros (shape : Shape)
  | empty
  | scalar (x : Float)
  | row (values : Array Float)
  | ofArray (shape : Shape) (values : Array Float)
  | ofRows (rows : List (Array Float))
  | set (r c : Nat) (x : Float) (a : Recipe)
  | map (f : Float → Float) (a : Recipe)
  | transpose (a : Recipe)
  | elementwise (f : Arithmetic) (a b : Recipe)
  | broadcast (f : Arithmetic) (a b : Recipe)
  | product (a b : Recipe)
  | mtimes (a b : Recipe)
  | select (axis : Axis) (a indices : Recipe)

/-- The numbers of rows and columns. -/
def Shape.dims (s : Shape) : Nat × Nat := (s.rows, s.cols)

/-- Those of two numbers of rows and columns that are not of a scalar. -/
def nonScalar (d e : Nat × Nat) : Nat × Nat := if d = (1, 1) then e else d

namespace Recipe

/-- What the recipe makes of shapes and arrays that each step puts together as it finds them. -/
def fill : Recipe → Except MatrixError Buffer
  | zeros shape => Buffer.zeros shape
  | empty => .ok Buffer.empty
  | scalar x => .ok (Buffer.scalar x)
  | row values => Buffer.ofRow values
  | ofArray shape values => Buffer.ofArray shape values
  | ofRows rows => Buffer.ofRows rows
  | set r c x a => do (← a.fill).set r c x
  | map f a => do .ok ((← a.fill).map f)
  | transpose a => do (← a.fill).transpose
  | elementwise f a b => do Buffer.elementwise f (← a.fill) (← b.fill)
  | broadcast f a b => do Buffer.broadcast f (← a.fill) (← b.fill)
  | product a b => do Buffer.product (← a.fill) (← b.fill)
  | mtimes a b => do Buffer.mtimes (← a.fill) (← b.fill)
  | select axis a i => do Buffer.select axis (← a.fill) (← i.fill)

def build : Recipe → Except MatrixError Matrix
  | zeros shape => Matrix.zeros shape
  | empty => .ok Matrix.empty
  | scalar x => .ok (Matrix.scalar x)
  | row values => Matrix.ofRow values
  | ofArray shape values => Matrix.ofArray shape values
  | ofRows rows => Matrix.ofRows rows
  | set r c x a => do (← a.build).set r c x
  | map f a => do .ok ((← a.build).map f)
  | transpose a => do .ok (← a.build).transpose
  | elementwise f a b => do Matrix.elementwise f (← a.build) (← b.build)
  | broadcast f a b => do Matrix.broadcast f (← a.build) (← b.build)
  | product a b => do Matrix.product (← a.build) (← b.build)
  | mtimes a b => do Matrix.mtimes (← a.build) (← b.build)
  | select axis a i => do Matrix.select axis (← a.build) (← i.build)

/-- The numbers of rows and columns, if the recipe makes something. -/
def dims : Recipe → Nat × Nat
  | zeros shape => shape.dims
  | empty => (0, 0)
  | scalar _ => (1, 1)
  | row values => (1, values.size)
  | ofArray shape _ => shape.dims
  | ofRows rows => (rows.length, (rows.head?.map Array.size).getD 0)
  | set _ _ _ a => a.dims
  | map _ a => a.dims
  | transpose a => a.dims.swap
  | elementwise _ a _ => a.dims
  | broadcast _ a b => nonScalar a.dims b.dims
  | product a b => (a.dims.1, b.dims.2)
  | mtimes a b =>
    if a.dims = (1, 1) ∨ b.dims = (1, 1) then nonScalar a.dims b.dims else (a.dims.1, b.dims.2)
  | select .rows a i => (i.dims.2, a.dims.2)
  | select .cols a i => (a.dims.1, i.dims.2)

/-! ## Following a recipe -/

theorem map_buffer_bind {x : Except MatrixError Matrix} {y : Except MatrixError Buffer}
    {f : Matrix → Except MatrixError Matrix} {g : Buffer → Except MatrixError Buffer}
    (hxy : y = x.map Matrix.buffer) (hfg : ∀ A, g A.buffer = (f A).map Matrix.buffer) :
    (y >>= g) = (x >>= f).map Matrix.buffer := by
  subst hxy
  cases x with
  | error e => rfl
  | ok A => exact hfg A

theorem fill_eq_map_build (r : Recipe) : r.fill = r.build.map Matrix.buffer := by
  induction r with
  | zeros shape => exact Matrix.buffer_zeros shape
  | empty => rfl
  | scalar x => rfl
  | row values => exact Matrix.buffer_ofRow values
  | ofArray shape values => exact Matrix.buffer_ofArray shape values
  | ofRows rows => exact Matrix.buffer_ofRows rows
  | set r c x a ha => exact map_buffer_bind ha fun A => A.buffer_set r c x
  | map f a ha => exact map_buffer_bind ha fun _ => rfl
  | transpose a ha => exact map_buffer_bind ha fun A => A.buffer_transpose
  | elementwise f a b ha hb =>
    exact map_buffer_bind ha fun A => map_buffer_bind hb fun B => A.buffer_elementwise B f
  | broadcast f a b ha hb =>
    exact map_buffer_bind ha fun A => map_buffer_bind hb fun B => A.buffer_broadcast B f
  | product a b ha hb =>
    exact map_buffer_bind ha fun A => map_buffer_bind hb fun B => A.buffer_product B
  | mtimes a b ha hb =>
    exact map_buffer_bind ha fun A => map_buffer_bind hb fun B => A.buffer_mtimes B
  | select axis a i ha hi =>
    exact map_buffer_bind ha fun A => map_buffer_bind hi fun I => A.buffer_select I axis

end Recipe

/-! ## Rows and columns -/

namespace Shape

variable {s t u : Shape}

theorem isScalar_iff : s.isScalar = true ↔ s.dims = (1, 1) := by
  simp [isScalar, dims]

theorem dims_pointwise {op : Operation} (h : pointwise op s t = .ok u) :
    u.dims = nonScalar s.dims t.dims := by
  unfold pointwise at h
  by_cases hs : s.isScalar = true
  · rw [if_pos hs] at h
    cases h
    rw [nonScalar, if_pos (isScalar_iff.1 hs)]
  · rw [if_neg hs] at h
    rw [nonScalar, if_neg fun hdims => hs (isScalar_iff.2 hdims)]
    by_cases ht : t.isScalar = true
    · rw [if_pos ht] at h
      cases h
      rfl
    · rw [if_neg ht] at h
      split at h
      · cases h
        rfl
      · cases h

theorem dims_product (h : product s t = .ok u) : u.dims = (s.dims.1, t.dims.2) := by
  unfold product at h
  split at h
  · split at h
    · cases h
      rfl
    · cases h
  · cases h

theorem dims_mtimes (h : mtimes s t = .ok u) :
    u.dims = if s.dims = (1, 1) ∨ t.dims = (1, 1) then nonScalar s.dims t.dims
      else (s.dims.1, t.dims.2) := by
  unfold mtimes at h
  simp only [Bool.or_eq_true, isScalar_iff] at h
  by_cases hscalar : s.dims = (1, 1) ∨ t.dims = (1, 1)
  · rw [if_pos hscalar] at h ⊢
    exact dims_pointwise h
  · rw [if_neg hscalar] at h ⊢
    exact dims_product h

end Shape

namespace Matrix

variable {A B C : Matrix}

theorem ok_of_bind {α β : Type} {x : Except MatrixError α} {f : α → Except MatrixError β} {b : β}
    (h : (x >>= f) = .ok b) : ∃ a, x = .ok a ∧ f a = .ok b := by
  cases x with
  | error e => cases h
  | ok a => exact ⟨a, rfl, h⟩

theorem shape_of_map {x : Except MatrixError Matrix} {s : Except MatrixError Shape}
    (hx : x.map shape = s) (h : x = .ok A) : s = .ok A.shape := by
  subst hx h
  rfl

theorem dims_zeros {shape : Shape} (h : zeros shape = .ok A) : A.shape.dims = shape.dims := by
  unfold zeros at h
  split at h
  · cases h
    rfl
  · cases h

theorem dims_ofArray {shape : Shape} {values : Array Float} (h : ofArray shape values = .ok A) :
    A.shape.dims = shape.dims := by
  rw [(A.eq_of_ofArray h).1]

theorem dims_ofRow {values : Array Float} (h : ofRow values = .ok A) :
    A.shape.dims = (1, values.size) := by
  unfold ofRow at h
  split at h
  · next shape hshape =>
    obtain ⟨hrows, hcols⟩ := Shape.eq_of_of? hshape
    rw [dims_ofArray h, Shape.dims, hrows, hcols]
  · cases h

theorem dims_ofRows {rows : List (Array Float)} (h : ofRows rows = .ok A) :
    A.shape.dims = (rows.length, (rows.head?.map Array.size).getD 0) := by
  unfold ofRows at h
  dsimp only at h
  split at h
  · cases h
  · next shape hshape =>
    obtain ⟨B, hB, h⟩ := ok_of_bind h
    split at h
    · cases h
    · cases h
      obtain ⟨hrows, hcols⟩ := Shape.eq_of_of? hshape
      rw [dims_ofArray hB, Shape.dims, hrows, hcols]

theorem dims_set {r c : Nat} {x : Float} (h : B.set r c x = .ok A) :
    A.shape.dims = B.shape.dims := by
  rw [shape_of_set h]

theorem dims_elementwise {f : Arithmetic} (h : elementwise f B C = .ok A) :
    A.shape.dims = B.shape.dims := by
  unfold elementwise at h
  split at h
  · cases h
    rfl
  · cases h

theorem shape_of_select {axis : Axis} (h : select axis B C = .ok A) :
    A.shape = Shape.selected axis B.shape C.shape := by
  rcases shape_select axis B C with hshape | ⟨value, herror⟩ | ⟨-, herror⟩
  · have hok := shape_of_map hshape h
    unfold Shape.select at hok
    split at hok
    · split at hok
      · exact (Except.ok.inj hok).symm
      · cases hok
    · cases hok
  · rw [herror] at h
    cases h
  · rw [herror] at h
    cases h

end Matrix

namespace Recipe

theorem dims_build {r : Recipe} {A : Matrix} (h : r.build = .ok A) : A.shape.dims = r.dims := by
  induction r generalizing A with
  | zeros shape => exact Matrix.dims_zeros h
  | empty =>
    cases h
    rfl
  | scalar x =>
    cases h
    rfl
  | row values => exact Matrix.dims_ofRow h
  | ofArray shape values => exact Matrix.dims_ofArray h
  | ofRows rows => exact Matrix.dims_ofRows h
  | set r c x a ha =>
    obtain ⟨B, hB, h⟩ := Matrix.ok_of_bind h
    exact (Matrix.dims_set h).trans (ha hB)
  | map f a ha =>
    obtain ⟨B, hB, h⟩ := Matrix.ok_of_bind h
    cases h
    have hdims := ha hB
    exact hdims
  | transpose a ha =>
    obtain ⟨B, hB, h⟩ := Matrix.ok_of_bind h
    cases h
    exact congrArg Prod.swap (ha hB)
  | elementwise f a b ha hb =>
    obtain ⟨B, hB, h⟩ := Matrix.ok_of_bind h
    obtain ⟨C, hC, h⟩ := Matrix.ok_of_bind h
    exact (Matrix.dims_elementwise h).trans (ha hB)
  | broadcast f a b ha hb =>
    obtain ⟨B, hB, h⟩ := Matrix.ok_of_bind h
    obtain ⟨C, hC, h⟩ := Matrix.ok_of_bind h
    have hshape := Matrix.shape_of_map (Matrix.shape_broadcast f B C) h
    rw [Shape.dims_pointwise hshape, ha hB, hb hC, dims]
  | product a b ha hb =>
    obtain ⟨B, hB, h⟩ := Matrix.ok_of_bind h
    obtain ⟨C, hC, h⟩ := Matrix.ok_of_bind h
    have hshape := Matrix.shape_of_map (Matrix.shape_product B C) h
    rw [Shape.dims_product hshape, ha hB, hb hC, dims]
  | mtimes a b ha hb =>
    obtain ⟨B, hB, h⟩ := Matrix.ok_of_bind h
    obtain ⟨C, hC, h⟩ := Matrix.ok_of_bind h
    have hshape := Matrix.shape_of_map (Matrix.shape_mtimes B C) h
    rw [Shape.dims_mtimes hshape, ha hB, hb hC, dims]
  | select axis a i ha hi =>
    obtain ⟨B, hB, h⟩ := Matrix.ok_of_bind h
    obtain ⟨I, hI, h⟩ := Matrix.ok_of_bind h
    rw [Matrix.shape_of_select h]
    cases axis with
    | rows => rw [dims, ← ha hB, ← hi hI]; rfl
    | cols => rw [dims, ← ha hB, ← hi hI]; rfl

/-! ## What a recipe makes -/

/-- Every buffer that a recipe makes is filled and has the rows and columns that its steps say. -/
theorem fill_filled (r : Recipe) {b : Buffer} (h : r.fill = .ok b) :
    b.Filled ∧ (b.rows, b.cols) = r.dims ∧ r.build.map Matrix.buffer = .ok b := by
  have hbuild := r.fill_eq_map_build.symm.trans h
  cases hA : r.build with
  | error e =>
    rw [hA] at hbuild
    cases hbuild
  | ok A =>
    rw [hA] at hbuild
    cases hbuild
    exact ⟨A.filled_buffer, dims_build hA, rfl⟩

/-- The zeros come from the product, and neither operand has an element. -/
theorem fill_filled_transposedProduct :
    ∃ b, (transpose (product (zeros ⟨2, 0, by decide, by decide⟩)
        (zeros ⟨0, 3, by decide, by decide⟩))).fill = .ok b ∧
      b.Filled ∧ (b.rows, b.cols) = (3, 2) := by
  have hfill : (transpose (product (zeros ⟨2, 0, by decide, by decide⟩)
      (zeros ⟨0, 3, by decide, by decide⟩))).fill =
        .ok ⟨⟨3, 2, by decide, by decide⟩, Array.replicate 6 0.0⟩ := rfl
  obtain ⟨hfilled, hdims, -⟩ := fill_filled _ hfill
  exact ⟨_, hfill, hfilled, hdims⟩

end Recipe

end ModelScoring
