import ModelScoring.Proofs.Matrix.Refused
import ModelScoring.Proofs.Matrix.Slices
import ModelScoring.Proofs.Matrix.TransposedOperands

/-!
# Selecting from results

`Picked` says which offsets the numbers of a row pick, and `Selected` that a matrix is made of the
rows or columns of another at some offsets.  Both speak of the view alone: what stands at a place is
what is found at the offset of the place.  A selection has a result exactly if numbers are picked,
they reach far enough, and the result is selected at their offsets (`select_eq_ok_iff`).

So a selection from a result comes down to offsets.  To select twice is to select once, at the
offsets that are found `through` those of the first selection (`Selected.through_iff`).  Numbers that
are selected from others pick just these (`Picked.through`), although they are rounded only then and
held against another bound.  An element of a product is the sum of its own row and column, so the
rows of a product are selected with those of the left operand (`selected_product`).

`select_select` and `select_product` are the laws for all operands.  The offsets must be inside the
bound they were picked in, which they are where the bound is a float, and so up to `2 ^ 53`.
-/

namespace ModelScoring.Matrix

open Decimal

variable {A B C D I J K M R S : Matrix} {axis : Axis} {bound : Nat} {offsets others : List Nat}

/-! ## Views along an axis -/

/-- The element at a place of the row or column with an offset. -/
def along (axis : Axis) (A : Matrix) (offset place : Nat) : Option Float :=
  match axis with
  | .rows => A.get? offset place
  | .cols => A.get? place offset

theorem along_eq_none {k l : Nat} (h : ¬(k < axis.length A ∧ l < axis.other.length A)) :
    along axis A k l = none := by
  cases axis with
  | rows => exact get?_eq_none h
  | cols => exact get?_eq_none fun hin => h hin.symm

/-- Two matrices are equal if they have the same lengths and the same view along an axis. -/
theorem ext_along (hlength : axis.length A = axis.length B)
    (hother : axis.other.length A = axis.other.length B)
    (h : ∀ k l, along axis A k l = along axis B k l) : A = B := by
  cases axis with
  | rows => exact ext_get? (Shape.ext hlength hother) fun r c _ _ => h r c
  | cols => exact ext_get? (Shape.ext hother hlength) fun r c _ _ => h c r

/-! ## Offsets that are picked -/

/-- Each number of a row picks the offset at its place. -/
structure Picked (bound : Nat) (I : Matrix) (offsets : List Nat) : Prop where
  rows : I.rows = 1
  length : offsets.length = I.cols
  offset (j : Nat) : offsets[j]? = (I.get? 0 j).bind (pick? bound)

theorem get?_zero (h : I.rows = 1) (j : Nat) : I.get? 0 j = I.data.toList[j]? := by
  have hsize : I.data.size = I.cols := by
    rw [I.size_data, Shape.count]
    exact (congrArg (· * I.cols) h).trans (Nat.one_mul _)
  rw [get?, Nat.zero_mul, Nat.zero_add, Array.getElem?_toList]
  by_cases hj : j < I.cols
  · rw [if_pos ⟨by omega, hj⟩]
  · rw [if_neg fun hin => hj hin.2, Array.getElem?_eq_none (by omega)]

theorem picked_iff (axis : Axis) :
    Picked bound I offsets ↔ I.rows = 1 ∧ picks axis bound I.data.toList = .ok offsets := by
  constructor
  · intro h
    have hsize : I.data.toList.length = offsets.length := by
      rw [h.length, Array.length_toList, I.size_data]
      exact (congrArg (· * I.cols) h.rows).trans (Nat.one_mul _)
    refine ⟨h.rows, picks_eq_ok_iff.2 (List.forall₂_iff_get.2 ⟨hsize, fun j hj hj' => ?_⟩)⟩
    have hoffset := h.offset j
    rw [get?_zero h.rows, List.getElem?_eq_getElem hj, List.getElem?_eq_getElem hj'] at hoffset
    exact hoffset.symm
  · rintro ⟨hrow, hp⟩
    refine ⟨hrow, length_of_picks_row hrow hp, fun j => ?_⟩
    have hsize := length_of_picks hp
    rw [get?_zero hrow]
    by_cases hj : j < offsets.length
    · have hpick := (picks_eq_ok_iff.1 hp).get (hsize ▸ hj) hj
      rw [List.getElem?_eq_getElem hj, List.getElem?_eq_getElem (hsize ▸ hj)]
      exact hpick.symm
    · rw [List.getElem?_eq_none (Nat.not_lt.1 hj),
        List.getElem?_eq_none (hsize ▸ Nat.not_lt.1 hj)]
      rfl

theorem Picked.unique (h : Picked bound I offsets) (h' : Picked bound I others) :
    offsets = others :=
  List.ext_getElem? fun j => (h.offset j).trans (h'.offset j).symm

/-- Offsets that are picked in a bound that is not rounded up are inside it. -/
theorem Picked.lt (h : Picked bound I offsets) (hbound : bound ≤ twoTo 53) :
    ∀ offset ∈ offsets, offset < bound := by
  have hnearest : nearestFloatValue bound ≤ bound :=
    Nat.le_of_eq (nearestFloatValue_of_fewBits (fewBits_of_le hbound))
  obtain ⟨-, hpicks⟩ := (picked_iff .rows).1 h
  exact forall_of_picks (fun _ _ => lt_of_pick?_of_nearest_le hnearest) hpicks

/-! ## Matrices that are selected -/

/-- The rows or columns of a matrix are those of another at the offsets. -/
structure Selected (axis : Axis) (A : Matrix) (offsets : List Nat) (R : Matrix) : Prop where
  length : axis.length R = offsets.length
  other : axis.other.length R = axis.other.length A
  along (k l : Nat) : R.along axis k l = offsets[k]?.bind fun offset => A.along axis offset l

/-- It is enough to look at the places in range. -/
theorem selected_of_lt (hlength : axis.length R = offsets.length)
    (hother : axis.other.length R = axis.other.length A)
    (h : ∀ k (hk : k < offsets.length), ∀ l < axis.other.length A,
      R.along axis k l = A.along axis offsets[k] l) : Selected axis A offsets R := by
  refine ⟨hlength, hother, fun k l => ?_⟩
  by_cases hk : k < offsets.length
  · rw [List.getElem?_eq_getElem hk, Option.bind_some]
    by_cases hl : l < axis.other.length A
    · exact h k hk l hl
    · rw [along_eq_none fun hin => hl (hother ▸ hin.2), along_eq_none fun hin => hl hin.2]
  · rw [List.getElem?_eq_none (Nat.not_lt.1 hk), along_eq_none fun hin => hk (hlength ▸ hin.1)]
    rfl

theorem Selected.along_of_lt (h : Selected axis A offsets R) {k : Nat} (hk : k < offsets.length)
    (l : Nat) : R.along axis k l = A.along axis offsets[k] l := by
  rw [h.along, List.getElem?_eq_getElem hk, Option.bind_some]

theorem Selected.unique (h : Selected axis A offsets R) (h' : Selected axis A offsets S) :
    R = S :=
  ext_along (h.length.trans h'.length.symm) (h.other.trans h'.other.symm) fun k l =>
    (h.along k l).trans (h'.along k l).symm

theorem selected_of_select (hI : Picked (axis.length A) I offsets) (hR : A.Reaches axis offsets)
    (h : select axis A I = .ok R) : Selected axis A offsets R := by
  obtain ⟨hrow, hp⟩ := (picked_iff axis).1 hI
  cases axis with
  | rows =>
    rw [select_rows_of_reaches hrow hp hR] at h
    obtain ⟨hrows, hcols, -⟩ := parts_of_rowsAt h
    refine selected_of_lt (hrows.trans hI.length.symm) hcols fun k hk l hl => ?_
    obtain ⟨offset, hoffset, hget⟩ := get?_rowsAt h hk ⟨l, hl⟩
    exact hget.trans (hoffset ▸ (get?_eq_entry A offset ⟨l, hl⟩).symm)
  | cols =>
    rw [select_cols_of_reaches hrow hp hR] at h
    obtain ⟨hrows, hcols, -⟩ := parts_of_colsAt h
    refine selected_of_lt (hcols.trans hI.length.symm) hrows fun k hk l hl => ?_
    obtain ⟨offset, hoffset, hget⟩ := get?_colsAt hR h ⟨l, hl⟩ hk
    exact hget.trans (hoffset ▸ (get?_eq_entry A ⟨l, hl⟩ offset).symm)

/-- Numbers that are picked and reach far enough select something if its elements can be counted. -/
theorem exists_selected (hI : Picked (axis.length A) I offsets) (hR : A.Reaches axis offsets)
    (hcount : (Shape.selected axis A.shape I.shape).Countable) :
    ∃ R, select axis A I = .ok R ∧ Selected axis A offsets R := by
  obtain ⟨hrow, hp⟩ := (picked_iff axis).1 hI
  have hshape := shape_select_of_reaches hrow hp hR
  rw [Shape.select, if_pos hrow, if_pos hcount] at hshape
  cases h : select axis A I with
  | error e =>
    rw [h] at hshape
    cases hshape
  | ok R => exact ⟨R, rfl, selected_of_select hI hR h⟩

theorem Selected.shape_eq (hI : Picked bound I offsets) (hR : Selected axis A offsets R) :
    R.shape = Shape.selected axis A.shape I.shape := by
  cases axis with
  | rows => exact Shape.ext (hR.length.trans hI.length) hR.other
  | cols => exact Shape.ext hR.other (hR.length.trans hI.length)

/-- A selection has a result exactly if its numbers are picked and reach far enough, and the result
is what is selected at their offsets. -/
theorem select_eq_ok_iff :
    select axis A I = .ok R ↔ ∃ offsets, Picked (axis.length A) I offsets ∧
      A.Reaches axis offsets ∧ Selected axis A offsets R := by
  constructor
  · intro h
    obtain ⟨hrow, offsets, hp, hR⟩ := picks_of_select h
    have hI := (picked_iff axis).2 ⟨hrow, hp⟩
    exact ⟨offsets, hI, hR, selected_of_select hI hR h⟩
  · rintro ⟨offsets, hI, hR, hsel⟩
    obtain ⟨S, hS, hselS⟩ := exists_selected hI hR (hsel.shape_eq hI ▸ R.countable)
    rw [hS, hsel.unique hselS]

/-! ## Selecting twice -/

/-- The offsets that are found at others. -/
def through (offsets others : List Nat) : List Nat := others.map fun k => offsets.getD k 0

theorem getElem?_through (h : ∀ k ∈ others, k < offsets.length) (j : Nat) :
    (through offsets others)[j]? = others[j]?.bind (offsets[·]?) := by
  rw [through, List.getElem?_map]
  cases hj : others[j]? with
  | none => rfl
  | some k =>
    have hk := h k (List.mem_of_getElem? hj)
    simp [hk]

theorem mem_of_mem_through {offset : Nat} (h : ∀ k ∈ others, k < offsets.length)
    (hmem : offset ∈ through offsets others) : offset ∈ offsets := by
  obtain ⟨j, hj⟩ := List.mem_iff_getElem?.1 hmem
  rw [getElem?_through h, Option.bind_eq_some_iff] at hj
  obtain ⟨k, -, hk⟩ := hj
  exact List.mem_of_getElem? hk

/-- What is selected from a selection is selected at the offsets found through its offsets. -/
theorem Selected.through_iff (h : ∀ k ∈ others, k < offsets.length)
    (hM : Selected axis A offsets M) :
    Selected axis M others R ↔ Selected axis A (through offsets others) R := by
  have hlength : (through offsets others).length = others.length := List.length_map _
  have hview (k l : Nat) : (others[k]?.bind fun offset => M.along axis offset l) =
      (through offsets others)[k]?.bind fun offset => A.along axis offset l := by
    simp only [hM.along, getElem?_through h, Option.bind_assoc]
  constructor
  · intro hR
    exact ⟨hR.length.trans hlength.symm, hR.other.trans hM.other, fun k l =>
      (hR.along k l).trans (hview k l)⟩
  · intro hR
    exact ⟨hR.length.trans hlength, hR.other.trans hM.other.symm, fun k l =>
      (hR.along k l).trans (hview k l).symm⟩

/-- Numbers that are selected from a row pick the offsets found through those of the row. -/
theorem Picked.through (h : ∀ k ∈ others, k < offsets.length) (hI : Picked bound I offsets)
    (hK : Selected .cols I others K) : Picked bound K (through offsets others) := by
  refine ⟨hK.other.trans hI.rows, (List.length_map _).trans hK.length.symm, fun j => ?_⟩
  have hview : K.get? 0 j = others[j]?.bind fun k => I.get? 0 k := hK.along j 0
  simp only [getElem?_through h, hview, Option.bind_assoc, hI.offset]

/-- Selecting twice is selecting once, by the numbers that the second selection takes from those of
the first. -/
theorem select_select (axis : Axis) (A I J : Matrix) {M : Matrix} (hI : I.cols ≤ twoTo 53)
    (hM : select axis A I = .ok M) (R : Matrix) :
    select axis M J = .ok R ↔ ∃ K, select .cols I J = .ok K ∧ select axis A K = .ok R := by
  obtain ⟨offsets, hpicked, hreach, hsel⟩ := select_eq_ok_iff.1 hM
  have hbound : axis.length M = I.cols := hsel.length.trans hpicked.length
  have hlt {others : List Nat} (hJ : Picked I.cols J others) : ∀ k ∈ others, k < offsets.length :=
    hpicked.length ▸ hJ.lt hI
  constructor
  · intro hR
    obtain ⟨others, hJ, -, hselR⟩ := select_eq_ok_iff.1 hR
    rw [hbound] at hJ
    have hcount : I.rows * J.cols < sizeLimit := by
      rw [hpicked.rows, Nat.one_mul]
      exact J.cols_lt
    obtain ⟨K, hK, hselK⟩ : ∃ K, select .cols I J = .ok K ∧ Selected .cols I others K :=
      exists_selected hJ (.inr (hJ.lt hI)) hcount
    refine ⟨K, hK, select_eq_ok_iff.2 ⟨through offsets others, ?_, ?_, ?_⟩⟩
    · exact hpicked.through (hlt hJ) hselK
    · exact hreach.imp id fun hall k hk => hall k (mem_of_mem_through (hlt hJ) hk)
    · exact (hsel.through_iff (hlt hJ)).1 hselR
  · rintro ⟨K, hK, hR⟩
    obtain ⟨others, hJ, -, hselK⟩ := select_eq_ok_iff.1 hK
    obtain ⟨found, hfound, -, hselR⟩ := select_eq_ok_iff.1 hR
    obtain rfl : found = through offsets others :=
      hfound.unique (hpicked.through (hlt hJ) hselK)
    refine select_eq_ok_iff.2 ⟨others, hbound ▸ hJ, .inr (hbound ▸ hJ.lt hI), ?_⟩
    exact (hsel.through_iff (hlt hJ)).2 hselR

/-- Two calculations, one after the other, have results if the elements of the last are known. -/
theorem exists_of_bind_data {x : Except MatrixError Matrix}
    {f : Matrix → Except MatrixError Matrix} {data : Array Float}
    (h : (x >>= f).toOption.map Matrix.data = some data) :
    ∃ M R, x = .ok M ∧ f M = .ok R ∧ R.data = data := by
  cases x with
  | error e => cases h
  | ok M =>
    rw [Checked.ok_bind] at h
    cases hR : f M with
    | error e =>
      rw [hR] at h
      cases h
    | ok R =>
      rw [hR] at h
      exact ⟨M, R, rfl, hR, Option.some.inj h⟩

/-- Numbers that select the first and the second of two or more. -/
def alternating : Matrix :=
  ⟨⟨1, 3, Shape.scalar.rows_lt, three_lt_sizeLimit⟩, #[2.0, 1.25, 2.0], rfl, three_lt_sizeLimit⟩

/-- The columns three, one and three are selected first, and of these the second, the first and the
second. -/
theorem select_select_unordered :
    unordered.cols ≤ twoTo 53 ∧ ∃ M R K, select .cols sixValues unordered = .ok M ∧
      select .cols M alternating = .ok R ∧ R.data = #[1.0, 3.0, 1.0, 4.0, 6.0, 4.0] ∧
      select .cols unordered alternating = .ok K ∧ select .cols sixValues K = .ok R := by
  have hcols : unordered.cols ≤ twoTo 53 := by decide +kernel
  have hdata : (select .cols sixValues unordered >>= fun M =>
      select .cols M alternating).toOption.map Matrix.data =
        some #[1.0, 3.0, 1.0, 4.0, 6.0, 4.0] := by decide +kernel
  obtain ⟨M, R, hM, hR, hRdata⟩ := exists_of_bind_data hdata
  obtain ⟨K, hK, hKR⟩ := (select_select .cols sixValues unordered alternating hcols hM R).1 hR
  exact ⟨hcols, M, R, K, hM, hR, hRdata, hK, hKR⟩

/-! ## Selecting from a product -/

/-- The rows of a product are selected with those of the left operand. -/
theorem selected_product (h : ∀ offset ∈ offsets, offset < A.rows)
    (hR : Selected .rows A offsets R) (hC : product A B = .ok C) (hD : product R B = .ok D) :
    Selected .rows C offsets D := by
  obtain ⟨hinner, -, hCcols, hCget⟩ := product_eq_ok_iff.1 hC
  obtain ⟨hinner', hDrows, hDcols, hDget⟩ := product_eq_ok_iff.1 hD
  refine selected_of_lt (hDrows.trans hR.length) (hDcols.trans hCcols.symm) fun k hk l hl => ?_
  let row : Fin R.rows := ⟨k, Nat.lt_of_lt_of_eq hk hR.length.symm⟩
  let source : Fin A.rows := ⟨offsets[k], h _ (List.getElem_mem hk)⟩
  let col : Fin B.cols := ⟨l, hCcols ▸ hl⟩
  have hdot : dot R B hinner' row col = dot A B hinner source col := by
    refine dot_congr hR.other fun p => ?_
    have hentry : R.entry row p = A.entry source (p.cast hR.other) :=
      entry_eq_of_get? (hR.along_of_lt hk p)
    rw [hentry]
    rfl
  calc D.get? k l = some (dot R B hinner' row col) := hDget row col
    _ = some (dot A B hinner source col) := congrArg some hdot
    _ = C.get? offsets[k] l := (hCget source col).symm

theorem select_rows_product (hA : A.rows ≤ twoTo 53) (hC : product A B = .ok C)
    (hR : select .rows A I = .ok R) :
    select .rows C I = .ok S ↔ product R B = .ok S := by
  obtain ⟨hinner, hrows, hcols, -⟩ := product_eq_ok_iff.1 hC
  obtain ⟨offsets, hI, -, hsel⟩ := select_eq_ok_iff.1 hR
  have hlt : ∀ offset ∈ offsets, offset < A.rows := hI.lt hA
  have hbound : Axis.rows.length C = A.rows := hrows
  constructor
  · intro hS
    obtain ⟨others, hI', -, hselS⟩ := select_eq_ok_iff.1 hS
    rw [hbound] at hI'
    obtain rfl : others = offsets := hI'.unique hI
    -- the selection has as many elements as the product would have, so they can be counted
    have hcount : R.rows * B.cols < sizeLimit := by
      have hRrows : R.rows = S.rows := hsel.length.trans hselS.length.symm
      have hBcols : B.cols = S.cols := hcols.symm.trans hselS.other.symm
      rw [hRrows, hBcols]
      exact S.countable
    obtain ⟨D, hD, -⟩ := exists_product (hsel.other.trans hinner) hcount
    rw [hD, (selected_product hlt hsel hC hD).unique hselS]
  · intro hS
    refine select_eq_ok_iff.2 ⟨offsets, hbound.symm ▸ hI, .inr (hbound.symm ▸ hlt), ?_⟩
    exact selected_product hlt hsel hC hS

/-- The columns of a product are the rows of the transposed product. -/
theorem select_cols_product (hB : B.cols ≤ twoTo 53) (hC : product A B = .ok C)
    (hR : select .cols B I = .ok R) :
    select .cols C I = .ok S ↔ product A R = .ok S :=
  calc select .cols C I = .ok S
    _ ↔ select .rows C.transpose I = .ok S.transpose := (transposes_select .cols C I).ok_iff.symm
    _ ↔ product R.transpose A.transpose = .ok S.transpose :=
      select_rows_product hB ((transposes_product A B).ok_transpose hC)
        ((transposes_select .cols B I).ok_transpose hR)
    _ ↔ product A R = .ok S := (transposes_product A R).ok_iff

/-- Rows are selected from a product with the same result as from its left operand before it is
multiplied, and columns with the same result as from its right operand. -/
theorem select_product (A B I : Matrix) {C : Matrix} (hC : product A B = .ok C) :
    (∀ R, A.rows ≤ twoTo 53 → select .rows A I = .ok R →
      ∀ S, select .rows C I = .ok S ↔ product R B = .ok S) ∧
    ∀ R, B.cols ≤ twoTo 53 → select .cols B I = .ok R →
      ∀ S, select .cols C I = .ok S ↔ product A R = .ok S :=
  ⟨fun _ hA hR _ => select_rows_product hA hC hR, fun _ hB hR _ => select_cols_product hB hC hR⟩

/-- The product of a matrix and its transpose, the rows of which are like its columns. -/
theorem select_product_alternating :
    ∃ C R S, product sixValues sixValues.transpose = .ok C ∧
      (select .rows sixValues alternating = .ok R ∧ product R sixValues.transpose = .ok S ∧
        select .rows C alternating = .ok S) ∧
      (select .cols sixValues.transpose alternating = .ok R.transpose ∧
        product sixValues R.transpose = .ok S.transpose ∧
        select .cols C alternating = .ok S.transpose) ∧
      S.data = #[32.0, 77.0, 14.0, 32.0, 32.0, 77.0] := by
  have hrows : sixValues.rows ≤ twoTo 53 := by decide +kernel
  have hdata : (select .rows sixValues alternating >>= fun R =>
      product R sixValues.transpose).toOption.map Matrix.data =
        some #[32.0, 77.0, 14.0, 32.0, 32.0, 77.0] := by decide +kernel
  obtain ⟨C, hC, -⟩ := exists_product (A := sixValues) (B := sixValues.transpose) rfl (by decide)
  obtain ⟨R, S, hR, hS, hSdata⟩ := exists_of_bind_data hdata
  have hRt := (transposes_select .rows sixValues alternating).ok_transpose hR
  have hSt : product sixValues R.transpose = .ok S.transpose := by
    simpa using (transposes_product R sixValues.transpose).ok_transpose hS
  obtain ⟨hleft, hright⟩ := select_product sixValues sixValues.transpose alternating hC
  exact ⟨C, R, S, hC, ⟨hR, hS, (hleft R hrows hR S).2 hS⟩,
    ⟨hRt, hSt, (hright R.transpose hrows hRt S.transpose).2 hSt⟩, hSdata⟩

end ModelScoring.Matrix
