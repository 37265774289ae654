import ModelScoring.Proofs.Matrix.Buffer
import ModelScoring.Proofs.Matrix.Slices

/-!
# Positions

The element at a position stands in the array at the offset of the position.  Where the position is
in range, the offset is inside the array, and so is a size, with all that is calculated on the way.
Every place in the array is the offset of one position in range (`lt_size_iff_existsUnique`).  A
column that is too great can have an offset inside the array as well, one of the next row, so rows
and columns are what is checked.

`Buffer.write` overwrites an element where it stands.  A buffer without such an element is left as
it is, and otherwise the buffer becomes that of the matrix that `Matrix.set` makes
(`run_write_buffer`).  `get_set_within` says of every position what is got and what is set there.
-/

namespace ModelScoring

namespace Buffer

/-- Overwrites the element at a position.  The offset is worked out before anything is changed. -/
def write (r c : Nat) (x : Float) : EStateM MatrixError Buffer Unit := do
  let b ← MonadState.get
  let k ← MonadExcept.ofExcept (b.offset r c)
  let _ ← MonadExcept.ofExcept (Checked.element b.data k)
  MonadState.set (Buffer.mk b.shape (b.data.setIfInBounds k x))

theorem run_ofExcept_bind {α β : Type} (y : Except MatrixError α)
    (f : α → EStateM MatrixError Buffer β) (b : Buffer) :
    (MonadExcept.ofExcept y >>= f).run b =
      match y with
      | .ok a => (f a).run b
      | .error e => .error e b := by
  cases y <;> rfl

/-- Writing in place does to a buffer what setting makes of it. -/
theorem run_write (b : Buffer) (r c : Nat) (x : Float) :
    (write r c x).run b =
      match b.set r c x with
      | .ok b' => .ok () b'
      | .error e => .error e b := by
  have hstart : (write r c x).run b =
      (MonadExcept.ofExcept (b.offset r c) >>= fun k =>
        MonadExcept.ofExcept (Checked.element b.data k) >>= fun _ =>
          (MonadState.set (Buffer.mk b.shape (b.data.setIfInBounds k x)) :
            EStateM MatrixError Buffer Unit)).run b := rfl
  rw [hstart, run_ofExcept_bind, set]
  cases b.offset r c with
  | error e => rfl
  | ok k =>
    rw [Checked.ok_bind]
    dsimp only
    rw [run_ofExcept_bind]
    cases Checked.element b.data k <;> rfl

end Buffer

namespace Matrix

variable {A B : Matrix} {r c : Nat} {x : Float}

/-- The matrix has the row and the column. -/
def Within (A : Matrix) (r c : Nat) : Prop := r < A.rows ∧ c < A.cols

instance (A : Matrix) (r c : Nat) : Decidable (A.Within r c) :=
  inferInstanceAs (Decidable (_ ∧ _))

/-! ## Offsets -/

theorem offset_lt_size (h : A.Within r c) : r * A.cols + c < A.data.size :=
  A.size_data ▸ offset_lt h.1 h.2

/-- The places in the array are the offsets of the positions in range, one each. -/
theorem lt_size_iff_existsUnique (A : Matrix) (k : Nat) :
    k < A.data.size ↔ ∃! p : Nat × Nat, A.Within p.1 p.2 ∧ p.1 * A.cols + p.2 = k := by
  constructor
  · intro hk
    have hin : A.Within (k / A.cols) (k % A.cols) := div_mod_lt (Nat.lt_of_lt_of_eq hk A.size_data)
    refine ⟨(k / A.cols, k % A.cols), ⟨hin, Nat.div_add_mod' k A.cols⟩, ?_⟩
    rintro ⟨r, c⟩ ⟨hrc, rfl⟩
    obtain ⟨hdiv, hmod⟩ := offset_div_mod r hrc.2
    rw [hdiv, hmod]
  · rintro ⟨p, ⟨hin, rfl⟩, -⟩
    exact offset_lt_size hin

/-! ## Elements that are got and set -/

theorem get_of_not_within (h : ¬A.Within r c) :
    A.get r c = .error (.indexOutOfRange r c A.shape) := by
  rw [get, get?_eq_none h]

theorem exists_get_iff : (∃ y, A.get r c = .ok y) ↔ A.Within r c := by
  constructor
  · rintro ⟨y, hy⟩
    by_contra h
    rw [get_of_not_within h] at hy
    cases hy
  · rintro ⟨hr, hc⟩
    exact ⟨A.entry ⟨r, hr⟩ ⟨c, hc⟩, get_eq_ok_iff.2 (get?_eq_entry A ⟨r, hr⟩ ⟨c, hc⟩)⟩

theorem set_of_not_within (h : ¬A.Within r c) :
    A.set r c x = .error (.indexOutOfRange r c A.shape) := if_neg h

theorem exists_set_iff : (∃ B, A.set r c x = .ok B) ↔ A.Within r c := by
  constructor
  · rintro ⟨B, hB⟩
    by_contra h
    rw [set_of_not_within h] at hB
    cases hB
  · intro h
    exact ⟨_, if_pos h⟩

/-- The element at one position is a given value, and nothing else is different. -/
structure Overwritten (A : Matrix) (r c : Nat) (x : Float) (B : Matrix) : Prop where
  shape : B.shape = A.shape
  here : B.get r c = .ok x
  elsewhere (r' c' : Nat) : (r', c') ≠ (r, c) → B.get r' c' = A.get r' c'

theorem overwritten_of_set (h : A.set r c x = .ok B) : A.Overwritten r c x B := by
  refine ⟨shape_of_set h, ?_, fun r' c' hne => ?_⟩
  · rw [get_eq_ok_iff, get?_set h, if_pos ⟨rfl, rfl⟩]
  · have hview : B.get? r' c' = A.get? r' c' := by
      rw [get?_set h, if_neg fun heq => hne (Prod.ext heq.1 heq.2)]
    rw [get, get, hview, shape_of_set h]

theorem run_write_buffer (A : Matrix) (r c : Nat) (x : Float) :
    (Buffer.write r c x).run A.buffer =
      match A.set r c x with
      | .ok B => .ok () B.buffer
      | .error e => .error e A.buffer := by
  rw [Buffer.run_write, buffer_set]
  cases A.set r c x <;> rfl

/-- There is an element to get or to set exactly at the positions in range.  The offset of such a
position is worked out without leaving the range of sizes and is inside the array, and no other
position in range has it.  What is set there is got there, and every other position keeps its
element.  Where the position is out of range, it is reported with the shape, and nothing is
changed. -/
theorem get_set_within (A : Matrix) (r c : Nat) (x : Float) :
    A.buffer.get r c = A.get r c ∧
    ((∃ y, A.get r c = .ok y) ↔ A.Within r c) ∧
    ((∃ B, A.set r c x = .ok B) ↔ A.Within r c) ∧
    (¬A.Within r c → A.get r c = .error (.indexOutOfRange r c A.shape) ∧
      A.set r c x = .error (.indexOutOfRange r c A.shape) ∧
      (Buffer.write r c x).run A.buffer = .error (.indexOutOfRange r c A.shape) A.buffer) ∧
    (A.Within r c → A.buffer.offset r c = .ok (r * A.cols + c) ∧
      r * A.cols + c < A.data.size ∧ A.data.size < sizeLimit) ∧
    (∀ k, k < A.data.size ↔ ∃! p : Nat × Nat, A.Within p.1 p.2 ∧ p.1 * A.cols + p.2 = k) ∧
    ∀ B, A.set r c x = .ok B →
      (Buffer.write r c x).run A.buffer = .ok () B.buffer ∧ A.Overwritten r c x B := by
  refine ⟨buffer_get A r c, exists_get_iff, exists_set_iff, fun h => ?_, fun h => ?_,
    lt_size_iff_existsUnique A, fun B hB => ?_⟩
  · refine ⟨get_of_not_within h, set_of_not_within h, ?_⟩
    rw [run_write_buffer, set_of_not_within h]
  · exact ⟨buffer_offset A h.1 h.2, offset_lt_size h, A.size_data ▸ A.countable⟩
  · refine ⟨?_, overwritten_of_set hB⟩
    rw [run_write_buffer, hB]

/-- The offset of the first row and the fourth column is that of the second row and the first
column, but there are three columns. -/
theorem get_set_within_wrapping :
    ¬sixValues.Within 0 3 ∧ sixValues.Within 1 0 ∧ sixValues.buffer.offset 1 0 = .ok (0 * 3 + 3) ∧
      sixValues.get 0 3 = .error (.indexOutOfRange 0 3 sixValues.shape) ∧
      (Buffer.write 0 3 7.5).run sixValues.buffer =
        .error (.indexOutOfRange 0 3 sixValues.shape) sixValues.buffer ∧
      ∃ B, sixValues.set 1 0 7.5 = .ok B ∧ B.get 1 0 = .ok 7.5 ∧
        B.get 0 2 = sixValues.get 0 2 := by
  have hout : ¬sixValues.Within 0 3 := by decide
  have hin : sixValues.Within 1 0 := by decide
  obtain ⟨-, -, -, hrefused, -⟩ := get_set_within sixValues 0 3 7.5
  obtain ⟨-, -, hset, -, hoffset, -, hoverwritten⟩ := get_set_within sixValues 1 0 7.5
  obtain ⟨B, hB⟩ := hset.2 hin
  obtain ⟨-, hover⟩ := hoverwritten B hB
  obtain ⟨hget, -, hwrite⟩ := hrefused hout
  exact ⟨hout, hin, (hoffset hin).1, hget, hwrite, B, hB, hover.here,
    hover.elsewhere 0 2 (by decide)⟩

end Matrix

end ModelScoring
