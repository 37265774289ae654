import ModelScoring.Proofs.Decimal.Nearest
import ModelScoring.Proofs.Matrix.ResultShape

/-!
# Numbers that are refused

A number *addresses* a row or column if it is finite and rounds to a whole number from one to the
bound.  Every such number passes.  Of the others those pass that round to the float next to the
bound, where this float is greater than the bound (`Overshoots`).  `isSome_pick?_iff` says that these
are all.

The refusal is of the first number that does not pass (`picks_eq_error_iff`), so
`select_refuses_first` says when a selection refuses a number, and which.  Where the float next to
the bound is not greater, which is so up to `2 ^ 53`, it is the first that addresses nothing.
`select_overshooting` is a selection by a number that addresses nothing.
-/

namespace ModelScoring

namespace Matrix

open Decimal

/-- The number is finite and rounds to a whole number from one to the bound. -/
def Addresses (bound : Nat) (value : Float) : Prop :=
  ∃ q, (Binary64.ofFloat value).value? = some q ∧ 1 ≤ halfAway q ∧ halfAway q ≤ bound

/-- The float next to the bound is greater than the bound, and the number rounds to it. -/
def Overshoots (bound : Nat) (value : Float) : Prop :=
  bound < nearestFloatValue bound ∧
    ∃ q, (Binary64.ofFloat value).value? = some q ∧ halfAway q = nearestFloatValue bound

def Passes (bound : Nat) (value : Float) : Prop := Addresses bound value ∨ Overshoots bound value

/-- The first of the values that does not pass. -/
def FirstRefused (bound : Nat) (values : List Float) (value : Float) : Prop :=
  ∃ before after, values = before ++ value :: after ∧ (∀ earlier ∈ before, Passes bound earlier) ∧
    ¬Passes bound value

variable {axis : Axis} {bound : Nat} {value : Float} {values : List Float}

/-! ## One number -/

theorem isSome_pick?_iff_toInt? :
    (pick? bound value).isSome ↔
      ∃ n, (Binary64.ofFloat value).toInt? = some n ∧ 1 ≤ n ∧ n ≤ nearestFloatValue bound := by
  unfold pick?
  cases (Binary64.ofFloat value).toInt? with
  | none => simp
  | some n => by_cases h : 1 ≤ n ∧ n ≤ (nearestFloatValue bound : Int) <;> simp [h]

/-- A whole number next to a float is at most the float next to the bound if it is at most the
bound, or if it is that very float. -/
theorem le_nearestFloatValue_iff_of_toInt? {n : Int}
    (hn : (Binary64.ofFloat value).toInt? = some n) (hpos : 1 ≤ n) :
    n ≤ nearestFloatValue bound ↔
      n ≤ bound ∨ bound < nearestFloatValue bound ∧ n = nearestFloatValue bound := by
  obtain ⟨v, rfl⟩ := Int.eq_ofNat_of_zero_le (Int.le_of_lt hpos)
  have hfew : FewBits v := fewBits_of_toInt? hn
  have hiff := le_nearestFloatValue_iff (n := bound) hfew
  simp only [Int.ofNat_le, Int.natCast_inj] at *
  omega

/-- The numbers that pick an offset are those that pass. -/
theorem isSome_pick?_iff : (pick? bound value).isSome ↔ Passes bound value := by
  rw [isSome_pick?_iff_toInt?]
  constructor
  · rintro ⟨n, hn, hpos, hle⟩
    obtain ⟨q, hq, rfl⟩ := Option.map_eq_some_iff.1 ((Binary64.toInt?_eq _).symm.trans hn)
    rcases (le_nearestFloatValue_iff_of_toInt? hn hpos).1 hle with hin | ⟨hup, heq⟩
    · exact .inl ⟨q, hq, hpos, hin⟩
    · exact .inr ⟨hup, q, hq, heq⟩
  · have hround {q : ℚ} (hq : (Binary64.ofFloat value).value? = some q) :
        (Binary64.ofFloat value).toInt? = some (halfAway q) := by
      rw [Binary64.toInt?_eq, hq, Option.map_some]
    rintro (⟨q, hq, hpos, hin⟩ | ⟨hup, q, hq, heq⟩)
    · exact ⟨halfAway q, hround hq, hpos,
        (le_nearestFloatValue_iff_of_toInt? (hround hq) hpos).2 (.inl hin)⟩
    · exact ⟨halfAway q, hround hq, by omega, by omega⟩

theorem pick?_eq_none_iff : pick? bound value = none ↔ ¬Passes bound value := by
  rw [← isSome_pick?_iff, Bool.not_eq_true, Option.isSome_eq_false_iff, Option.isNone_iff_eq_none]

/-- Nothing overshoots a bound that is not rounded up. -/
theorem passes_iff_addresses (h : bound ≤ twoTo 53 ∨ nearestFloatValue bound ≤ bound) :
    Passes bound value ↔ Addresses bound value := by
  have hdown : nearestFloatValue bound ≤ bound :=
    h.elim (fun hle => Nat.le_of_eq (nearestFloatValue_of_fewBits (fewBits_of_le hle))) id
  exact or_iff_left fun hover => Nat.not_lt.2 hdown hover.1

/-! ## All numbers -/

theorem firstRefused_cons_iff {refused : Float} :
    FirstRefused bound (value :: values) refused ↔
      ¬Passes bound value ∧ refused = value ∨
        Passes bound value ∧ FirstRefused bound values refused := by
  constructor
  · rintro ⟨before, after, heq, hbefore, hrefused⟩
    cases before with
    | nil =>
      cases heq
      exact .inl ⟨hrefused, rfl⟩
    | cons earlier before =>
      cases heq
      obtain ⟨hvalue, hrest⟩ := List.forall_mem_cons.1 hbefore
      exact .inr ⟨hvalue, before, after, rfl, hrest, hrefused⟩
  · rintro (⟨hvalue, rfl⟩ | ⟨hvalue, before, after, rfl, hbefore, hrefused⟩)
    · exact ⟨[], values, rfl, List.forall_mem_nil _, hvalue⟩
    · exact ⟨value :: before, after, rfl, List.forall_mem_cons.2 ⟨hvalue, hbefore⟩, hrefused⟩

theorem exists_firstRefused_iff :
    (∃ refused, FirstRefused bound values refused) ↔ ∃ value ∈ values, ¬Passes bound value := by
  induction values with
  | nil => simp [FirstRefused]
  | cons value values ih =>
    simp only [firstRefused_cons_iff, List.exists_mem_cons_iff, ← ih]
    by_cases h : Passes bound value <;> simp [h]

/-- The refusal is of the first number that does not pass. -/
theorem picks_eq_error_iff {e : MatrixError} :
    picks axis bound values = .error e ↔
      ∃ refused, FirstRefused bound values refused ∧ e = .invalidIndex axis refused bound := by
  induction values with
  | nil => simp [picks, FirstRefused]
  | cons value values ih =>
    rw [picks_cons_eq_error_iff, pick?_eq_none_iff, isSome_pick?_iff, ih]
    simp only [firstRefused_cons_iff, or_and_right, exists_or, and_assoc, exists_and_left,
      exists_eq_left]

/-! ## Selections -/

/-- A selection by numbers that all pick an offset refuses none of them. -/
theorem select_ne_invalidIndex {A I : Matrix} {offsets : List Nat} (h : I.rows = 1)
    (hp : picks axis (axis.length A) I.data.toList = .ok offsets) (axis' : Axis) (refused : Float)
    (bound : Nat) : select axis A I ≠ .error (.invalidIndex axis' refused bound) := by
  intro hselect
  by_cases hr : A.Reaches axis offsets
  · have hshape := shape_select_of_reaches h hp hr
    rw [hselect, Shape.select, if_pos h] at hshape
    split at hshape <;> cases hshape
  · rw [select_of_not_reaches h hp hr] at hselect
    cases hselect

theorem select_eq_invalidIndex_iff {A I : Matrix} (h : I.rows = 1) (axis' : Axis) (refused : Float)
    (bound : Nat) :
    select axis A I = .error (.invalidIndex axis' refused bound) ↔
      axis' = axis ∧ bound = axis.length A ∧
        FirstRefused (axis.length A) I.data.toList refused := by
  cases hp : picks axis (axis.length A) I.data.toList with
  | error e =>
    rw [select_of_picks_error h hp]
    obtain ⟨first, hfirst, rfl⟩ := picks_eq_error_iff.1 hp
    constructor
    · intro heq
      cases heq
      exact ⟨rfl, rfl, hfirst⟩
    · rintro ⟨rfl, rfl, hrefused⟩
      cases hp.symm.trans (picks_eq_error_iff.2 ⟨refused, hrefused, rfl⟩)
      rfl
  | ok offsets =>
    refine iff_of_false (select_ne_invalidIndex h hp axis' refused bound) ?_
    rintro ⟨rfl, rfl, hrefused⟩
    rw [picks_eq_error_iff.2 ⟨refused, hrefused, rfl⟩] at hp
    cases hp

/-- A selection by anything but a row has the wrong shape.  A selection by a row refuses the first
number that does not pass, and refuses nothing if all pass.  If the bound is not rounded up to a
float, which it never is up to `2 ^ 53`, the numbers that pass are those that address a row or
column. -/
theorem select_refuses_first (axis : Axis) (A I : Matrix) :
    (I.rows ≠ 1 →
      select axis A I = .error (.incompatibleDimensions axis.operation A.shape I.shape)) ∧
    (I.rows = 1 →
      (∀ axis' refused bound, select axis A I = .error (.invalidIndex axis' refused bound) ↔
        axis' = axis ∧ bound = axis.length A ∧
          FirstRefused (axis.length A) I.data.toList refused) ∧
      ((∃ axis' refused bound, select axis A I = .error (.invalidIndex axis' refused bound)) ↔
        ∃ value ∈ I.data.toList, ¬Passes (axis.length A) value)) ∧
    (axis.length A ≤ twoTo 53 ∨ nearestFloatValue (axis.length A) ≤ axis.length A →
      ∀ value, Passes (axis.length A) value ↔ Addresses (axis.length A) value) := by
  refine ⟨select_of_rows_ne, fun h => ⟨select_eq_invalidIndex_iff h, ?_⟩,
    fun h value => passes_iff_addresses h⟩
  rw [← exists_firstRefused_iff]
  constructor
  · rintro ⟨axis', refused, bound, hselect⟩
    obtain ⟨-, -, hfirst⟩ := (select_eq_invalidIndex_iff h axis' refused bound).1 hselect
    exact ⟨refused, hfirst⟩
  · rintro ⟨refused, hfirst⟩
    exact ⟨axis, refused, axis.length A,
      (select_eq_invalidIndex_iff h axis refused (axis.length A)).2 ⟨rfl, rfl, hfirst⟩⟩

/-! ## A number past a wide matrix -/

/-- The matrix without rows that has as many columns as given. -/
def noRows (cols : Nat) (h : cols < sizeLimit) : Matrix where
  shape := ⟨0, cols, sizeLimit_pos, h⟩
  data := #[]
  size_data := (Nat.zero_mul cols).symm
  countable := Nat.lt_of_le_of_lt (Nat.le_of_eq (Nat.zero_mul cols)) sizeLimit_pos

/-- A matrix of `2 ^ 53 + 3` columns and no rows has a selection by `2 ^ 53 + 4`, which addresses
none of its columns. -/
theorem select_overshooting :
    (select .cols (noRows 9007199254740995 (by decide)) (scalar 9007199254740996.0)).isOk = true ∧
      ¬Addresses 9007199254740995 9007199254740996.0 := by
  refine ⟨by decide +kernel, ?_⟩
  rintro ⟨q, hq, -, hin⟩
  have hn : (Binary64.ofFloat 9007199254740996.0).toInt? = some 9007199254740996 := by
    decide +kernel
  rw [Binary64.toInt?_eq, hq, Option.map_some, Option.some.injEq] at hn
  rw [hn] at hin
  exact absurd hin (by decide)

end Matrix

end ModelScoring
