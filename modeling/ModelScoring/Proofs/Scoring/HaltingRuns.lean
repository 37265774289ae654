import ModelScoring.Proofs.Matrix.Halting
import ModelScoring.Proofs.Scoring.Calls
import ModelScoring.Proofs.Scoring.Places
import ModelScoring.Scoring.Loading

/-!
# Runs that halt

A run halts exactly if it gets to an instruction whose calculation halts.  Models that are read from
documents are no exception: a document can give a constant a shape with a great number of rows and
no columns, and the product of two such constants halts.
-/

namespace ModelScoring

/-- The calculation of an operation on operands.  There is none if an operand is missing. -/
def Operation.calculation? (op : Operation) (a : Matrix) (b : Option Matrix) :
    Option Calculation :=
  match op with
  | abs => some (.abs a)
  | log10 => some (.log10 a)
  | transpose => some (.transpose a)
  | plus => b.map (.broadcast .plus a)
  | minus => b.map (.broadcast .minus a)
  | times => b.map (.broadcast .times a)
  | rdivide => b.map (.broadcast .rdivide a)
  | power => b.map (.broadcast .power a)
  | mtimes => b.map (.mtimes a)
  | cols => b.map (.select .cols a)
  | rows => b.map (.select .rows a)

theorem Operation.apply?_eq (op : Operation) (a : Matrix) (b : Option Matrix) :
    op.apply? a b = (op.calculation? a b).map Calculation.run := by
  cases op with
  | abs | log10 | transpose => rfl
  | plus | minus | times | rdivide | power | mtimes | cols | rows =>
    cases b with
    | none => rfl
    | some b => rfl

namespace Instruction

/-- The calculation of an instruction in a workspace.  There is none if an operand has no value. -/
def calculation? (i : Instruction) (W : Workspace) : Option Calculation :=
  match i.operandValues W with
  | .error _ => none
  | .ok (a, b) => i.op.calculation? a b

theorem ofMatrixError_eq_halted_iff (step : String) (i : Instruction) (e : MatrixError) :
    ScoringError.ofMatrixError step i e = .halted ↔ e = .halted := by
  cases e <;> simp [ScoringError.ofMatrixError]

theorem evaluate_eq_halted_iff {i : Instruction} {step : String} {W : Workspace} :
    i.evaluate step W = .error .halted ↔ ∃ c, i.calculation? W = some c ∧ c.Halts := by
  unfold evaluate calculation?
  match i.operandValues W with
  | .error e => simp
  | .ok (a, b) =>
    dsimp only
    rw [Operation.apply?_eq]
    cases hc : i.op.calculation? a b with
    | none => simp
    | some c =>
      simp only [Option.map_some, Option.some.injEq, exists_eq_left']
      rw [← c.run_eq_halted_iff]
      cases c.run with
      | error e => simp [ofMatrixError_eq_halted_iff]
      | ok C => simp

end Instruction

/-- A run gets to a place whose calculation halts. -/
def GetsToHalting (m : OrderedModel) (input : Matrix) : Prop :=
  ∃ (p : Place m.model) (V : Workspace) (c : Calculation),
    p.Reached input V ∧ p.instruction.calculation? V = some c ∧ c.Halts

theorem runModel_eq_halted_iff {m : OrderedModel} {input : Matrix} :
    (runModel m input).failure = some .halted ↔ GetsToHalting m input := by
  constructor
  · intro h
    obtain ⟨p, hp, he⟩ := runModel_eq_error_iff.1 (Progress.eq_of_failure_eq h)
    obtain ⟨c, hc, hhalts⟩ := Instruction.evaluate_eq_halted_iff.1 he
    exact ⟨p, _, c, hp, hc, hhalts⟩
  · rintro ⟨p, V, c, hp, hc, hhalts⟩
    have he : p.evaluate V = .error .halted := Instruction.evaluate_eq_halted_iff.2 ⟨c, hc, hhalts⟩
    rw [runModel_eq_error_iff.2 ⟨p, hp, he⟩]

namespace Engine

/-- A calculation is what it is when each number on the way is checked.  It halts exactly if it is
one of those that `Calculation.Halts` tells, and it never says of its result that it is too large.
An engine halts exactly if it has an input row on which the run gets to such a calculation. -/
theorem calculation_and_apply_halt_iff (c : Calculation) (m : OrderedModel) (profiling : Bool)
    (cs : List Call) (clock : Clock) :
    c.checked = c.run ∧ (c.run = .error .halted ↔ c.Halts) ∧
      (∀ s, c.run ≠ .error (.shapeTooLarge s)) ∧
      (((after m profiling cs).apply clock).2 = some .halted ↔
        (after m profiling cs).input.rows ≠ 0 ∧ GetsToHalting m (after m profiling cs).input) := by
  refine ⟨c.checked_eq, c.run_eq_halted_iff, c.run_ne_shapeTooLarge, ?_⟩
  rw [(fromScratch_after m profiling cs).failure_apply clock]
  by_cases hrows : (after m profiling cs).input.rows = 0
  · rw [if_pos hrows]
    simp [hrows]
  · rw [if_neg hrows, runModel_eq_halted_iff]
    simp [hrows]

end Engine

/-! ## Operands without elements -/

/-- The product of a matrix without columns and one without rows, with as many rows and columns as
given. -/
def productOfEmpty (rows cols : Nat) (hrows : rows < sizeLimit) (hcols : cols < sizeLimit) :
    Except MatrixError Matrix := do
  let A ← Matrix.zeros ⟨rows, 0, hrows, sizeLimit_pos⟩
  let B ← Matrix.zeros ⟨0, cols, sizeLimit_pos, hcols⟩
  A.product B

/-- A document whose model multiplies two constants without elements. -/
def emptyFactorsDocument : String :=
  "<model><inputdata><size>1,1</size></inputdata>" ++
    "<information><modeltype>sample</modeltype></information>" ++
    "<step><sequence>1</sequence>" ++
    "<constants><a size=\"9223372036854775808,0\"/><b size=\"0,2\"/></constants>" ++
    "<script>y = mtimes(a, b)</script></step></model>"

/-- Whether an engine for the model of a document halts on the input of one value. -/
def haltsOn (document : String) (value : Float) : Bool :=
  match OrderedModel.read document with
  | .error _ => false
  | .ok m =>
    match ((Engine.after m true [.setInput (Matrix.scalar value)]).apply .still).2 with
    | some .halted => true
    | _ => false

/-- A product of `2 ^ 64` elements halts, though neither factor has an element, and so does an
engine for a document with such factors. -/
theorem product_of_empty_halts :
    productOfEmpty 9223372036854775808 2 (by decide) (by decide) = .error .halted ∧
      haltsOn emptyFactorsDocument 1.0 = true := by
  constructor
  · rfl
  · decide +kernel

end ModelScoring
