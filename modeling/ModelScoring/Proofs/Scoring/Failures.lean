import ModelScoring.Proofs.Model.Described
import ModelScoring.Proofs.Scoring.HaltingRuns

/-!
# Failures of models that were read

A model that was read from a document has, with each operation, the operands that it takes.  So no
run of it misses one.  A run may find that a variable is not set, that shapes do not fit or that
there is no row or column with some number, and there may be no input row.  These are the failures
that are *declared*.  An engine for such a model has no others, whatever calls it has had, but that
it may halt.

Each operation fills an array as the shape of its result says.  `Calculation.foreseen_checked` says
so of the operations worked out number by number, where the array is checked at the end.
-/

namespace ModelScoring

def MatrixError.Declared : MatrixError → Prop
  | incompatibleDimensions .. | invalidIndex .. | shapeTooLarge _ => True
  | indexOutOfRange .. | bufferSizeMismatch .. | halted => False

def ScoringError.Declared : ScoringError → Prop
  | inputMissing | notSet _ => True
  | execution _ _ reason => reason.Declared
  | tooManyRows _ | columnMismatch .. | notApplied | missingOperand _ | halted => False

/-! ## Instructions -/

/-- An operation that has the operands it takes has a calculation. -/
theorem Operation.exists_calculation {op : Operation} {a : Matrix} {b : Option Matrix}
    (h : b.toList.length + 1 = op.arity) : ∃ c, op.calculation? a b = some c := by
  cases op with
  | abs | log10 | transpose => exact ⟨_, rfl⟩
  | plus | minus | times | rdivide | power | mtimes | cols | rows =>
    cases b with
    | none => cases h
    | some b => exact ⟨_, rfl⟩

theorem Instruction.length_of_operandValues {i : Instruction} {W : Workspace} {a : Matrix}
    {b : Option Matrix} (h : i.operandValues W = .ok (a, b)) :
    b.toList.length + 1 = i.operands.length := by
  rcases i.operandValues_cases W with ⟨e, -, h'⟩ | ⟨A, -, harg, h'⟩ | ⟨A, name, e, -, -, -, h'⟩ |
    ⟨A, name, B, -, harg, -, h'⟩
  · rw [h'] at h
    cases h
  · rw [h'] at h
    cases h
    simp [operands, harg]
  · rw [h'] at h
    cases h
  · rw [h'] at h
    cases h
    simp [operands, harg]

/-! ## Runs -/

namespace Calculation

theorem foreseen_checked (c : Calculation) : Foreseen c.checked :=
  c.checked_eq ▸ c.foreseen_run

theorem declared_of_run {c : Calculation} {e : MatrixError} (h : c.run = .error e) :
    e = .halted ∨ e.Declared := by
  have hforeseen := c.foreseen_run
  rw [h] at hforeseen
  cases e with
  | incompatibleDimensions | invalidIndex => exact .inr trivial
  | halted => exact .inl rfl
  | indexOutOfRange | bufferSizeMismatch | shapeTooLarge => exact hforeseen.elim

end Calculation

theorem Instruction.declared_of_evaluate {i : Instruction} {step : String} {W : Workspace}
    {e : ScoringError} (hi : i.operands.length = i.op.arity) (h : i.evaluate step W = .error e) :
    e = .halted ∨ e.Declared := by
  unfold evaluate at h
  match hvalues : i.operandValues W with
  | .error reason =>
    rw [hvalues] at h
    cases h
    exact .inr trivial
  | .ok (a, b) =>
    -- no operand is missing, so what is left is how the calculation ends
    obtain ⟨c, hc⟩ := Operation.exists_calculation (a := a)
      ((length_of_operandValues hvalues).trans hi)
    simp only [hvalues, Operation.apply?_eq, hc, Option.map_some] at h
    cases hrun : c.run with
    | ok result =>
      rw [hrun] at h
      cases h
    | error reason =>
      rw [hrun] at h
      cases h
      rcases Calculation.declared_of_run hrun with rfl | hdeclared
      · exact .inl rfl
      · cases reason with
        | halted => exact .inl rfl
        | _ => exact .inr hdeclared

theorem declared_of_runModel {m : OrderedModel} {input : Matrix} {e : ScoringError}
    (hm : m.model.Complete) (h : (runModel m input).failure = some e) :
    e = .halted ∨ e.Declared := by
  obtain ⟨p, -, hp⟩ := runModel_eq_error_iff.1 (Progress.eq_of_failure_eq h)
  obtain ⟨hstep, hinstruction⟩ := p.instruction_mem
  exact Instruction.declared_of_evaluate (hm _ hstep _ hinstruction) hp

namespace Engine

/-- An engine for the model, after any calls, fails only in the ways that are declared, unless its
run gets to a calculation that halts. -/
def FailsAsDeclared (m : OrderedModel) : Prop :=
  ∀ (profiling : Bool) (cs : List Call) (clock : Clock) (e : ScoringError),
    ((after m profiling cs).apply clock).2 = some e →
      e = .halted ∧ GetsToHalting m (after m profiling cs).input ∨ e.Declared

theorem failsAsDeclared_of_complete {m : OrderedModel} (h : m.model.Complete) :
    FailsAsDeclared m := by
  intro profiling cs clock e he
  rw [(fromScratch_after m profiling cs).failure_apply clock] at he
  split at he
  · cases he
    exact .inr trivial
  · rcases declared_of_runModel h he with rfl | hdeclared
    · exact .inl ⟨rfl, runModel_eq_halted_iff.1 he⟩
    · exact .inr hdeclared

/-- An engine for a model that was loaded from an element tree, or read from a text, fails only in
the ways that are declared.  No operation leaves an array that does not fill its shape. -/
theorem apply_declared (m : OrderedModel) :
    (∀ document, m.LoadedFrom document → FailsAsDeclared m) ∧
      (∀ text, OrderedModel.read text = .ok m → FailsAsDeclared m) ∧
        ∀ c : Calculation, Calculation.Foreseen c.checked := by
  refine ⟨fun document h => failsAsDeclared_of_complete h.complete, fun text h => ?_,
    Calculation.foreseen_checked⟩
  obtain ⟨document, -, hloaded⟩ := OrderedModel.exists_loadedFrom_of_read h
  exact failsAsDeclared_of_complete hloaded.complete

/-- A document whose model adds a variable that is never set. -/
def unsetDocument : String :=
  "<m><inputdata><size>1,1</size></inputdata><information><modeltype>a</modeltype></information>" ++
    "<step><sequence>1</sequence><script>y=plus(x,k)</script></step></m>"

/-- The variable that is not set when the model of a document is applied to one value. -/
def unsetOn? (text : String) (value : Float) : Option String :=
  match OrderedModel.read text with
  | .error _ => none
  | .ok m =>
    match ((after m true [.setInput (Matrix.scalar value)]).apply .still).2 with
    | some (.notSet reason) => some reason.name
    | _ => none

theorem apply_declared_unset :
    ∃ m, OrderedModel.read unsetDocument = .ok m ∧
      ∃ e, ((after m true [.setInput (Matrix.scalar 1.0)]).apply .still).2 = some e ∧
        e.Declared := by
  have hname : unsetOn? unsetDocument 1.0 = some "k" := by decide +kernel
  unfold unsetOn? at hname
  split at hname
  · cases hname
  · next m hm =>
    refine ⟨m, hm, ?_⟩
    split at hname
    · next reason hreason =>
      refine ⟨_, hreason, ?_⟩
      have hdeclared := (apply_declared m).2.1 unsetDocument hm true _ .still _ hreason
      exact hdeclared.resolve_left fun h => nomatch h.1
    · cases hname

end Engine

end ModelScoring
