import ModelScoring.Matrix.Pointwise
import ModelScoring.Matrix.Product
import ModelScoring.Matrix.Selection
import ModelScoring.Model.Basic

/-!
# Running steps

A step first sets its constants in the workspace of the run.  Then it carries out its script, line
by line, and each line sets its destination to its result.  A line that fails sets nothing, and
the run ends there with the workspace as it stood.

`runModel` runs the steps of a model from the workspace that holds an input row and nothing else.
It is a function of the model and the input, and everything an engine ever answers comes from it.
-/

namespace ModelScoring

/-- Why an input is refused, a run ends early, or there are no results. -/
inductive ScoringError
  /-- The input has more than one row. -/
  | tooManyRows (rows : Nat)
  /-- The input has not as many columns as the model expects. -/
  | columnMismatch (expected actual : Nat)
  /-- There is no input. -/
  | inputMissing
  /-- The model has not been applied. -/
  | notApplied
  /-- A variable is not set. -/
  | notSet (reason : NotSet)
  /-- An instruction of a step cannot be carried out on its operands. -/
  | execution (step instruction : String) (reason : MatrixError)
  /-- An instruction has one operand and needs two. -/
  | missingOperand (instruction : String)
  /-- A number left the range of sizes; the run stops without a report. -/
  | halted

def ScoringError.message : ScoringError → String
  | tooManyRows rows => s!"input data has {rows} rows, only a single row can be scored"
  | columnMismatch expected actual =>
    s!"input data has {actual} columns, model expects {expected}"
  | inputMissing => "input data missing, assign an input row before applying the model"
  | notApplied => "model has not been applied to the current input"
  | notSet reason => reason.message
  | execution step instruction reason =>
    s!"execution error in step '{step}' at '{instruction}': {reason.message}"
  | missingOperand instruction => s!"instruction '{instruction}' is missing its second operand"
  | halted => MatrixError.halted.message

/-- The result of an operation.  There is none if it takes two operands and the second is
missing.  A second operand that is not needed is not looked at. -/
def Operation.apply? (op : Operation) (a : Matrix) (b : Option Matrix) :
    Option (Except MatrixError Matrix) :=
  match op with
  | abs => some (.ok a.abs)
  | log10 => some (.ok a.log10)
  | transpose => some (.ok a.transpose)
  | plus => b.map (Matrix.broadcast .plus a)
  | minus => b.map (Matrix.broadcast .minus a)
  | times => b.map (Matrix.broadcast .times a)
  | rdivide => b.map (Matrix.broadcast .rdivide a)
  | power => b.map (Matrix.broadcast .power a)
  | mtimes => b.map (Matrix.mtimes a)
  | cols => b.map (Matrix.select .cols a)
  | rows => b.map (Matrix.select .rows a)

/-- The error of a run that a failing operation causes. -/
def ScoringError.ofMatrixError (step : String) (i : Instruction) : MatrixError → ScoringError
  | .halted => .halted
  | reason => .execution step i.text reason

/-- The values of the operands of an instruction. -/
def Instruction.operandValues (i : Instruction) (W : Workspace) :
    Except NotSet (Matrix × Option Matrix) :=
  match W.get i.arg1 with
  | .error e => .error e
  | .ok a =>
    match i.arg2 with
    | none => .ok (a, none)
    | some name =>
      match W.get name with
      | .error e => .error e
      | .ok b => .ok (a, some b)

/-- Both operands that an instruction has are looked up, the first one first. -/
theorem Instruction.operandValues_cases (i : Instruction) (W : Workspace) :
    (∃ e, W.get i.arg1 = .error e ∧ i.operandValues W = .error e) ∨
    (∃ A, W.get i.arg1 = .ok A ∧ i.arg2 = none ∧ i.operandValues W = .ok (A, none)) ∨
    (∃ A name e, W.get i.arg1 = .ok A ∧ i.arg2 = some name ∧ W.get name = .error e ∧
      i.operandValues W = .error e) ∨
    ∃ A name B, W.get i.arg1 = .ok A ∧ i.arg2 = some name ∧ W.get name = .ok B ∧
      i.operandValues W = .ok (A, some B) := by
  cases h1 : W.get i.arg1 with
  | error e => exact .inl ⟨e, rfl, by simp [operandValues, h1]⟩
  | ok A =>
    cases h2 : i.arg2 with
    | none => exact .inr (.inl ⟨A, rfl, rfl, by simp [operandValues, h1, h2]⟩)
    | some name =>
      cases h3 : W.get name with
      | error e =>
        have herror : i.operandValues W = .error e := by simp [operandValues, h1, h2, h3]
        exact .inr (.inr (.inl ⟨A, name, e, rfl, rfl, h3, herror⟩))
      | ok B =>
        have hok : i.operandValues W = .ok (A, some B) := by simp [operandValues, h1, h2, h3]
        exact .inr (.inr (.inr ⟨A, name, B, rfl, rfl, h3, hok⟩))

/-- The result of an instruction of a step, in a workspace. -/
def Instruction.evaluate (i : Instruction) (step : String) (W : Workspace) :
    Except ScoringError Matrix :=
  match i.operandValues W with
  | .error e => .error (.notSet e)
  | .ok (a, b) =>
    match i.op.apply? a b with
    | none => .error (.missingOperand i.text)
    | some (.error e) => .error (.ofMatrixError step i e)
    | some (.ok result) => .ok result

/-- Where a run has come to: its workspace, and why it ended early if it did. -/
structure Progress where
  workspace : Workspace
  /-- Why the run ended early. -/
  failure : Option ScoringError

/-- Carries out the instructions of a step. -/
def runScript (step : String) : List Instruction → Workspace → Progress
  | [], W => ⟨W, none⟩
  | i :: rest, W =>
    match i.evaluate step W with
    | .error e => ⟨W, some e⟩
    | .ok result => runScript step rest (W.set i.dest result)

/-- Runs a step. -/
def Step.run (s : Step) (W : Workspace) : Progress :=
  runScript s.description s.script (W.merge s.constants)

/-- Runs steps, one after the other. -/
def runSteps : List Step → Workspace → Progress
  | [], W => ⟨W, none⟩
  | s :: rest, W =>
    match s.run W with
    | ⟨V, none⟩ => runSteps rest V
    | ended => ended

/-- The variable that holds the input row. -/
def inputName : String := "x"

/-- Runs a model on an input. -/
def runModel (m : OrderedModel) (input : Matrix) : Progress :=
  runSteps m.model.steps (Workspace.empty.set inputName input)

end ModelScoring
