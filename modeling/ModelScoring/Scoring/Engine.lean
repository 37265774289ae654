import ModelScoring.Scoring.Execution
import ModelScoring.Scoring.Timing

/-!
# The scoring engine

An engine scores one input row after the other with the same model.  It is idle until the model
has been applied to the current input, and applied until another input is accepted.  Results can
be read only while it is applied.

An engine keeps the workspace of the last run.  An accepted input clears it, and so does the next
run, which then sets the input in it.  A run that fails leaves the engine idle, with the workspace
as it stood when the run ended.  Applying the model a second time does nothing.

`Engine.run_eq_runModel` says that what an earlier run left behind does not show: the run of an
engine is the run of its model on its input.
-/

namespace ModelScoring

/-- Whether the model has been applied to the current input. -/
inductive Phase
  /-- Not yet. -/
  | idle
  /-- It has. -/
  | applied
  deriving DecidableEq, Repr

/-- Readings of a clock during a run. -/
structure Clock where
  /-- How long the whole run took. -/
  run : Duration
  /-- How long the step at each position took. -/
  step : Nat → Duration

/-- The clock that stands still. -/
def Clock.still : Clock := ⟨⟨0⟩, fun _ => ⟨0⟩⟩

/-- An engine. -/
structure Engine where
  model : OrderedModel
  /-- Whether it takes timings. -/
  profiling : Bool
  input : Matrix
  /-- The variables of the last run. -/
  workspace : Workspace
  /-- Whether the model has been applied to the current input. -/
  phase : Phase
  /-- The timing of the last run. -/
  timing : Option Timing

namespace Engine

/-- An engine that has no input yet. -/
def ofModel (model : OrderedModel) (profiling : Bool) : Engine where
  model := model
  profiling := profiling
  input := Matrix.empty
  workspace := Workspace.empty
  phase := .idle
  timing := none

/-- Whether the model has been applied to the current input. -/
def isApplied (e : Engine) : Bool := e.phase == .applied

/-- Why an input does not fit a model.  The number of rows is looked at first. -/
def inputFault? (m : Model) (input : Matrix) : Option ScoringError :=
  if 1 < input.rows then some (.tooManyRows input.rows)
  else if input.cols ≠ m.width then some (.columnMismatch m.width input.cols)
  else none

/-- Gives an engine its next input.  The engine stays as it is if the input does not fit. -/
def setInput (e : Engine) (input : Matrix) : Except ScoringError Engine :=
  match inputFault? e.model.model input with
  | some fault => .error fault
  | none =>
    .ok
      { e with
        input := input
        workspace := e.workspace.clear
        phase := .idle
        timing := none }

/-- Gives an engine its next input row. -/
def setInputRow (e : Engine) (values : Array Float) : Except ScoringError Engine :=
  match Matrix.ofRow values with
  | .ok input => e.setInput input
  | .error _ => .error .halted

/-- The timing of a finished run of a model. -/
def timingOf (m : Model) (clock : Clock) (variableCount : Nat) : Timing :=
  let steps := m.steps.mapIdx fun k s =>
    StepTiming.mk s.sequence s.description s.script.length (clock.step k)
  (steps.foldl Timing.record Timing.start).finish clock.run variableCount

/-- Runs the steps of the model in the workspace of the engine, cleared and with the current input
set. -/
def run (e : Engine) : Progress :=
  runSteps e.model.model.steps (e.workspace.clear.set inputName e.input)

theorem run_eq_runModel (e : Engine) : e.run = runModel e.model e.input := by
  rw [run, Workspace.clear_eq_empty, runModel]

/-- Applies the model to the current input: the engine afterwards, and why it failed if it did. -/
def apply (e : Engine) (clock : Clock) : Engine × Option ScoringError :=
  match e.phase with
  | .applied => (e, none)
  | .idle =>
    if e.input.rows = 0 then (e, some .inputMissing)
    else
      match e.run with
      | ⟨W, some failure⟩ => ({ e with workspace := W }, some failure)
      | ⟨W, none⟩ =>
        let timing := if e.profiling then some (timingOf e.model.model clock W.size) else none
        ({ e with workspace := W, phase := .applied, timing := timing }, none)

/-- The variables of the run on the current input. -/
def results (e : Engine) : Except ScoringError Workspace :=
  match e.phase with
  | .applied => .ok e.workspace
  | .idle => .error .notApplied

/-- The value of a variable of the run on the current input. -/
def get (e : Engine) (name : String) : Except ScoringError Matrix :=
  match e.results with
  | .error fault => .error fault
  | .ok W =>
    match W.get name with
    | .error fault => .error (.notSet fault)
    | .ok value => .ok value

end Engine

end ModelScoring
