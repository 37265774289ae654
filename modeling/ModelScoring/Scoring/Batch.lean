import ModelScoring.Matrix.Written
import ModelScoring.Scoring.Engine
import ModelScoring.Scoring.Rows
import ModelScoring.Settings

/-!
# Scoring rows

Rows are scored one after the other with one engine, and the first row that fails ends the batch.
Of a scored row the variables that the settings want are reported, in the order of the workspace.
Every name that the settings list must be set by then.
-/

namespace ModelScoring

/-- What is reported of a row. -/
structure ScoredRow where
  input : Row
  /-- The variables that are wanted. -/
  results : List Variable
  /-- How long the run took. -/
  timing : Option Timing

/-- Why a batch ends early. -/
inductive BatchError
  /-- The row of that number does not fit the model. -/
  | input (number : Nat) (reason : ScoringError)
  /-- The model cannot be applied to the row of that number. -/
  | run (number : Nat) (reason : ScoringError)
  /-- A variable that is wanted is not set. -/
  | output (reason : ScoringError)

namespace Engine

/-- Why a variable cannot be had. -/
def getFault? (e : Engine) (name : String) : Option ScoringError :=
  match e.get name with
  | .error reason => some reason
  | .ok _ => none

/-- The variables that settings want, of the run on the current input. -/
def report (e : Engine) (settings : Settings) : Except ScoringError (List Variable) :=
  match e.results with
  | .error reason => .error reason
  | .ok W =>
    match settings.outputs.findSome? e.getFault? with
    | some reason => .error reason
    | none => .ok (W.toList.filter fun v => settings.wants v.name)

/-- Scores the row of a number: the engine afterwards, and what is reported. -/
def scoreRow (e : Engine) (settings : Settings) (clock : Clock) (number : Nat) (row : Row) :
    Except BatchError (Engine × ScoredRow) :=
  match e.setInputRow row with
  | .error reason => .error (.input number reason)
  | .ok ready =>
    match ready.apply clock with
    | (_, some reason) => .error (.run number reason)
    | (applied, none) =>
      match applied.report settings with
      | .error reason => .error (.output reason)
      | .ok results => .ok (applied, ⟨row, results, applied.timing⟩)

/-- Scores rows, the first of which has the given number, with clock readings for each. -/
def scoreRows (settings : Settings) (clocks : Nat → Clock) :
    Nat → Engine → List Row → Except BatchError (List ScoredRow)
  | _, _, [] => .ok []
  | number, e, row :: rows =>
    match e.scoreRow settings (clocks number) number row with
    | .error reason => .error reason
    | .ok (next, scored) =>
      match scoreRows settings clocks (number + 1) next rows with
      | .error reason => .error reason
      | .ok rest => .ok (scored :: rest)

end Engine

namespace ScoredRow

/-- A variable in JSON: its name, and the fields of its value. -/
def variableJson (v : Variable) : Json := .object (("name", .text v.name) :: v.value.jsonFields)

/-- A scored row in JSON.  There is no timing if none was taken. -/
def json (scored : ScoredRow) : Json :=
  let timing := match scored.timing with
    | none => []
    | some t => [("metrics", t.json)]
  .object
    ([("input", .array (scored.input.toList.map .float)),
      ("results", .array (scored.results.map variableJson))] ++ timing)

end ScoredRow

end ModelScoring
