import ModelScoring.CommandLine.Arguments
import ModelScoring.CommandLine.Failure
import ModelScoring.CommandLine.Listing

/-!
# The program

`program` says, for given arguments, which files are read and what is printed.  Settings come from
their file if one is named, and options override them.  A run prints nothing before every row is
scored; the parts of a model are printed below a frame that is there even if the model is not.
-/

namespace ModelScoring.CommandLine

structure Outcome where
  exitCode : UInt8
  output : String
  errors : String
  deriving DecidableEq, Repr

namespace Outcome

def success (lines : List String) : Outcome := ⟨0, unlines lines, ""⟩

/-- Something failed after some lines were printed. -/
def failure (lines : List String) (f : Failure) : Outcome := ⟨1, unlines lines, f.report⟩

def misuse (e : UsageError) : Outcome :=
  ⟨2, "", s!"error: {e.message}\n\nFor more information, try '--help'.\n"⟩

end Outcome

/-- The settings of a file, if one is named, with another model if one is named. -/
def resolveSettings (config model : Option String) : Reading (Except Failure Settings) :=
  match config, model with
  | none, none => pure (.error Failure.noModel)
  | none, some model => pure (.ok { Settings.initial with modelPath := model })
  | some path, model => do
    match ← Settings.load path with
    | .error e => pure (.error (Failure.ofSettings path e))
    | .ok settings => pure (.ok { settings with modelPath := model.getD settings.modelPath })

/-- The settings with what the options of a run say instead. -/
def RunRequest.override (request : RunRequest) (settings : Settings) : Settings :=
  { settings with
    outputs := if request.outputs.isEmpty then settings.outputs else request.outputs
    format := if request.json then .json else settings.format
    profiling := settings.profiling && !request.noProfile }

/-- Scores the rows of a source as settings say. -/
def score (settings : Settings) (source : RowSource) (clocks : Nat → Clock) :
    Reading (Except Failure (List ScoredRow)) := do
  match ← Engine.load settings with
  | .error e => pure (.error (Failure.ofEngine settings.modelPath e))
  | .ok engine =>
    match ← source.rows engine.model.model.width with
    | .error e => pure (.error (Failure.ofRows e))
    | .ok rows => pure ((engine.scoreRows settings clocks 1 rows).mapError Failure.ofBatch)

/-- The lines that show scored rows as settings say. -/
def resultLines (settings : Settings) (rows : List ScoredRow) : List String :=
  match settings.format with
  | .json => [(Json.array (rows.map ScoredRow.json)).pretty]
  | .table => runLines settings.modelPath rows

/-- Scores rows. -/
def runOutcome (request : RunRequest) (clocks : Nat → Clock) : Reading Outcome := do
  match ← resolveSettings request.config request.model with
  | .error f => pure (.failure [] f)
  | .ok settings =>
    let settings := request.override settings
    match ← score settings request.source clocks with
    | .error f => pure (.failure [] f)
    | .ok rows => pure (.success (resultLines settings rows))

/-- Shows a model. -/
def inspectOutcome (config model : Option String) : Reading Outcome := do
  match ← resolveSettings config model with
  | .error f => pure (.failure [] f)
  | .ok settings =>
    let path := settings.modelPath
    match ← OrderedModel.load path with
    | .error e => pure (.failure inspectBanner (Failure.ofModel path e))
    | .ok m => pure (.success (inspectBanner ++ modelLines path m.model))

/-- What the program does for given arguments, with clock readings for the run on each row. -/
def program (clocks : Nat → Clock) (arguments : List String) : Reading Outcome :=
  match Request.ofArguments arguments with
  | .error e => pure (.misuse e)
  | .ok .version => pure (.success [versionLine])
  | .ok (.help place) => pure (.success (helpLines place))
  | .ok (.run request) => runOutcome request clocks
  | .ok (.inspect config model) => inspectOutcome config model

end ModelScoring.CommandLine
