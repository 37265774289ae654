import ModelScoring.Scoring.Batch
import ModelScoring.Scoring.Loading

/-!
# Failures

A failure is told from what was attempted down to what went wrong first.  A report begins with the
former and lists the causes below it; they are numbered if there are several, and the lines of one
are indented alike.
-/

namespace ModelScoring.CommandLine

/-- Why the program cannot do what it is asked to. -/
structure Failure where
  /-- What was attempted. -/
  message : String
  /-- The causes, each of the one before it. -/
  causes : List String
  deriving DecidableEq, Repr

namespace Failure

def plain (message : String) : Failure := ⟨message, []⟩

/-! ## The report -/

/-- A text with every line but the first indented. -/
def indentLines (margin : String) (text : String) : String :=
  String.intercalate ("\n" ++ margin) ((text.toList.splitOnP (· == '\n')).map String.ofList)

/-- A cause among several, with its number. -/
def numbered (number : Nat) (cause : String) : String :=
  let digits := number.repr
  String.ofList (List.replicate (5 - digits.length) ' ') ++ digits ++ ": " ++
    indentLines "       " cause

/-- The lines below the heading of the causes. -/
def causeLines : List String → List String
  | [cause] => ["    " ++ indentLines "    " cause]
  | causes => causes.mapIdx numbered

def report (f : Failure) : String :=
  let below :=
    if f.causes.isEmpty then []
    else ["", "Caused by:"] ++ causeLines f.causes
  String.intercalate "\n" (("Error: " ++ f.message) :: below) ++ "\n"

/-! ## Causes -/

/-- A model error and the errors below it. -/
def modelCauses (e : ModelError) : List String :=
  match e with
  | .unreadable reason => [e.message, reason]
  | e => [e.message]

/-- A scoring error and the errors below it. -/
def scoringCauses (e : ScoringError) : List String :=
  match e with
  | .execution _ _ reason => [e.message, reason.message]
  | e => [e.message]

/-- The failure of a run that was cut off. -/
def halted : Failure := plain "scoring task failed"

/-- The failure of something attempted on a row. -/
def ofScoring (attempt : String) (e : ScoringError) : Failure :=
  match e with
  | .halted => halted
  | e => ⟨attempt, scoringCauses e⟩

/-- The failure to score a batch. -/
def ofBatch : BatchError → Failure
  | .input number reason => ofScoring s!"row {number}" reason
  | .run number reason => ofScoring s!"applying model to row {number}" reason
  | .output reason => ⟨reason.message, (scoringCauses reason).tail⟩

/-- The failure to load the settings in a file. -/
def ofSettings (path : String) (e : SettingsError) : Failure :=
  ⟨s!"loading config '{path}'", [e.message]⟩

/-- What is said of a model that is not loaded. -/
def loadingModel (path : String) : String := s!"failed to load model from '{path}'"

/-- The failure to make an engine for the model in a file. -/
def ofEngine (path : String) (e : ModelError) : Failure :=
  ⟨loadingModel path, e.engineMessage :: modelCauses e⟩

/-- The failure to load the model in a file, told in one line. -/
def ofModel (path : String) (e : ModelError) : Failure :=
  plain s!"{loadingModel path}: {e.message}"

/-- What is said of a value that is no numeral. -/
def invalidValue (value : String) : String := s!"invalid input value '{value}'"

/-- What is wrong with a value that is no numeral. -/
def invalidNumeral : String := "invalid float literal"

def ofRows : RowsError → Failure
  | .invalidValue value => ⟨invalidValue value, [invalidNumeral]⟩
  | .invalidLine path line value => ⟨s!"{path}:{line}", [invalidValue value, invalidNumeral]⟩
  | .unreadable path fault => ⟨s!"cannot read input file '{path}'", [fault]⟩
  | .empty path => plain s!"input file '{path}' contains no rows"

/-- The failure for want of a model. -/
def noModel : Failure := plain "no model given: pass --model or a --config naming model_path"

end Failure

example : (Failure.mk "a" ["b\nc", "d"]).report =
    "Error: a\n\nCaused by:\n    0: b\n       c\n    1: d\n" := by decide +kernel

end ModelScoring.CommandLine
