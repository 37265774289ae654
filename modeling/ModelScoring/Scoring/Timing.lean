import ModelScoring.Json
import ModelScoring.Size

/-!
# Timings

A timing says how long a run took, and how long each of its steps, in nanoseconds.  It also counts
the instructions of the steps and the variables at the end.  The readings of the clock come from
outside, so that a timing is a value like any other.
-/

namespace ModelScoring

/-- A length of time in nanoseconds. -/
structure Duration where
  nanos : Nat
  deriving DecidableEq, Repr

namespace Duration

/-- How many nanoseconds make a second. -/
def perSecond : Nat := 1000000000

/-- The length in milliseconds: the whole seconds, the rest as a part of a second, then their sum
times a thousand, each rounded as it comes. -/
def milliseconds (d : Duration) : Float :=
  ((d.nanos / perSecond).toFloat + (d.nanos % perSecond).toFloat / 1e9) * 1000.0

/-- The length in words. -/
def text (d : Duration) : String := Decimal.fixed 3 d.milliseconds ++ "ms"

/-- The length in JSON, seconds and the rest apart. -/
def json (d : Duration) : Json :=
  .object [("secs", .natural (d.nanos / perSecond)), ("nanos", .natural (d.nanos % perSecond))]

end Duration

structure StepTiming where
  /-- The number of the step. -/
  sequence : Nat
  /-- What the step does. -/
  description : String
  /-- How many instructions it has. -/
  instructions : Nat
  /-- How long it took. -/
  duration : Duration
  deriving DecidableEq, Repr

structure Timing where
  /-- How long all of it took. -/
  total : Duration
  /-- How long each step took, in order. -/
  steps : List StepTiming
  /-- How many variables there were at the end. -/
  variableCount : Nat
  deriving DecidableEq, Repr

namespace Timing

/-- The timing before anything has run. -/
def start : Timing := ⟨⟨0⟩, [], 0⟩

def record (t : Timing) (step : StepTiming) : Timing := { t with steps := t.steps ++ [step] }

/-- Enters how long all of it took and how many variables there are. -/
def finish (t : Timing) (total : Duration) (variableCount : Nat) : Timing :=
  { t with total := total, variableCount := variableCount }

/-- The steps together. -/
def stepTotal (t : Timing) : Duration := ⟨sumOf (t.steps.map fun s => s.duration.nanos)⟩

/-- How many instructions there were, counted as a size: the count starts over at the limit. -/
def instructionCount (t : Timing) : Nat := sumOf (t.steps.map StepTiming.instructions) % sizeLimit

/-- The later of two steps, unless the earlier one took longer. -/
def slower (slowest : Option StepTiming) (s : StepTiming) : Option StepTiming :=
  match slowest with
  | none => some s
  | some t => if s.duration.nanos < t.duration.nanos then some t else some s

/-- The step that took longest, the last of several. -/
def slowest? (t : Timing) : Option StepTiming := t.steps.foldl slower none

/-- A line that sums a timing up. -/
def summary (t : Timing) : String :=
  let slowest := match t.slowest? with
    | none => ""
    | some s => s!", slowest step {s.sequence} '{s.description}' {s.duration.text}"
  s!"Apply: {t.total.text} total, {t.steps.length} steps, {t.instructionCount} instructions, " ++
    s!"{t.variableCount} variables{slowest}"

/-- The timing of a step in JSON. -/
def stepJson (s : StepTiming) : Json :=
  .object
    [("sequence", .natural s.sequence), ("description", .text s.description),
      ("instructions", .natural s.instructions), ("duration", s.duration.json)]

def json (t : Timing) : Json :=
  .object
    [("total_duration", t.total.json), ("step_metrics", .array (t.steps.map stepJson)),
      ("variables_produced", .natural t.variableCount)]

end Timing

end ModelScoring
