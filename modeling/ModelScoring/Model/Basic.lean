import ModelScoring.Script.Instruction
import ModelScoring.Size
import ModelScoring.Workspace

/-!
# Models

A model has the width of its input rows, some information about itself, and steps.  A step has a
number in the sequence, a description, constants and a script.  The information is a list of
named entries and the text they were read from.  One of them, the model type, is always there.

A model is *ordered* if its steps carry the numbers one, two, three and so on, in this order, and
if its width and its model type are not missing.  `Model.inOrder` brings the steps of a model in
order, or says what is missing or which step does not fit.
-/

namespace ModelScoring

/-- A step of a model. -/
structure Step where
  /-- Its number in the sequence. -/
  sequence : Nat
  /-- What it does, in words. -/
  description : String
  /-- The constants that are set before its script runs. -/
  constants : Workspace
  /-- Its instructions, in order. -/
  script : List Instruction

/-- What a model says about itself. -/
structure Information where
  /-- The kind of model. -/
  modelType : String
  /-- The text that the entries were read from. -/
  source : String
  /-- Names and values, in order. -/
  entries : List (String × String)
  deriving DecidableEq

/-- A model. -/
structure Model where
  /-- How many columns an input row has. -/
  width : Nat
  information : Information
  steps : List Step

/-- Why a model cannot be had from a document. -/
inductive ModelError
  /-- The document cannot be read. -/
  | unreadable (reason : String)
  /-- The document is no XML. -/
  | malformed
  /-- There is not exactly one `inputdata` element. -/
  | inputdataNotFound
  /-- There is no size of the input, or its width is zero. -/
  | inputSizeNotFound
  /-- The size of the input is no shape. -/
  | inputSizeInvalid (value : String)
  /-- There is not exactly one `information` element. -/
  | informationNotFound
  /-- There is no model type. -/
  | modelTypeNotFound
  /-- There are no steps. -/
  | noSteps
  /-- A step does not fit in the sequence. -/
  | invalidSequence (detail : String)
  /-- The size or a value of a constant cannot be read. -/
  | unparsableConstant (name step : String)
  /-- A constant has more or fewer values than its size says. -/
  | wrongSizeConstant (name step : String)
  /-- There is not exactly one `script` element in a step. -/
  | scriptMissing (step : String)
  /-- A line of a script is no instruction. -/
  | script (reason : ScriptError) (step : String)
  deriving DecidableEq, Repr

def ModelError.message : ModelError → String
  | unreadable reason => s!"failed to read model document: {reason}"
  | malformed => "failed to parse model document"
  | inputdataNotFound => "could not locate inputdata information in exported model"
  | inputSizeNotFound => "could not locate inputdata size information in exported model"
  | inputSizeInvalid value => s!"inputdata size \"{value}\" is not a \"rows,cols\" pair"
  | informationNotFound => "model information element not found in exported model"
  | modelTypeNotFound => "model type not found in exported model"
  | noSteps => "no application steps could be found in model"
  | invalidSequence detail => s!"invalid step sequence: {detail}"
  | unparsableConstant name step =>
    s!"unable to parse size or content for constant \"{name}\" in step \"{step}\""
  | wrongSizeConstant name step =>
    s!"value parses to incorrect size for constant \"{name}\" in step \"{step}\""
  | scriptMissing step => s!"missing script for step \"{step}\""
  | script reason step => s!"{reason.message} in step \"{step}\""

/-- A line that sums a step up. -/
def Step.summary (s : Step) : String :=
  s!"[{s.sequence}] {s.description}: {s.constants.size} constants, " ++
    s!"{s.script.length} instructions"

/-- The value of the first entry of that name. -/
def Information.get? (info : Information) (name : String) : Option String :=
  (info.entries.find? fun entry => entry.1 = name).map Prod.snd

namespace Model

/-- How many instructions there are in all steps, counted as a size: the count starts over at the
limit. -/
def instructionCount (m : Model) : Nat := sumOf (m.steps.map fun s => s.script.length) % sizeLimit

/-- A line that sums a model up. -/
def summary (m : Model) : String :=
  s!"Model '{m.information.modelType}': input width {m.width}, {m.steps.length} steps, " ++
    s!"{m.instructionCount} instructions"

/-- A model in full, with a line for each step. -/
def text (m : Model) : String :=
  s!"Model '{m.information.modelType}' (input width {m.width}, {m.steps.length} steps):\n" ++
    String.join (m.steps.map fun s => "  " ++ s.summary ++ "\n")

/-! ## Order -/

/-- Steps by ascending number.  Steps of one number keep their order. -/
def sortSteps (steps : List Step) : List Step :=
  steps.mergeSort fun s t => s.sequence ≤ t.sequence

/-- The first step, with the number it should have, that does not have it; numbers run on from
the one given. -/
def misplaced? : Nat → List Step → Option (Step × Nat)
  | _, [] => none
  | expected, s :: rest =>
    if s.sequence = expected then misplaced? (expected + 1) rest else some (s, expected)

/-- What is said about a step that does not fit in a sequence of so many. -/
def misplacedDetail (s : Step) (expected total : Nat) : String :=
  s!"step \"{s.description}\" has sequence {s.sequence}, expected {expected} " ++
    s!"(sequences must be 1..={total} without gaps or duplicates)"

/-- The model with its steps in order. -/
def inOrder (m : Model) : Except ModelError Model :=
  if m.width = 0 then .error .inputSizeNotFound
  else if Text.allBlank m.information.modelType.toList then .error .modelTypeNotFound
  else if m.steps.isEmpty then .error .noSteps
  else
    let steps := sortSteps m.steps
    match misplaced? 1 steps with
    | some (s, expected) =>
      .error (.invalidSequence (misplacedDetail s expected steps.length))
    | none => .ok { m with steps := steps }

/-- Whether the steps of a model carry their numbers and nothing is missing. -/
structure Ordered (m : Model) : Prop where
  /-- Input rows have a column. -/
  width_pos : m.width ≠ 0
  /-- The model type is not blank. -/
  modelType : Text.allBlank m.information.modelType.toList = false
  steps_ne_nil : m.steps ≠ []
  /-- Each step carries its number. -/
  numbered : misplaced? 1 m.steps = none

/-- A model in order is ordered. -/
theorem ordered_of_inOrder {m n : Model} (h : m.inOrder = .ok n) : n.Ordered := by
  unfold inOrder at h
  split at h
  · cases h
  · next hwidth =>
    split at h
    · cases h
    · next htype =>
      split at h
      · cases h
      · next hsteps =>
        dsimp only at h
        split at h
        · cases h
        · next hnone =>
          cases h
          refine ⟨hwidth, by simpa using htype, ?_, hnone⟩
          intro hnil
          have hlength := congrArg List.length hnil
          simp only [sortSteps, List.length_mergeSort, List.length_nil] at hlength
          exact hsteps (List.isEmpty_iff.2 (List.eq_nil_of_length_eq_zero hlength))

theorem eq_of_inOrder {m n : Model} (h : m.inOrder = .ok n) :
    n = { m with steps := sortSteps m.steps } := by
  unfold inOrder at h
  split at h
  · cases h
  · split at h
    · cases h
    · split at h
      · cases h
      · dsimp only at h
        split at h
        · cases h
        · cases h
          rfl

theorem mem_sortSteps_iff {s : Step} {steps : List Step} : s ∈ sortSteps steps ↔ s ∈ steps :=
  List.mem_mergeSort

end Model

/-- A model whose steps are in order. -/
structure OrderedModel where
  /-- The model. -/
  model : Model
  /-- Its steps are in order. -/
  ordered : model.Ordered

/-- Brings the steps of a model in order. -/
def OrderedModel.ofModel (m : Model) : Except ModelError OrderedModel :=
  match h : m.inOrder with
  | .error e => .error e
  | .ok n => .ok ⟨n, Model.ordered_of_inOrder h⟩

theorem OrderedModel.inOrder_of_ofModel {m : Model} {n : OrderedModel} (h : ofModel m = .ok n) :
    m.inOrder = .ok n.model := by
  unfold ofModel at h
  split at h
  · cases h
  · next hn =>
    cases h
    exact hn

end ModelScoring
