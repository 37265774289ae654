import ModelScoring.Decimal.Numeral
import ModelScoring.Model.Basic
import ModelScoring.Xml.Document

/-!
# Model documents

A model is exported as an XML document.  The width of its input stands in the element `size` of
`inputdata`, what it says about itself in `information`, and each step in an element `step`,
wherever that is.  A step holds its number, its description, its constants and its script.

`Model.ofElement` reads a model from the element tree.  It looks at the parts in a fixed order and
stops at the first that is not as it should be.  `OrderedModel.read` also brings the steps in
order.
-/

namespace ModelScoring

open Xml (Node)

namespace Model

/-- Reads the width of the input. -/
def readWidth (document : Node) : Except ModelError Nat :=
  match document.only? "inputdata" with
  | none => .error .inputdataNotFound
  | some inputdata =>
    match inputdata.child? "size" with
    | none => .error .inputSizeNotFound
    | some size =>
      match Shape.readChars? size.innerText with
      | none => .error (.inputSizeInvalid size.trimmedText)
      | some shape => if shape.cols = 0 then .error .inputSizeNotFound else .ok shape.cols

/-- Reads what a model says about itself. -/
def readInformation (document : Node) : Except ModelError Information :=
  match document.only? "information" with
  | none => .error .informationNotFound
  | some node =>
    let entries := node.elements.map fun child =>
      ((child.name?).getD "", child.trimmedText)
    match entries.find? fun entry => entry.1 = "modeltype" with
    | none => .error .modelTypeNotFound
    | some (_, modelType) =>
      if modelType = "" then .error .modelTypeNotFound
      else .ok ⟨modelType, String.ofList node.source, entries⟩

/-! ## Steps -/

/-- The description of a step that has none. -/
def unknownDescription : String := "unknown"

/-- Reads the description of a step. -/
def readDescription (step : Node) : String :=
  match step.child? "description" with
  | some node => node.trimmedText
  | none => unknownDescription

/-- Reads the number of a step. -/
def readSequence (step : Node) (description : String) : Except ModelError Nat :=
  match step.child? "sequence" with
  | none => .error (.invalidSequence s!"step \"{description}\" has no sequence")
  | some node =>
    let refusal := ModelError.invalidSequence
      (s!"step \"{description}\" has sequence \"{node.trimmedText}\", " ++
        "expected a positive integer")
    match readSize? (Text.trim node.innerText) with
    | none => .error refusal
    | some n => if n = 0 then .error refusal else .ok n

/-- Reads values, of which none may be no numeral. -/
def readValues? : List (List Char) → Option (List Float)
  | [] => some []
  | piece :: pieces =>
    match Decimal.readFloat? piece with
    | none => none
    | some x => (readValues? pieces).map (x :: ·)

/-- Whether a character stands between values. -/
def separatesValues (c : Char) : Bool := c == ',' || c == ';'

/-- Reads the value of a constant of a step. -/
def readConstant (name step : String) (node : Node) : Except ModelError Matrix :=
  match (node.attribute? "size").bind Shape.read? with
  | none => .error (.unparsableConstant name step)
  | some shape =>
    match readValues? (Text.fullPieces separatesValues node.innerText) with
    | none => .error (.unparsableConstant name step)
    | some values =>
      match Matrix.ofArray shape values.toArray with
      | .error _ => .error (.wrongSizeConstant name step)
      | .ok value => .ok value

/-- Reads constants, and sets them one after the other. -/
def readConstants (step : String) : List Node → Workspace → Except ModelError Workspace
  | [], W => .ok W
  | node :: nodes, W =>
    let name := (node.name?).getD ""
    match readConstant name step node with
    | .error e => .error e
    | .ok value => readConstants step nodes (W.set name value)

/-- The lines of a script: every text is taken apart on its own, and blank lines do not count. -/
def scriptLines (script : Node) : List String :=
  (script.texts.flatMap (Text.fullPieces (· == ';'))).map String.ofList

/-- Reads the lines of a script. -/
def readLines (step : String) : List String → Except ModelError (List Instruction)
  | [] => .ok []
  | line :: lines =>
    match Instruction.read line with
    | .error e => .error (.script e step)
    | .ok i =>
      match readLines step lines with
      | .error e => .error e
      | .ok rest => .ok (i :: rest)

/-- Reads the script of a step. -/
def readScript (step : Node) (description : String) : Except ModelError (List Instruction) :=
  match step.childrenNamed "script" with
  | [script] => readLines description (scriptLines script)
  | _ => .error (.scriptMissing description)

/-- Reads a step: its number, its constants, then its script. -/
def readStep (node : Node) : Except ModelError Step := do
  let description := readDescription node
  let sequence ← readSequence node description
  let constants ← readConstants description
    (((node.child? "constants").map Node.elements).getD []) Workspace.empty
  let script ← readScript node description
  pure ⟨sequence, description, constants, script⟩

/-- Reads steps, one after the other. -/
def readSteps : List Node → Except ModelError (List Step)
  | [] => .ok []
  | node :: nodes =>
    match readStep node with
    | .error e => .error e
    | .ok s =>
      match readSteps nodes with
      | .error e => .error e
      | .ok rest => .ok (s :: rest)

/-- Reads a model from the outermost element of its document, steps in document order. -/
def ofElement (document : Node) : Except ModelError Model := do
  let width ← readWidth document
  let information ← readInformation document
  match document.named "step" with
  | [] => .error .noSteps
  | nodes => do
    let steps ← readSteps nodes
    pure ⟨width, information, steps⟩

/-- Reads a model from its document. -/
def read (document : String) : Except ModelError Model :=
  match Xml.read? document with
  | none => .error .malformed
  | some root => ofElement root

end Model

/-- Reads a model from its document and brings its steps in order. -/
def OrderedModel.read (document : String) : Except ModelError OrderedModel :=
  match Model.read document with
  | .error e => .error e
  | .ok m => ofModel m

end ModelScoring
