import ModelScoring.Main
import ModelScoring.Proofs.Decimal.Nearest
import ModelScoring.Proofs.Matrix.Buffer
import ModelScoring.Proofs.Matrix.Checked
import ModelScoring.Proofs.Matrix.Elements
import ModelScoring.Proofs.Matrix.Expanded
import ModelScoring.Proofs.Matrix.Halting
import ModelScoring.Proofs.Matrix.Kernel
import ModelScoring.Proofs.Matrix.Positions
import ModelScoring.Proofs.Matrix.Recipe
import ModelScoring.Proofs.Matrix.Rectangular
import ModelScoring.Proofs.Matrix.Refused
import ModelScoring.Proofs.Matrix.ResultShape
import ModelScoring.Proofs.Matrix.Selected
import ModelScoring.Proofs.Matrix.ShapeText
import ModelScoring.Proofs.Matrix.Slices
import ModelScoring.Proofs.Matrix.Transposed
import ModelScoring.Proofs.Matrix.TransposedOperands
import ModelScoring.Proofs.Model.Constants
import ModelScoring.Proofs.Model.Described
import ModelScoring.Proofs.Model.Header
import ModelScoring.Proofs.Model.InTurn
import ModelScoring.Proofs.Model.Rewritten
import ModelScoring.Proofs.Model.Sequence
import ModelScoring.Proofs.Model.StepElement
import ModelScoring.Proofs.Model.WellFormed
import ModelScoring.Proofs.Scoring.Actions
import ModelScoring.Proofs.Scoring.Calls
import ModelScoring.Proofs.Scoring.Definedness
import ModelScoring.Proofs.Scoring.Exchange
import ModelScoring.Proofs.Scoring.Failures
import ModelScoring.Proofs.Scoring.HaltingRuns
import ModelScoring.Proofs.Scoring.Outline
import ModelScoring.Proofs.Scoring.Places
import ModelScoring.Proofs.Scoring.Requested
import ModelScoring.Proofs.Scoring.RowsAlone
import ModelScoring.Proofs.Scoring.Spelling
import ModelScoring.Proofs.Scoring.Stages
import ModelScoring.Proofs.Scoring.Timings
import ModelScoring.Proofs.Scoring.Writes
import ModelScoring.Proofs.Script.Grammar
import ModelScoring.Proofs.Script.RoundTrip
import ModelScoring.Proofs.Text.Layout
import ModelScoring.Proofs.Text.Names
import ModelScoring.Proofs.Text.Trimmed
import ModelScoring.Proofs.Workspace.History
import ModelScoring.Proofs.Workspace.Merged
import ModelScoring.Proofs.Xml.DocumentOrder
