import ModelScoring.Model.Document
import ModelScoring.Reading
import ModelScoring.Scoring.Engine
import ModelScoring.Settings

/-!
# Loading settings, models and engines

Settings and models are read from files of text.  An engine is made from settings: the model is
the one they name, and the engine takes timings if they say so.
-/

namespace ModelScoring

/-- Reads the settings in a file. -/
def Settings.load (path : String) : Reading (Except SettingsError Settings) := do
  match ← Reading.text path with
  | .error fault => pure (.error (.unreadable path fault))
  | .ok text => pure (Settings.read text)

/-- Reads the model in a file, and brings its steps in order. -/
def OrderedModel.load (path : String) : Reading (Except ModelError OrderedModel) := do
  match ← Reading.text path with
  | .error fault => pure (.error (.unreadable fault))
  | .ok text => pure (OrderedModel.read text)

/-- The wording of the error of an engine whose model cannot be had. -/
def ModelError.engineMessage (e : ModelError) : String := s!"model error: {e.message}"

/-- Makes an engine for the model that settings name. -/
def Engine.load (settings : Settings) : Reading (Except ModelError Engine) := do
  match ← OrderedModel.load settings.modelPath with
  | .error e => pure (.error e)
  | .ok model => pure (.ok (Engine.ofModel model settings.profiling))

end ModelScoring
