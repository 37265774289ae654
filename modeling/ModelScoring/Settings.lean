import ModelScoring.Text.Fold
import ModelScoring.Toml.Document

/-!
# Settings

Settings say which model is scored, whether the work is timed, which variables are reported and in
which format.  They are written as TOML.  Only the path of the model is required, entries of other
names do not count, and an entry of the wrong type makes the whole text invalid.

With no outputs every variable is reported; `wants_iff` says which ones are otherwise.
-/

namespace ModelScoring

inductive Format
  /-- The name and shape of each variable, and its values line by line. -/
  | table
  /-- One JSON value. -/
  | json
  deriving DecidableEq, Repr

namespace Format

def name : Format → String
  | table => "table"
  | json => "json"

def ofName? (name : String) : Option Format :=
  if name = "table" then some .table else if name = "json" then some .json else none

@[simp] theorem ofName?_name (format : Format) : ofName? format.name = some format := by
  cases format <;> rfl

end Format

/-- What is scored, and what is reported. -/
structure Settings where
  /-- The path of the model. -/
  modelPath : String
  /-- Whether the work is timed. -/
  profiling : Bool := true
  /-- The names of the variables to report; all of them if there is none. -/
  outputs : List String := []
  /-- How results are shown. -/
  format : Format := .table
  deriving DecidableEq, Repr

inductive SettingsError
  /-- The file was not read. -/
  | unreadable (path fault : String)
  /-- The text is no TOML, or its entries are no settings. -/
  | malformed
  deriving DecidableEq, Repr

def SettingsError.message : SettingsError → String
  | unreadable path fault =>
    s!"configuration error: cannot read config '{path}': {fault}"
  | malformed => "configuration error: TOML parse error"

namespace Settings

/-- The settings in the absence of any other. -/
def initial : Settings where
  modelPath := "./demos/pca_demo.xml"

/-! ## Reading -/

open Toml (Value)

/-- The text that a value is. -/
def textOf? : Value → Option String
  | .text s => some s
  | _ => none

/-- The truth value that a value is. -/
def booleanOf? : Value → Option Bool
  | .boolean b => some b
  | _ => none

/-- The texts that a value lists. -/
def textsOf? : Value → Option (List String)
  | .array items => items.mapM textOf?
  | _ => none

/-- The format that a value names: by a text, or by the one name in a table, with nothing in it. -/
def formatOf? : Value → Option Format
  | .text name => Format.ofName? name
  | .table [(name, .table [])] => Format.ofName? name
  | .table [(name, .array [])] => Format.ofName? name
  | _ => none

/-- What the value of a name is, or the default if the name has none. -/
def fieldOr {α : Type} (entries : List (String × Value)) (name : String)
    (of? : Value → Option α) (default : α) : Option α :=
  match Value.field? name entries with
  | none => some default
  | some value => of? value

/-- The settings that the entries of a document are. -/
def ofEntries? (entries : List (String × Value)) : Option Settings := do
  let modelPath ← (Value.field? "model_path" entries).bind textOf?
  let profiling ← fieldOr entries "enable_profiling" booleanOf? true
  let outputs ← fieldOr entries "outputs" textsOf? []
  let format ← fieldOr entries "format" formatOf? .table
  pure ⟨modelPath, profiling, outputs, format⟩

def read (text : String) : Except SettingsError Settings :=
  match (Toml.Document.read? text).bind ofEntries? with
  | some settings => .ok settings
  | none => .error .malformed

/-! ## Writing -/

/-- A list of texts.  Two or more stand on lines of their own. -/
def writeTexts (texts : List String) : String :=
  let written := texts.map fun s => String.ofList (Toml.writeText s.toList)
  match written with
  | [] => "[]"
  | [text] => "[" ++ text ++ "]"
  | _ => "[\n" ++ String.join (written.map fun text => "    " ++ text ++ ",\n") ++ "]"

def text (settings : Settings) : String :=
  let path := String.ofList (Toml.writeText settings.modelPath.toList)
  s!"model_path = {path}\n" ++
  s!"enable_profiling = {settings.profiling}\n" ++
  s!"outputs = {writeTexts settings.outputs}\n" ++
  s!"format = \"{settings.format.name}\"\n"

/-! ## Outputs -/

def wants (settings : Settings) (name : String) : Bool :=
  settings.outputs.isEmpty || settings.outputs.any fun output => Text.fold output == Text.fold name

/-- Among named outputs a variable is reported exactly if one of them is its name, up to the case
of ASCII letters. -/
theorem wants_iff {settings : Settings} (h : settings.outputs ≠ []) (name : String) :
    settings.wants name = true ↔
      ∃ output ∈ settings.outputs, Text.fold output = Text.fold name := by
  simp [wants, h]

end Settings

end ModelScoring
