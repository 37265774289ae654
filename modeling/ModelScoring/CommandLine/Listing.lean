import ModelScoring.CommandLine.Opt
import ModelScoring.Scoring.Batch

/-!
# Listings

What the program prints for people to read: the results of scored rows, the parts of a model, and
the options there are.  A listing is made of lines.
-/

namespace ModelScoring.CommandLine

def unlines (lines : List String) : String := String.join (lines.map (· ++ "\n"))

/-- The text, filled up with blanks on the right to a width. -/
def padded (width : Nat) (text : String) : String :=
  text ++ String.ofList (List.replicate (width - text.length) ' ')

/-- A title in a frame, and a blank line. -/
def banner (title : String) : List String :=
  let rule := String.ofList (List.replicate 54 '═')
  ["╔" ++ rule ++ "╗", "║" ++ title ++ "║", "╚" ++ rule ++ "╝", ""]

/-! ## Scored rows -/

def runBanner : List String := banner "               mescore · Model Scoring               "

/-- The values of a row in brackets. -/
def rowText (row : Row) : String :=
  "[" ++ String.intercalate ", " (row.toList.map Decimal.Layout.plain.text) ++ "]"

def variableLines (v : Variable) : List String :=
  s!"   {v.name} {v.value.shape.text}" :: v.value.lines.map ("      " ++ ·)

/-- The lines for the scored row of a number. -/
def scoredLines (number : Nat) (scored : ScoredRow) : List String :=
  let timing := match scored.timing with
    | none => []
    | some t => ["   " ++ t.summary]
  s!"  ── Row {number} ─ {rowText scored.input}" ::
    (scored.results.flatMap variableLines ++ timing ++ [""])

/-- The lines for the scored rows of a model. -/
def runLines (modelPath : String) (rows : List ScoredRow) : List String :=
  runBanner ++ [s!"  Model: {modelPath}", ""] ++
    (rows.mapIdx fun k scored => scoredLines (k + 1) scored).flatten

/-! ## Models -/

/-- The frame above the parts of a model. -/
def inspectBanner : List String := banner "              mescore · Model Inspector              "

/-- The text, shortened to a length.  Three dots stand for the end that is left out. -/
def shortened (length : Nat) (text : String) : String :=
  if text.length ≤ length then text
  else String.ofList (text.toList.take (length - 3)) ++ "..."

/-- The lines for what a model says about itself. -/
def informationLines (info : Information) : List String :=
  if info.entries.isEmpty then []
  else
    ["  Information:"] ++
      (info.entries.map fun entry => s!"   {padded 20 entry.1} {shortened 50 entry.2}") ++ [""]

/-- The lines for the constants of a step. -/
def constantLines (constants : Workspace) : List String :=
  if constants.isEmpty then []
  else "   Constants:" ::
    constants.toList.map fun v => s!"     {padded 16 v.name} {v.value.shape.text}"

/-- The lines for the script of a step. -/
def scriptLines (script : List Instruction) : List String :=
  "   Script:" ::
    if script.isEmpty then ["     (empty)"] else script.map fun i => "     " ++ i.text

def stepLines (s : Step) : List String :=
  [s!"  [{s.sequence}] {s.description}"] ++ constantLines s.constants ++ scriptLines s.script ++
    [""]

/-- The lines for the parts of the model in a file. -/
def modelLines (path : String) (m : Model) : List String :=
  [s!"  Model:        {path}", s!"  Type:         {m.information.modelType}",
    s!"  Input width:  {m.width}", s!"  Steps:        {m.steps.length}",
    s!"  Instructions: {m.instructionCount}", ""] ++
    informationLines m.information ++ m.steps.flatMap stepLines

/-! ## Options -/

/-- The lines of a table with two columns, the first as wide as its longest entry. -/
def columns (rows : List (String × String)) : List String :=
  let width := (rows.map fun row => row.1.length).foldl max 0
  rows.map fun row => s!"  {padded width row.1}  {row.2}"

def optionNames (o : Opt) : String :=
  let short := match o.short? with
    | some letter => String.ofList ['-', letter, ',', ' ']
    | none => "    "
  short ++ o.usage ++ (if o = .verbose then "..." else "")

/-- The lines for the options behind a command, or before any. -/
def optionLines (place : Option Command) : List String :=
  "Options:" :: columns ((Opt.allowed place).map fun o => (optionNames o, o.about))

def programName : String := "mescore"

/-- The lines that explain the options behind a command, or before any. -/
def helpLines (place : Option Command) : List String :=
  match place with
  | none =>
    ["Loads exported models and scores input rows against them", "",
      s!"Usage: {programName} [OPTIONS] <COMMAND>", "", "Commands:"] ++
      columns
        [(Command.run.name, Command.run.about), (Command.inspect.name, Command.inspect.about),
          ("help", "Print this message or the help of the given subcommand(s)")] ++
      [""] ++ optionLines none
  | some .run =>
    [Command.run.about, "", s!"Usage: {programName} run [OPTIONS] {Opt.sourcesUsage}", ""] ++
      optionLines place
  | some .inspect =>
    [Command.inspect.about, "", s!"Usage: {programName} inspect [OPTIONS]", ""] ++
      optionLines place

def versionLine : String := s!"{programName} 0.1.0"

end ModelScoring.CommandLine
