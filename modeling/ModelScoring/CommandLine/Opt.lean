/-!
# Options

The program has two commands.  Some options stand before or behind a command, and each command has
options of its own.  Every option has a long name, and most have a short one of one letter.  An
option either stands alone or takes a value, and most may be given once only.
-/

namespace ModelScoring.CommandLine

inductive Command
  | run
  | inspect
  deriving DecidableEq, Repr

def Command.name : Command → String
  | run => "run"
  | inspect => "inspect"

def Command.about : Command → String
  | run => "Score one or more input rows and print the results"
  | inspect => "Print a model's metadata, constants and scripts"

inductive Opt
  | config
  | verbose
  | model
  | input
  | inputFile
  | ramp
  | outputs
  | json
  | noProfile
  | help
  | version
  deriving DecidableEq, Repr

inductive Takes
  | nothing
  /-- A path, which is not empty. -/
  | path
  /-- A text, which may look like an option. -/
  | anything
  /-- Names with commas between them. -/
  | names
  deriving DecidableEq, Repr

namespace Opt

def long : Opt → String
  | config => "config"
  | verbose => "verbose"
  | model => "model"
  | input => "input"
  | inputFile => "input-file"
  | ramp => "ramp"
  | outputs => "outputs"
  | json => "json"
  | noProfile => "no-profile"
  | help => "help"
  | version => "version"

def short? : Opt → Option Char
  | config => some 'c'
  | verbose => some 'v'
  | model => some 'm'
  | input => some 'i'
  | outputs => some 'o'
  | help => some 'h'
  | version => some 'V'
  | inputFile | ramp | json | noProfile => none

def takes : Opt → Takes
  | config | model | inputFile => .path
  | input => .anything
  | outputs => .names
  | verbose | ramp | json | noProfile | help | version => .nothing

/-- Whether it may be given more than once. -/
def repeats : Opt → Bool
  | verbose | outputs => true
  | _ => false

def about : Opt → String
  | config => "Path to a TOML configuration file (CLI arguments take precedence)"
  | verbose => "Enable verbose logging (repeat for more: -v, -vv, -vvv)"
  | model => "Path to the model XML document"
  | input => "A single comma-separated input row"
  | inputFile => "A CSV file with one input row per line"
  | ramp => "Score the row 1, 2, ..., n for a width-n model"
  | outputs => "Comma-separated result names to report (default: all)"
  | json => "Print results as JSON"
  | noProfile => "Skip per-step timing"
  | help => "Print help"
  | version => "Print version"

/-- The long form, with the name of the value if it takes one. -/
def usage (o : Opt) : String :=
  let value := String.ofList (o.long.toList.map fun c => if c = '-' then '_' else c.toUpper)
  if o.takes = .nothing then "--" ++ o.long else s!"--{o.long} <{value}>"

/-- The options behind a command, or before any. -/
def allowed : Option Command → List Opt
  | none => [config, verbose, help, version]
  | some .run =>
    [model, input, config, inputFile, verbose, ramp, outputs, json, noProfile, help]
  | some .inspect => [model, config, verbose, help]

/-- The options of which a run has exactly one. -/
def sources : List Opt := [input, inputFile, ramp]

/-- How the options of which a run has exactly one are shown. -/
def sourcesUsage : String := "<" ++ String.intercalate "|" (sources.map usage) ++ ">"

/-- The option with a long name. -/
def ofLong? (place : Option Command) (name : String) : Option Opt :=
  (allowed place).find? fun o => o.long = name

/-- The option with a short name. -/
def ofShort? (place : Option Command) (letter : Char) : Option Opt :=
  (allowed place).find? fun o => o.short? = some letter

end Opt

end ModelScoring.CommandLine
