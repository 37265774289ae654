import ModelScoring.CommandLine.Opt
import ModelScoring.Scoring.Rows

/-!
# Arguments

Arguments are read from left to right.  Options that stand before the command are read first, then
the command, then those behind it.  A value stands behind its option, in the same argument or in
the next one.  Short options that take nothing may share an argument.

The first argument that does not fit ends the reading, and so does a request for help or for the
version.  Only then is it looked at whether something is missing or one option excludes another.
-/

namespace ModelScoring.CommandLine

/-- What a run is asked to do. -/
structure RunRequest where
  /-- The file with the settings. -/
  config : Option String
  /-- The file with the model. -/
  model : Option String
  /-- Where the rows come from. -/
  source : RowSource
  /-- The variables to report. -/
  outputs : List String
  json : Bool
  noProfile : Bool
  deriving DecidableEq, Repr

/-- What the program is asked to do. -/
inductive Request
  | run (request : RunRequest)
  | inspect (config model : Option String)
  | help (place : Option Command)
  | version
  deriving DecidableEq, Repr

inductive UsageError
  /-- An argument has no meaning in its place. -/
  | unexpected (argument : String)
  /-- A word is no command. -/
  | unknownCommand (word : String)
  /-- An option has no value and takes one. -/
  | valueMissing (o : Opt)
  /-- An option has a value and takes none. -/
  | valueUnexpected (o : Opt) (value : String)
  /-- An option is given again. -/
  | repeated (o : Opt)
  /-- Two options exclude each other. -/
  | conflict (o other : Opt)
  /-- There is no source of rows. -/
  | noSource
  /-- There is no command. -/
  | noCommand
  deriving DecidableEq, Repr

def UsageError.message : UsageError → String
  | unexpected argument => s!"unexpected argument '{argument}' found"
  | unknownCommand word => s!"unrecognized subcommand '{word}'"
  | valueMissing o => s!"a value is required for '{o.usage}' but none was supplied"
  | valueUnexpected o value =>
    s!"unexpected value '{value}' for '{o.usage}' found; no more were expected"
  | repeated o => s!"the argument '{o.usage}' cannot be used multiple times"
  | conflict o other => s!"the argument '{o.usage}' cannot be used with '{other.usage}'"
  | noSource => s!"the following required arguments were not provided:\n  {Opt.sourcesUsage}"
  | noCommand => "'mescore' requires a subcommand but one was not provided"

/-! ## One argument -/

inductive Token
  /-- An option that stands alone. -/
  | alone (o : Opt)
  /-- An option with its value. -/
  | valued (o : Opt) (value : String)
  /-- An option whose value is the next argument. -/
  | awaiting (o : Opt)
  /-- An option that takes nothing, with a value. -/
  | overloaded (o : Opt) (value : String)
  /-- Something else. -/
  | stray (argument : String)
  deriving DecidableEq, Repr

/-- The pieces of an argument made of short options, from its letters. -/
def shortTokens (place : Option Command) : List Char → List Token
  | [] => []
  | letter :: rest =>
    match Opt.ofShort? place letter with
    | none => [.stray (String.ofList ['-', letter])]
    | some o =>
      if o.takes = .nothing then .alone o :: shortTokens place rest
      else
        match rest with
        | [] => [.awaiting o]
        | '=' :: value => [.valued o (String.ofList value)]
        | value => [.valued o (String.ofList value)]

/-- The piece that an argument with a long option is, from its text behind the hyphens. -/
def longToken (place : Option Command) (cs : List Char) : Token :=
  let name := String.ofList (cs.takeWhile (· != '='))
  match Opt.ofLong? place name, cs.dropWhile (· != '=') with
  | none, _ => .stray ("--" ++ name)
  | some o, [] => if o.takes = .nothing then .alone o else .awaiting o
  | some o, _ :: value =>
    if o.takes = .nothing then .overloaded o (String.ofList value)
    else .valued o (String.ofList value)

def tokens (place : Option Command) (argument : String) : List Token :=
  match argument.toList with
  | '-' :: '-' :: cs => [longToken place cs]
  | '-' :: c :: cs => shortTokens place (c :: cs)
  | _ => [.stray argument]

/-! ## All arguments -/

/-- Why the reading of arguments ends before their end. -/
inductive Stop
  /-- An argument does not fit. -/
  | misused (e : UsageError)
  /-- What is asked for is clear. -/
  | clear (request : Request)
  deriving DecidableEq, Repr

/-- The options that were given, with their values, in order. -/
abbrev Given := List (Opt × String)

/-- Adds an option and its value. -/
def give (given : Given) (o : Opt) (value : String) : Except Stop Given :=
  if !o.repeats && given.any (·.1 == o) then .error (.misused (.repeated o))
  else if o.takes = .path ∧ value = "" then .error (.misused (.valueMissing o))
  else .ok (given ++ [(o, value)])

/-- Adds the pieces of an argument: the options given so far, and the one that awaits its value. -/
def giveTokens (place : Option Command) : Given → List Token → Except Stop (Given × Option Opt)
  | given, [] => .ok (given, none)
  | _, .stray argument :: _ =>
    let word := place.isNone && argument.toList.head? != some '-'
    .error (.misused (if word then .unknownCommand argument else .unexpected argument))
  | _, .overloaded o value :: _ => .error (.misused (.valueUnexpected o value))
  | given, .awaiting o :: _ => .ok (given, some o)
  | given, .valued o value :: rest =>
    match give given o value with
    | .error stop => .error stop
    | .ok given => giveTokens place given rest
  | given, .alone o :: rest =>
    match o with
    | .help => .error (.clear (.help place))
    | .version => .error (.clear .version)
    | o =>
      match give given o "" with
      | .error stop => .error stop
      | .ok given => giveTokens place given rest

/-- Whether an argument may be the value of the option before it. -/
def mayFollow (o : Opt) (argument : String) : Bool :=
  o.takes == .anything || argument.toList.head? != some '-' || argument == "-"

/-- What was found among arguments: options, and a word that is no option with all behind it. -/
structure Found where
  given : Given
  /-- The word, and the arguments behind it. -/
  rest : Option (String × List String)

/-- Reads arguments up to a word that `ends` accepts; one option may await its value.  Nothing may
follow two hyphens. -/
def scan (place : Option Command) (ends : String → Bool) :
    Given → Option Opt → List String → Except Stop Found
  | given, none, [] => .ok ⟨given, none⟩
  | _, some o, [] => .error (.misused (.valueMissing o))
  | given, some o, argument :: rest =>
    if mayFollow o argument then
      match give given o argument with
      | .error stop => .error stop
      | .ok given => scan place ends given none rest
    else .error (.misused (.valueMissing o))
  | given, none, argument :: rest =>
    if ends argument then .ok ⟨given, some (argument, rest)⟩
    else if argument = "--" then
      match rest with
      | [] => .ok ⟨given, none⟩
      | extra :: _ => .error (.misused (.unexpected extra))
    else
      match giveTokens place given (tokens place argument) with
      | .error stop => .error stop
      | .ok (given, awaiting) => scan place ends given awaiting rest

/-- The value of an option that was given. -/
def Given.value? (given : Given) (o : Opt) : Option String := given.lookup o

def Given.has (given : Given) (o : Opt) : Bool := given.any (·.1 == o)

/-- The names that were given, the texts of the option cut at the commas. -/
def Given.names (given : Given) : List String :=
  (given.filter (·.1 == .outputs)).flatMap fun item =>
    (item.2.toList.splitOnP (· == ',')).map String.ofList

/-- The source of rows that was given. -/
def Given.source (given : Given) : Except Stop RowSource :=
  match Opt.sources.filter given.has with
  | [] => .error (.misused .noSource)
  | [.input] => .ok (.line ((given.value? .input).getD ""))
  | [.inputFile] => .ok (.file ((given.value? .inputFile).getD ""))
  | [_] => .ok .ramp
  | o :: other :: _ => .error (.misused (.conflict o other))

/-- The request that a command and its options are.  The settings may be named before the command
or behind it, and what stands behind it counts. -/
def Command.request (command : Command) (before behind : Given) : Except Stop Request :=
  let config := (behind.value? .config).or (before.value? .config)
  match command with
  | .inspect => .ok (.inspect config (behind.value? .model))
  | .run =>
    behind.source.map fun source =>
      .run
        { config := config
          model := behind.value? .model
          source := source
          outputs := behind.names
          json := behind.has .json
          noProfile := behind.has .noProfile }

/-- The word that asks for help. -/
def helpWord : String := "help"

def Command.ofName? (name : String) : Option Command :=
  [Command.run, .inspect].find? fun command => command.name = name

/-- The request for help on what the words name. -/
def helpOn : List String → Except Stop Request
  | [] => .ok (.help none)
  | [word] =>
    match Command.ofName? word with
    | some command => .ok (.help (some command))
    | none =>
      if word = helpWord then .ok (.help none) else .error (.misused (.unknownCommand word))
  | _ :: word :: _ => .error (.misused (.unknownCommand word))

/-- Reads arguments, unless the reading ends early. -/
def readArguments (arguments : List String) : Except Stop Request :=
  let isWord := fun word => (Command.ofName? word).isSome || word == helpWord
  match scan none isWord [] none arguments with
  | .error stop => .error stop
  | .ok ⟨_, none⟩ => .error (.misused .noCommand)
  | .ok ⟨before, some (word, rest)⟩ =>
    match Command.ofName? word with
    | none => helpOn rest
    | some command =>
      match scan (some command) (fun _ => false) [] none rest with
      | .error stop => .error stop
      | .ok behind => command.request before behind.given

def Request.ofArguments (arguments : List String) : Except UsageError Request :=
  match readArguments arguments with
  | .ok request => .ok request
  | .error (.clear request) => .ok request
  | .error (.misused e) => .error e

example : Request.ofArguments ["-c", "a", "inspect", "-vc=b", "--model", "m"] =
    .ok (.inspect (some "b") (some "m")) := by rfl

example : Request.ofArguments ["run", "-i", "--ramp", "--ramp"] =
    .error (.conflict .input .ramp) := by rfl

example : Request.ofArguments ["run", "--ramp", "--ramp", "--help"] =
    .error (.repeated .ramp) := by rfl

end ModelScoring.CommandLine
