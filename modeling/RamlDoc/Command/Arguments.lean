import RamlDoc.Text.Blank

/-!
# Arguments

The arguments of the command line: options that hold for all commands, the name of a command, and the
options of the command. An option is written `--name value` or `--name=value`, one with a letter also
`-n value`, `-nvalue` or `-n=value`. An option that takes many values takes all arguments up to the
next option, unless its value is written behind it. Behind two hyphens nothing is an option.
-/

namespace RamlDoc.Command

/-- How many values an option takes. -/
inductive Arity where
  | none
  | one
  | many
deriving DecidableEq, Repr

/-- An option of the command line. -/
structure Switch where
  name : String
  letter : Option Char
  arity : Arity
deriving DecidableEq, Repr

/-- Why the arguments make no request. -/
inductive UsageError where
  | unknownArgument (argument : String)
  | unknownCommand (name : String)
  | missingCommand
  | missingValue (name : String)
  | unneededValue (name : String)
  | repeated (name : String)
  | missingOption (name : String)
  | invalidValue (name value : String)
deriving DecidableEq, Repr

/-- The wording of the error. -/
def UsageError.message : UsageError → String
  | .unknownArgument argument => "unexpected argument '" ++ argument ++ "' found"
  | .unknownCommand name => "unrecognized subcommand '" ++ name ++ "'"
  | .missingCommand => "a subcommand is required"
  | .missingValue name => "a value is required for '--" ++ name ++ "' but none was supplied"
  | .unneededValue name => "no value is expected for '--" ++ name ++ "'"
  | .repeated name => "the argument '--" ++ name ++ "' cannot be used multiple times"
  | .missingOption name => "the required argument '--" ++ name ++ "' was not provided"
  | .invalidValue name value => "invalid value '" ++ value ++ "' for '--" ++ name ++ "'"

/-- What ends the reading of arguments early. -/
inductive Halt where
  | usage (error : UsageError)
  | help
  | version
deriving DecidableEq, Repr

/-- The options that have been read: each with its values, in order. -/
abbrev Found := List (String × List String)

/-- The forms of validation reports. -/
inductive ReportFormat where
  | text
  | json
deriving DecidableEq, Repr

/-- The commands. -/
inductive Action where
  /-- Reads documents and reports whether they are valid. -/
  | validate (files : List String) (format : ReportFormat)
  /-- Prints the model of a document, with defaults if they are wanted. -/
  | dump (file : String) (defaults : Bool)
deriving DecidableEq, Repr

/-- What the arguments ask for. -/
structure Invocation where
  logLevel : Option String
  logFormat : Option String
  action : Action
deriving DecidableEq, Repr

namespace Arguments

/-- The forms of an argument. -/
inductive Form where
  /-- Two hyphens. -/
  | separator
  /-- A name behind two hyphens, perhaps with a value. -/
  | long (name : String) (value : Option String)
  /-- A letter behind a hyphen, perhaps with a value. -/
  | short (letter : Char) (value : Option String)
  | plain
deriving DecidableEq, Repr

/-- A text cut at its first equals sign. -/
def cutValue : List Char → List Char × Option (List Char)
  | [] => ([], none)
  | c :: rest =>
    if c = '=' then ([], some rest)
    else
      let (name, value) := cutValue rest
      (c :: name, value)

/-- The form of an argument. -/
def formOf (argument : String) : Form :=
  match argument.toList with
  | ['-', '-'] => .separator
  | '-' :: '-' :: rest =>
    let (name, value) := cutValue rest
    .long (String.ofList name) (value.map String.ofList)
  | ['-', letter] => .short letter none
  | '-' :: letter :: '=' :: value => .short letter (some (String.ofList value))
  | '-' :: letter :: value => .short letter (some (String.ofList value))
  | _ => .plain

/-- The switch for help, which every command has. -/
def helpSwitch : Switch := ⟨"help", some 'h', .none⟩

/-- The switch for the version. -/
def versionSwitch : Switch := ⟨"version", some 'V', .none⟩

/-- The options that hold for all commands. -/
def globalSwitches : List Switch :=
  [⟨"log-level", none, .one⟩, ⟨"log-format", none, .one⟩, helpSwitch]

/-- The options before a command. -/
def rootSwitches : List Switch := globalSwitches ++ [versionSwitch]

/-- The options of `validate`. -/
def validateSwitches : List Switch :=
  globalSwitches ++ [⟨"file", some 'f', .many⟩, ⟨"format", none, .one⟩]

/-- The options of `dump`. -/
def dumpSwitches : List Switch :=
  globalSwitches ++ [⟨"file", some 'f', .one⟩, ⟨"defaults", none, .none⟩]

/-- An option that still takes values, with those it has. -/
abbrev Pending := Option (Switch × List String)

/-- The options with one more; only an option of many values may be given again. -/
def add (found : Found) (switch : Switch) (values : List String) : Except Halt Found :=
  if switch.arity ≠ .many && found.any fun option => option.1 = switch.name then
    .error (.usage (.repeated switch.name))
  else .ok (found ++ [(switch.name, values)])

/-- The options with the pending one, which must have a value. -/
def settle (pending : Pending) (found : Found) : Except Halt Found :=
  match pending with
  | none => .ok found
  | some (switch, []) => .error (.usage (.missingValue switch.name))
  | some (switch, values) => add found switch values

/-- Reads an option without a value: help and the version are given at once. -/
def readFlag (switch : Switch) (found : Found) : Except Halt Found :=
  if switch = helpSwitch then .error .help
  else if switch = versionSwitch then .error .version
  else add found switch []

/-- Reads an option, with the value written behind it. -/
def readSwitch (switch : Switch) (value : Option String) (found : Found) :
    Except Halt (Pending × Found) := do
  match switch.arity, value with
  | .none, none => return (none, ← readFlag switch found)
  | .none, some _ => throw (.usage (.unneededValue switch.name))
  | _, some value => return (none, ← add found switch [value])
  | _, none => return (some (switch, []), found)

/-- What one level of options leads to: the options, and the first plain argument with those behind
it. -/
structure Section where
  found : Found
  rest : List String
deriving DecidableEq, Repr

/-- Reads options up to the first plain argument that is no value. -/
def readSection (switches : List Switch) (pending : Pending) (found : Found) :
    List String → Except Halt Section
  | [] => return ⟨← settle pending found, []⟩
  | argument :: rest =>
    match formOf argument with
    | .separator => do
      let found ← settle pending found
      match rest with
      | [] => return ⟨found, []⟩
      | argument :: _ => throw (.usage (.unknownArgument argument))
    | .long name value => do
      let found ← settle pending found
      match switches.find? fun switch => switch.name = name with
      | none => throw (.usage (.unknownArgument argument))
      | some switch =>
        let (pending, found) ← readSwitch switch value found
        readSection switches pending found rest
    | .short letter value => do
      let found ← settle pending found
      match switches.find? fun switch => switch.letter = some letter with
      | none => throw (.usage (.unknownArgument argument))
      | some switch =>
        let value := if switch.arity = .none then none else value
        let (pending, found) ← readSwitch switch value found
        readSection switches pending found rest
    | .plain =>
      match pending with
      | none => return ⟨found, argument :: rest⟩
      | some (switch, values) =>
        if switch.arity = .many then
          readSection switches (some (switch, values ++ [argument])) found rest
        else do readSection switches none (← add found switch (values ++ [argument])) rest

/-- The values of an option. -/
def values (found : Found) (name : String) : List String :=
  (found.filter fun option => option.1 = name).flatMap Prod.snd

/-- The value of an option that takes one. -/
def value? (found : Found) (name : String) : Option String := (values found name).head?

/-- The report format of a name. -/
def formatOf : Option String → Except Halt ReportFormat
  | none => .ok .text
  | some "text" => .ok .text
  | some "json" => .ok .json
  | some name => .error (.usage (.invalidValue "format" name))

/-- The options of a command, which takes no plain arguments. -/
def commandOptions (switches : List Switch) (arguments : List String) : Except Halt Found := do
  let level ← readSection switches none [] arguments
  match level.rest with
  | [] => return level.found
  | argument :: _ => throw (.usage (.unknownArgument argument))

/-- Reads the command. -/
def readAction (name : String) (arguments : List String) : Except Halt (Found × Action) :=
  match name with
  | "validate" => do
    let found ← commandOptions validateSwitches arguments
    let format ← formatOf (value? found "format")
    match values found "file" with
    | [] => throw (.usage (.missingOption "file"))
    | files => return (found, .validate files format)
  | "dump" => do
    let found ← commandOptions dumpSwitches arguments
    match value? found "file" with
    | none => throw (.usage (.missingOption "file"))
    | some file => return (found, .dump file (found.any fun option => option.1 = "defaults"))
  | "help" =>
    match arguments with
    | [] | ["validate"] | ["dump"] | ["help"] => .error .help
    | argument :: _ => .error (.usage (.unknownCommand argument))
  | name => .error (.usage (.unknownCommand name))

/-- Reads the arguments. An option for all commands that is given behind the command takes precedence
over one before it. -/
def read (arguments : List String) : Except Halt Invocation := do
  let level ← readSection rootSwitches none [] arguments
  match level.rest with
  | [] => throw (.usage .missingCommand)
  | name :: arguments =>
    let (found, action) ← readAction name arguments
    let logLevel := (value? found "log-level").or (value? level.found "log-level")
    let logFormat := (value? found "log-format").or (value? level.found "log-format")
    return { logLevel, logFormat, action }

end Arguments

end RamlDoc.Command
