import RamlDoc.Command.Arguments
import RamlDoc.Command.LogFilter
import RamlDoc.Command.Report
import RamlDoc.Defaults.Document
import RamlDoc.Json.Model
import RamlDoc.Read.Document

/-!
# Running commands

A run of the command line as a function of the arguments and of what surrounds it: the working
directory, the files and the settings. It yields the exit code and the texts of both output streams.
Log records and reports share the second stream, in the order in which they arise.
-/

namespace RamlDoc.Command

/-- The name of the program. -/
def programName : String := "raml"

/-- The version of the program. -/
def version : String := "0.3.1"

/-- What surrounds a run. -/
structure Environment where
  directory : Path
  files : FileSystem
  setting? : String → Option String

/-- What a run yields. The texts are given line by line. -/
structure Outcome where
  code : Nat
  output : List String := []
  diagnostics : List String := []
deriving DecidableEq, Repr

/-- What is logged, and how. -/
structure Log where
  filter : LogFilter
  format : LogFormat

namespace Log

/-- The lines of a log for some records. -/
def lines (log : Log) (records : List LogRecord) : List String :=
  (records.filter log.filter.shows).map fun record =>
    match log.format with
    | .pretty => record.line
    | .json => record.jsonLine

end Log

/-- The record of something that the program itself does. -/
def programRecord (event : String) (fields : List (String × FieldValue)) : LogRecord :=
  ⟨.info, programName, none,
    ("event", some (.quoted event)) :: fields.map fun (name, value) => (name, some value)⟩

/-- The record of the start of a run. -/
def startRecord : LogRecord :=
  programRecord "startup" [("service", .bare programName), ("version", .quoted version)]

/-- The record of what came of a document. -/
def verdictRecord (file : String) (result : Except Error Document) : LogRecord :=
  match result with
  | .ok document =>
    programRecord "document_parsed"
      [("file", .bare file), ("title", .bare document.title),
        ("resources", .natural document.resourcesDepthFirst.length)]
  | .error error =>
    programRecord "validation_failure"
      [("file", .bare file), ("code", .quoted error.code), ("error", .bare error.message)]

namespace Environment

/-- Reads the document in a file. -/
def readFile (environment : Environment) (file : String) : Reading Document :=
  Document.ofFile environment.files (environment.directory.join file)

/-- What is said about the document in a file, with the log of reading it. -/
def judge (environment : Environment) (log : Log) (file : String) : Verdict × List String :=
  let reading := environment.readFile file
  let outcome :=
    match reading.result with
    | .ok document => .ok document.title
    | .error error => .error (Issue.ofError error)
  (⟨file, outcome⟩,
    log.lines (reading.events.map recordOf ++ [verdictRecord file reading.result]))

/-- Validates the documents in files. -/
def validate (environment : Environment) (log : Log) (files : List String)
    (format : ReportFormat) : Outcome :=
  let judged := files.map (environment.judge log)
  let verdicts := judged.map Prod.fst
  let logged := judged.flatMap Prod.snd
  let code := if verdicts.all Verdict.isValid then 0 else 1
  match format with
  | .json => { code, output := [(reportJson verdicts).pretty], diagnostics := logged }
  | .text => { code, diagnostics := logged ++ reportLines verdicts }

/-- Prints the model of the document in a file. -/
def dump (environment : Environment) (log : Log) (file : String) (defaults : Bool) : Outcome :=
  let reading := environment.readFile file
  let logged := log.lines (reading.events.map recordOf)
  match reading.result with
  | .error error => { code := 1, diagnostics := logged ++ ["error: " ++ error.message] }
  | .ok document =>
    match (if defaults then document.defaulted else document).toJson with
    | .error error =>
      { code := 1
        diagnostics :=
          logged ++ ["error: failed to serialize " ++ file ++ ": " ++ error.message] }
    | .ok json =>
      let record := programRecord "document_dumped"
        [("file", .bare file), ("defaults", .boolean defaults)]
      { code := 0, output := [json.pretty], diagnostics := logged ++ log.lines [record] }

/-- Carries out a command. -/
def perform (environment : Environment) (log : Log) : Action → Outcome
  | .validate files format => environment.validate log files format
  | .dump file defaults => environment.dump log file defaults

/-- The filter of a run: the one in a variable, if it can be read, else the one of a level. -/
def filter? (environment : Environment) (level : String) : Option LogFilter :=
  ((environment.setting? "RUST_LOG").bind LogFilter.read?).or (LogFilter.read? level)

/-- Runs what the arguments ask for. -/
def invoke (environment : Environment) (invocation : Invocation) : Outcome :=
  let level := (invocation.logLevel.or (environment.setting? "RAML_LOG_LEVEL")).getD "warn"
  let formatName :=
    (invocation.logFormat.or (environment.setting? "RAML_LOG_FORMAT")).getD "pretty"
  match LogFormat.ofName? formatName with
  | none =>
    { code := 2
      diagnostics :=
        ["error: invalid log format '" ++ formatName ++ "' (expected pretty or json)"] }
  | some format =>
    match environment.filter? level with
    | none => { code := 2, diagnostics := ["error: invalid log level: " ++ level] }
    | some filter =>
      let log : Log := { filter, format }
      let outcome := environment.perform log invocation.action
      { outcome with diagnostics := log.lines [startRecord] ++ outcome.diagnostics }

end Environment

/-- How the program is used. -/
def usage : List String :=
  ["RAML 1.0 validator and model dumper", "", "Usage: raml [OPTIONS] <COMMAND>", "",
    "Commands:", "  validate  Parse RAML document(s) and report whether they are valid",
    "  dump      Print the parsed document model as JSON",
    "  help      Print this message", "", "Options:",
    "      --log-level <LOG_LEVEL>    Log level filter, overridden by RUST_LOG",
    "      --log-format <LOG_FORMAT>  Log format (pretty or json)",
    "  -h, --help                     Print help", "  -V, --version                  Print version"]

/-- Runs the command line. -/
def run (environment : Environment) (arguments : List String) : Outcome :=
  match Arguments.read arguments with
  | .ok invocation => environment.invoke invocation
  | .error .help => { code := 0, output := usage }
  | .error .version => { code := 0, output := [programName ++ " " ++ version] }
  | .error (.usage error) => { code := 2, diagnostics := ["error: " ++ error.message] }

end RamlDoc.Command
