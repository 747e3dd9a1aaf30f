import RamlDoc.Json.Value
import RamlDoc.Event
import RamlDoc.Text.Quoted

/-!
# Log records

A log record has a level, a target that says which part of the program writes it, perhaps a message,
and named fields. It is shown as a line of text or as a JSON object on one line.
-/

namespace RamlDoc.Command

open Yaml

/-- The levels of log records, the gravest first. -/
inductive Level where
  | error
  | warn
  | info
  | debug
  | trace
deriving DecidableEq, Repr

namespace Level

/-- All levels. -/
def all : List Level := [.error, .warn, .info, .debug, .trace]

/-- The name of a level. -/
def name : Level → String
  | .error => "ERROR"
  | .warn => "WARN"
  | .info => "INFO"
  | .debug => "DEBUG"
  | .trace => "TRACE"

/-- How detailed a level is: 1 for errors, 5 for traces. -/
def detail : Level → Nat
  | .error => 1
  | .warn => 2
  | .info => 3
  | .debug => 4
  | .trace => 5

end Level

/-- The value of a field. -/
inductive FieldValue where
  /-- A text that stands in quotes in a line of text. -/
  | quoted (text : String)
  /-- A text that stands as it is in a line of text. -/
  | bare (text : String)
  | natural (n : Nat)
  | boolean (b : Bool)
deriving DecidableEq, Repr

namespace FieldValue

/-- The value in a line of text. -/
def text : FieldValue → String
  | .quoted text => Text.quoted text
  | .bare text => text
  | .natural n => toString n
  | .boolean b => toString b

/-- The value in a JSON object. -/
def toJson : FieldValue → Json
  | .quoted text | .bare text => .string text
  | .natural n => .integer n
  | .boolean b => .bool b

end FieldValue

/-- A log record. A field without a value is known to filters but not shown. -/
structure LogRecord where
  level : Level
  target : String
  message : Option String
  fields : List (String × Option FieldValue)
deriving DecidableEq, Repr

namespace LogRecord

/-- The names that a filter may ask for. -/
def names (record : LogRecord) : List String :=
  (record.message.map fun _ => "message").toList ++ record.fields.map Prod.fst

/-- The fields that have a value. -/
def shown (record : LogRecord) : List (String × FieldValue) :=
  record.fields.filterMap fun (name, value) => value.map (name, ·)

/-- A level with blanks before it to the width of the longest. -/
def padded (level : Level) : String :=
  String.ofList (List.replicate (5 - level.name.length) ' ') ++ level.name

/-- The record as a line of text. -/
def line (record : LogRecord) : String :=
  let parts := record.message.toList ++
    record.shown.map fun (name, value) => name ++ "=" ++ value.text
  padded record.level ++ " " ++ record.target ++ ": " ++ String.intercalate " " parts

/-- The record as a JSON object on one line. -/
def jsonLine (record : LogRecord) : String :=
  Json.render <| .object <|
    [("level", .string record.level.name)] ++
    (record.message.map fun message => ("message", Json.string message)).toList ++
    record.shown.map (fun (name, value) => (name, value.toJson)) ++
    [("target", .string record.target)]

end LogRecord

mutual

/-- A YAML value as log records show it. -/
def treeText : Tree → String
  | .null => "Null"
  | .bool b => "Bool(" ++ toString b ++ ")"
  | .number n => "Number(" ++ n.text ++ ")"
  | .string s => "String(" ++ Text.quoted s ++ ")"
  | .sequence items => "Sequence [" ++ String.intercalate ", " (itemTexts items) ++ "]"
  | .mapping entries => "Mapping \x7b" ++ String.intercalate ", " (entryTexts entries) ++ "\x7d"
  | .tagged tag value => "TaggedValue \x7b tag: !" ++ tag ++ ", value: " ++ treeText value ++ " \x7d"

/-- The items of a sequence as log records show them. -/
def itemTexts : List Tree → List String
  | [] => []
  | item :: items => treeText item :: itemTexts items

/-- The entries of a mapping as log records show them; scalar keys are not marked with their
kind. -/
def entryTexts : List (Tree × Tree) → List String
  | [] => []
  | (key, value) :: entries =>
    let keyText :=
      match key with
      | .bool b => toString b
      | .number n => n.text
      | .string s => Text.quoted s
      | key => treeText key
    (keyText ++ ": " ++ treeText value) :: entryTexts entries

end

/-- The log record of an event. -/
def recordOf : Event → LogRecord
  | .textFixed emptyKeys quotedDecimals =>
    ⟨.trace, "raml_parser::preprocess", some "preprocessed document text",
      [("empty_keys", some (.natural emptyKeys)),
        ("quoted_decimals", some (.natural quotedDecimals))]⟩
  | .documentStarted file =>
    ⟨.debug, "raml_parser::parser", some "parsing RAML document",
      [("file", file.map fun path => .quoted path.text)]⟩
  | .includeResolved target path fragment depth =>
    ⟨.debug, "raml_parser::include", some "resolved include",
      [("include", some (.quoted target)), ("path", some (.bare path.text)),
        ("fragment", fragment.map fun kind => .quoted kind.identifier),
        ("depth", some (.natural depth))]⟩
  | .textIncludeResolved target path =>
    ⟨.debug, "raml_parser::include", some "resolved text include",
      [("include", some (.quoted target)), ("path", some (.bare path.text))]⟩
  | .statusKeySkipped key =>
    ⟨.trace, "raml_parser::parser::http", some "skipping non-status key in responses",
      [("key", some (.bare (treeText key)))]⟩
  | .documentRead title resources libraries =>
    ⟨.debug, "raml_parser::parser", some "parsed RAML document",
      [("title", some (.bare title)), ("resources", some (.natural resources)),
        ("libraries", some (.natural libraries))]⟩

end RamlDoc.Command
