import RamlDoc.Error
import RamlDoc.Json.Value
import RamlDoc.Text.Blank

/-!
# Validation reports

What `validate` says about each document: that it is valid and how it is called, or what is wrong
with it. A report is written as text or as JSON with the members of each object in alphabetical
order.
-/

namespace RamlDoc.Command

/-- What is wrong with a document. -/
structure Issue where
  code : String
  message : String
  /-- The code of the error inside named declarations, if the error is inside any. -/
  cause : Option String
deriving DecidableEq, Repr

/-- The issue that an error makes. The text of the error loses its code and the colon behind it, if
it begins with them. -/
def Issue.ofError (error : Error) : Issue :=
  let behindCode := (Text.afterStart? error.code.toList error.message.toList).bind
    (Text.afterStart? ": ".toList)
  ⟨error.code, (behindCode.map String.ofList).getD error.message, error.causeCode?⟩

/-- The code and the message of an issue make up the text of the error. -/
theorem Issue.code_append_message (error : Error) :
    (ofError error).code ++ ": " ++ (ofError error).message = error.message := by
  obtain ⟨rest, hrest⟩ := error.code_prefix_message
  have hcode : Text.afterStart? error.code.toList error.message.toList =
      some (": ".toList ++ rest) :=
    Text.afterStart?_eq_some.2 (by rw [← hrest, List.append_assoc])
  have hcolon : Text.afterStart? ": ".toList (": ".toList ++ rest) = some rest :=
    Text.afterStart?_eq_some.2 rfl
  have hmessage : (ofError error).message = String.ofList rest := by
    unfold ofError
    rw [hcode, Option.bind_some, hcolon]
    rfl
  have hsame : (ofError error).code = error.code := rfl
  rw [hsame, hmessage, ← String.toList_inj, ← hrest]
  simp only [String.toList_append, String.toList_ofList]

/-- What is said about a document: its title, or an issue. -/
structure Verdict where
  file : String
  outcome : Except Issue String

namespace Verdict

/-- Whether the document is valid. -/
def isValid (verdict : Verdict) : Bool := verdict.outcome.isOk

end Verdict

/-- How many documents are valid. -/
def validCount (verdicts : List Verdict) : Nat := verdicts.countP Verdict.isValid

/-- An issue as a line of text. -/
def Issue.line (issue : Issue) : String :=
  let cause := (issue.cause.map fun cause => " (" ++ cause ++ ")").getD ""
  "  " ++ issue.code ++ cause ++ ": " ++ issue.message

/-- The lines of text about a document. -/
def Verdict.lines (verdict : Verdict) : List String :=
  match verdict.outcome with
  | .ok _ => ["✓ " ++ verdict.file ++ " is valid"]
  | .error issue => ["✗ " ++ verdict.file ++ " has 1 error(s)", issue.line]

/-- The lines of a report. -/
def reportLines (verdicts : List Verdict) : List String :=
  let total := verdicts.length
  let valid := validCount verdicts
  verdicts.flatMap Verdict.lines ++
    ["", "validated " ++ toString total ++ " file(s): " ++ toString valid ++ " valid, " ++
      toString (total - valid) ++ " invalid"]

/-- An issue as JSON. -/
def Issue.toJson (issue : Issue) : Json :=
  .object <|
    (issue.cause.map fun cause => ("cause", Json.string cause)).toList ++
    [("code", .string issue.code), ("message", .string issue.message)]

/-- What is said about a document, as JSON. -/
def Verdict.toJson (verdict : Verdict) : Json :=
  match verdict.outcome with
  | .ok title =>
    .object
      [("errors", .array []), ("file", .string verdict.file), ("title", .string title),
        ("valid", .bool true)]
  | .error issue =>
    .object
      [("errors", .array [issue.toJson]), ("file", .string verdict.file), ("valid", .bool false)]

/-- A report as JSON. -/
def reportJson (verdicts : List Verdict) : Json :=
  let total := verdicts.length
  let valid := validCount verdicts
  .object
    [("results", .array (verdicts.map Verdict.toJson)),
      ("summary", .object
        [("invalid", .integer (total - valid : Nat)), ("total", .integer total),
          ("valid", .integer valid)])]

end RamlDoc.Command
