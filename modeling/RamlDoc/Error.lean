import RamlDoc.Files.Path
import RamlDoc.Text.Quoted
import RamlDoc.Yaml.ReadError

/-!
# Errors

The causes for which a document cannot be read, each with a stable code and a wording. A cause that
arises inside a named declaration is wrapped once for each declaration around it;
`Error.rootCause` strips the wrappers.
-/

namespace RamlDoc

/-- The kind that the header of an included fragment declares. -/
inductive FragmentKind where
  | library
  | trait
  | resourceType
  | securityScheme
deriving DecidableEq, Repr

namespace FragmentKind

/-- All fragment kinds. -/
def all : List FragmentKind := [.library, .trait, .resourceType, .securityScheme]

/-- The identifier behind the version in a fragment's header. -/
def identifier : FragmentKind → String
  | .library => "Library"
  | .trait => "Trait"
  | .resourceType => "ResourceType"
  | .securityScheme => "SecurityScheme"

/-- The fragment kind with a given identifier. -/
def ofIdentifier? (s : String) : Option FragmentKind := all.find? fun kind => kind.identifier = s

end FragmentKind

/-- The kinds of declarations whose name is told when they fail. -/
inductive NodeKind where
  | library
  | trait
  | resourceType
  | securityScheme
  | annotationType
deriving DecidableEq, Repr

/-- The name of a declaration's kind in messages. -/
def NodeKind.name : NodeKind → String
  | .library => "library"
  | .trait => "trait"
  | .resourceType => "resource type"
  | .securityScheme => "security scheme"
  | .annotationType => "annotation type"

/-- Why the file at a path that exists has no text. -/
inductive UnreadableCause where
  | isDirectory
  | notText
deriving DecidableEq, Repr

/-- The wording of the cause. -/
def UnreadableCause.message : UnreadableCause → String
  | .isDirectory => "Is a directory (os error 21)"
  | .notText => "stream did not contain valid UTF-8"

/-- Why a document cannot be read. -/
inductive Error where
  /-- The YAML reader refuses the text. -/
  | yaml (cause : Yaml.ReadError)
  /-- There is nothing to read. -/
  | emptyInput
  /-- The first line is not a header. -/
  | missingHeader (line : String)
  /-- The header declares another version than 1.0. -/
  | unsupportedVersion (version : String)
  /-- A required key is absent. -/
  | missingKey (key context : String)
  /-- A key holds a value of the wrong kind. -/
  | wrongKind (key expected found : String)
  /-- The key of a mapping's entry is not a string. -/
  | keyNotString (construct : String)
  /-- A value is outside its vocabulary. -/
  | invalidValue (what value : String)
  /-- An included fragment has no header. -/
  | missingFragmentHeader (path : Path) (expected : FragmentKind)
  /-- An included fragment declares another kind. -/
  | wrongFragmentHeader (path : Path) (expected : FragmentKind) (found : String)
  /-- An include directive in a text without a file. -/
  | includesUnavailable (target : String)
  /-- A value other than an include directive where only one is allowed. -/
  | notAnInclude (text : String)
  /-- A file includes itself, directly or through others. -/
  | circularInclude (path : Path)
  /-- Too many includes are nested. -/
  | includesTooDeep (path : Path) (limit : Nat)
  /-- A named declaration cannot be read. -/
  | failed (kind : NodeKind) (name : String) (source : Error)
  /-- A file does not exist. -/
  | fileNotFound (path : Path)
  /-- A file exists but has no text. -/
  | unreadable (path : Path) (cause : UnreadableCause)
  /-- A type expression has a shape without a rule. -/
  | internal (text : String)
deriving DecidableEq, Repr

namespace Error

/-- The stable code of an error. -/
def code : Error → String
  | .yaml _ => "E2001"
  | .emptyInput => "E2002"
  | .missingHeader _ => "E2003"
  | .unsupportedVersion _ => "E2004"
  | .missingKey .. => "E2010"
  | .wrongKind .. => "E2011"
  | .keyNotString _ => "E2012"
  | .invalidValue .. => "E2013"
  | .missingFragmentHeader .. => "E2020"
  | .wrongFragmentHeader .. => "E2021"
  | .includesUnavailable _ => "E2022"
  | .notAnInclude _ => "E2023"
  | .circularInclude _ => "E2024"
  | .includesTooDeep .. => "E2025"
  | .failed .. => "E2030"
  | .fileNotFound _ => "E2040"
  | .unreadable .. => "E2041"
  | .internal _ => "E2099"

/-- The text of an error. -/
def message : Error → String
  | .yaml cause => "E2001: YAML syntax error: " ++ cause.message
  | .emptyInput => "E2002: empty input"
  | .missingHeader line =>
    "E2003: missing or malformed '#%RAML' header, found " ++ Text.quoted line
  | .unsupportedVersion version =>
    "E2004: unsupported RAML version '" ++ version ++ "' (only 1.0 is supported)"
  | .missingKey key context => "E2010: missing required key '" ++ key ++ "' in " ++ context
  | .wrongKind key expected found =>
    "E2011: '" ++ key ++ "' must be " ++ expected ++ ", found " ++ found
  | .keyNotString construct => "E2012: " ++ construct ++ " Key must be a String"
  | .invalidValue what value => "E2013: invalid " ++ what ++ " '" ++ value ++ "'"
  | .missingFragmentHeader path expected =>
    "E2020: missing fragment identifier in " ++ path.text ++ ", expected '#%RAML 1.0 " ++
      expected.identifier ++ "'"
  | .wrongFragmentHeader path expected found =>
    "E2021: invalid fragment identifier " ++ Text.quoted found ++ " in " ++ path.text ++
      ", expected '" ++ expected.identifier ++ "'"
  | .includesUnavailable target =>
    "E2022: includes are not available when parsing from a string: !include " ++ target
  | .notAnInclude text => "E2023: expected an !include directive, found '" ++ text ++ "'"
  | .circularInclude path => "E2024: circular include of " ++ path.text
  | .includesTooDeep path limit =>
    "E2025: include depth limit of " ++ toString limit ++ " exceeded at " ++ path.text
  | .failed kind name source =>
    "E2030: failed to parse " ++ kind.name ++ " '" ++ name ++ "': " ++ message source
  | .fileNotFound path => "E2040: file not found: " ++ path.text
  | .unreadable path cause => "E2041: failed to read " ++ path.text ++ ": " ++ cause.message
  | .internal text => "E2099: internal error: " ++ text

/-- The text of an error begins with its code and a colon. -/
theorem code_prefix_message (error : Error) :
    error.code.toList ++ ": ".toList <+: error.message.toList := by
  cases error with
  | emptyInput => decide
  | _ =>
    unfold message code
    simp only [String.toList_append, List.append_assoc]
    exact List.IsPrefix.trans (by decide) (List.prefix_append _ _)

/-- The error inside all wrappers. -/
def rootCause : Error → Error
  | .failed _ _ source => rootCause source
  | error => error

/-- The code of the error inside the wrappers, if there are any. -/
def causeCode? (error : Error) : Option String :=
  if error.rootCause.code = error.code then none else some error.rootCause.code

end Error

end RamlDoc
