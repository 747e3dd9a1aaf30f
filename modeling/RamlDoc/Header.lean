import RamlDoc.Error
import RamlDoc.Text.Blank

/-!
# Headers

The first line of a root document declares the version, and the first line of an included fragment
the version and the kind of the fragment. A root document's version is all that may follow, so no
text is both.
-/

namespace RamlDoc.Header

/-- What every header begins with. -/
def mark : List Char := "#%RAML".toList

/-- What the header of a fragment begins with. -/
def fragmentMark : List Char := "#%RAML 1.0".toList

/-- The first line of a root document without byte-order marks at its start and blanks at its
end. -/
def rootLine (text : List Char) : List Char :=
  Text.trimEnd ((Text.firstLine text).dropWhile (· = '\ufeff'))

/-- Refuses a text that is not a root document of version 1.0. -/
def checkRoot (text : List Char) : Except Error Unit :=
  if text.all Text.isBlank then .error .emptyInput
  else
    let line := rootLine text
    match Text.afterStart? mark line with
    | none => .error (.missingHeader (String.ofList line))
    | some rest =>
      let version := Text.trim rest
      if rest.head? ≠ some ' ' || version.isEmpty then
        .error (.missingHeader (String.ofList line))
      else if version = "1.0".toList then .ok ()
      else .error (.unsupportedVersion (String.ofList version))

/-- Refuses a text that is not a fragment of a given kind. -/
def checkFragment (text : List Char) (path : Path) (expected : FragmentKind) : Except Error Unit :=
  let line := Text.trimEnd (Text.firstLine text)
  match Text.afterStart? fragmentMark line with
  | none => .error (.missingFragmentHeader path expected)
  | some rest =>
    let found := String.ofList (Text.trim rest)
    if found = "" then .error (.missingFragmentHeader path expected)
    else if FragmentKind.ofIdentifier? found = some expected then .ok ()
    else .error (.wrongFragmentHeader path expected found)

end RamlDoc.Header
