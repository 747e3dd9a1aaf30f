import RamlDoc.Decimal.Layout
import RamlDoc.Decimal.Binary64
import RamlDoc.Text.Lines

/-!
# JSON values

JSON values whose objects keep the order of their members, and their text on one line or over many
lines with an indentation of two blanks.
-/

namespace RamlDoc

/-- A JSON value. -/
inductive Json where
  | null
  | bool (value : Bool)
  | integer (value : Int)
  /-- A finite floating-point number; any other has no JSON text and becomes null. -/
  | float (value : Binary64)
  | string (value : String)
  | array (items : List Json)
  | object (members : List (String × Json))
deriving Repr, Inhabited

namespace Json

/-- How a floating-point number is written: with its point in place for point positions from -4 to
16, else with a signed power of ten of at least two digits. -/
def layout : Decimal.Layout := ⟨-4, 16, true, 2⟩

/-- How one character of a string is written. -/
def escaped (c : Char) : List Char :=
  if c = '"' ∨ c = '\\' then ['\\', c]
  else if c = '\n' then ['\\', 'n']
  else if c = '\r' then ['\\', 'r']
  else if c = '\t' then ['\\', 't']
  else if c = '\x08' then ['\\', 'b']
  else if c = '\x0c' then ['\\', 'f']
  else if c.toNat < 0x20 then
    let digits := Nat.toDigits 16 c.toNat
    ['\\', 'u'] ++ List.replicate (4 - digits.length) '0' ++ digits
  else [c]

/-- A string between double quotes. -/
def quoted (s : String) : List Char := '"' :: s.toList.flatMap escaped ++ ['"']

/-- The text of a floating-point number. -/
def floatText : Binary64 → List Char
  | .finite negative significand exponent => layout.finiteText negative significand exponent
  | .nan | .infinite _ => "null".toList

mutual

/-- The text of a value on one line. -/
def compact : Json → List Char
  | .null => "null".toList
  | .bool value => (toString value).toList
  | .integer value => (toString value).toList
  | .float value => floatText value
  | .string value => quoted value
  | .array items => '[' :: Text.joinWith [','] (compactItems items) ++ [']']
  | .object members => '\x7b' :: Text.joinWith [','] (compactMembers members) ++ ['\x7d']

/-- The texts of the items of an array, each on one line. -/
def compactItems : List Json → List (List Char)
  | [] => []
  | item :: items => compact item :: compactItems items

/-- The texts of the members of an object, each on one line. -/
def compactMembers : List (String × Json) → List (List Char)
  | [] => []
  | (name, value) :: members => (quoted name ++ ':' :: compact value) :: compactMembers members

end

/-- A new line with an indentation. -/
def newLine (depth : Nat) : List Char := '\n' :: List.replicate (2 * depth) ' '

/-- Texts between brackets, each on a line of its own. -/
def bracketed (depth : Nat) (opening closing : Char) (texts : List (List Char)) : List Char :=
  if texts.isEmpty then [opening, closing]
  else
    opening :: newLine (depth + 1) ++ Text.joinWith (',' :: newLine (depth + 1)) texts ++
      newLine depth ++ [closing]

mutual

/-- The text of a value over many lines, below a number of brackets. -/
def prettyAt (depth : Nat) : Json → List Char
  | .array items => bracketed depth '[' ']' (prettyItems (depth + 1) items)
  | .object members => bracketed depth '\x7b' '\x7d' (prettyMembers (depth + 1) members)
  | .null => compact .null
  | .bool value => compact (.bool value)
  | .integer value => compact (.integer value)
  | .float value => compact (.float value)
  | .string value => compact (.string value)

/-- The texts of the items of an array, each over many lines. -/
def prettyItems (depth : Nat) : List Json → List (List Char)
  | [] => []
  | item :: items => prettyAt depth item :: prettyItems depth items

/-- The texts of the members of an object, each over many lines. -/
def prettyMembers (depth : Nat) : List (String × Json) → List (List Char)
  | [] => []
  | (name, value) :: members =>
    (quoted name ++ [':', ' '] ++ prettyAt depth value) :: prettyMembers depth members

end

/-- The text of a value on one line, as a string. -/
def render (value : Json) : String := String.ofList value.compact

/-- The text of a value over many lines, as a string. -/
def pretty (value : Json) : String := String.ofList (prettyAt 0 value)

end Json

end RamlDoc
