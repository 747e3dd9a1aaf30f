import RamlDoc.DataType.Basic
import RamlDoc.Text.Lines

/-!
# Type expressions

A type expression is read from the outside in. Pairs of brackets at its end make arrays; what is
left is a union if it holds a bar, else a keyword, a scalar type or a name. In a union blanks and
parentheses are dropped before the members are read, so parentheses do not group.
-/

namespace RamlDoc.DataType

/-- The brackets that make an array. -/
def brackets : List Char := ['[', ']']

/-- What stands before the brackets at the end of an expression, blanks apart. -/
def element? (cs : List Char) : Option (List Char) := Text.beforeEnd? brackets (Text.trim cs)

theorem length_trim_le (cs : List Char) : (Text.trim cs).length ≤ cs.length := by
  simp only [Text.trim, Text.trimEnd, Text.dropTailWhile, Text.trimStart, List.length_reverse]
  calc _ ≤ ((cs.dropWhile Text.isBlank).reverse).length := (List.dropWhile_sublist _).length_le
    _ ≤ cs.length := by simpa using (List.dropWhile_sublist _).length_le

theorem length_of_element? {cs element : List Char} (h : element? cs = some element) :
    element.length < cs.length := by
  have := congrArg List.length (Text.beforeEnd?_eq_some.1 h)
  have := length_trim_le cs
  simp only [List.length_append, brackets, List.length_cons, List.length_nil] at *
  omega

/-- Reads the brackets at the end of an expression, and what is left of it with `core`. -/
def layered (core : List Char → DataType) (cs : List Char) : DataType :=
  match _h : element? cs with
  | some element => .array (layered core element)
  | none => core (Text.trim cs)
termination_by cs.length
decreasing_by exact length_of_element? (by assumption)

/-- Reads a keyword, a scalar type or a name. -/
def ofWord (cs : List Char) : DataType :=
  if cs = "object".toList then .object
  else if cs = "any".toList then .any
  else
    match ScalarType.ofName? (String.ofList cs) with
    | some kind => .scalar kind
    | none => .custom (String.ofList cs)

/-- An expression without blanks and parentheses. -/
def strip (cs : List Char) : List Char :=
  cs.filter fun c => !Text.isBlank c && c ≠ '(' && c ≠ ')'

/-- The texts of the members of a union; empty ones do not count. -/
def memberTexts (cs : List Char) : List (List Char) :=
  (Text.splitOn '|' (strip cs)).filter fun member => !member.isEmpty

/-- Reads an expression without brackets at its end. -/
def ofCore (cs : List Char) : DataType :=
  if '|' ∈ cs then .union ((memberTexts cs).map (layered ofWord)) else ofWord cs

/-- Reads a type expression. -/
def ofChars (cs : List Char) : DataType := layered ofCore cs

/-- Reads a type expression. Every text is one: a word that is not known is a name. -/
def ofString (s : String) : DataType := ofChars s.toList

end RamlDoc.DataType
