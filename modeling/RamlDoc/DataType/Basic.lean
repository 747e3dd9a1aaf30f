import RamlDoc.Text.Blank

/-!
# Types

A type is `any`, `object`, a built-in scalar, a named type, an array of a type, or a union. A union
below an array is shown in parentheses, and nothing else is.
-/

namespace RamlDoc

/-- The built-in scalar types. -/
inductive ScalarType where
  | number
  | boolean
  | string
  | dateOnly
  | timeOnly
  | dateTimeOnly
  | dateTime
  | file
  | integer
  | nil
deriving DecidableEq, Repr

namespace ScalarType

/-- All scalar types. -/
def all : List ScalarType :=
  [.number, .boolean, .string, .dateOnly, .timeOnly, .dateTimeOnly, .dateTime, .file, .integer,
    .nil]

/-- The name of a scalar type in type expressions. -/
def name : ScalarType → String
  | .number => "number"
  | .boolean => "boolean"
  | .string => "string"
  | .dateOnly => "date-only"
  | .timeOnly => "time-only"
  | .dateTimeOnly => "datetime-only"
  | .dateTime => "datetime"
  | .file => "file"
  | .integer => "integer"
  | .nil => "nil"

/-- Second spellings, without hyphens, that type expressions may use. -/
def otherNames : List (String × ScalarType) :=
  [("dateOnly", .dateOnly), ("timeOnly", .timeOnly), ("dateTimeOnly", .dateTimeOnly),
    ("dateTime", .dateTime)]

/-- The scalar type with a given name, in either spelling. -/
def ofName? (s : String) : Option ScalarType :=
  match all.find? fun kind => kind.name = s with
  | some kind => some kind
  | none => otherNames.lookup s

end ScalarType

/-- A type. -/
inductive DataType where
  /-- The type of all values. -/
  | any
  /-- The type of objects. -/
  | object
  /-- Arrays of a type. -/
  | array (element : DataType)
  /-- A choice of types, in the order they are written. -/
  | union (members : List DataType)
  /-- A built-in scalar type. -/
  | scalar (kind : ScalarType)
  /-- A type that the document declares under a name. -/
  | custom (name : String)
deriving Repr, Inhabited

namespace DataType

mutual

/-- Identity of types is decidable. -/
def decEq : (a b : DataType) → Decidable (a = b)
  | .any, .any => isTrue rfl
  | .object, .object => isTrue rfl
  | .array a, .array b =>
    match decEq a b with
    | isTrue h => isTrue (by rw [h])
    | isFalse h => isFalse (by simpa using h)
  | .union a, .union b =>
    match decEqMembers a b with
    | isTrue h => isTrue (by rw [h])
    | isFalse h => isFalse (by simpa using h)
  | .scalar a, .scalar b => decidable_of_iff (a = b) (by simp)
  | .custom a, .custom b => decidable_of_iff (a = b) (by simp)
  | .any, .object | .any, .array _ | .any, .union _ | .any, .scalar _ | .any, .custom _
  | .object, .any | .object, .array _ | .object, .union _ | .object, .scalar _
  | .object, .custom _ | .array _, .any | .array _, .object | .array _, .union _
  | .array _, .scalar _ | .array _, .custom _ | .union _, .any | .union _, .object
  | .union _, .array _ | .union _, .scalar _ | .union _, .custom _ | .scalar _, .any
  | .scalar _, .object | .scalar _, .array _ | .scalar _, .union _ | .scalar _, .custom _
  | .custom _, .any | .custom _, .object | .custom _, .array _ | .custom _, .union _
  | .custom _, .scalar _ => isFalse (by simp)

/-- Identity of lists of types is decidable. -/
def decEqMembers : (as bs : List DataType) → Decidable (as = bs)
  | [], [] => isTrue rfl
  | [], _ :: _ => isFalse (by simp)
  | _ :: _, [] => isFalse (by simp)
  | a :: as, b :: bs =>
    match decEq a b, decEqMembers as bs with
    | isTrue h, isTrue hs => isTrue (by rw [h, hs])
    | isFalse h, _ => isFalse (by simp [h])
    | _, isFalse hs => isFalse (by simp [hs])

end

instance : DecidableEq DataType := decEq

/-- The scalar type of a scalar. -/
def scalar? : DataType → Option ScalarType
  | .scalar kind => some kind
  | _ => none

/-- Whether a type is a union. -/
def isUnion : DataType → Bool
  | .union _ => true
  | _ => false

/-- A type below a number of arrays. -/
def arrays : (count : Nat) → DataType → DataType
  | 0, type => type
  | count + 1, type => .array (arrays count type)

mutual

/-- The text of a type, character by character. -/
def chars : DataType → List Char
  | .any => "any".toList
  | .object => "object".toList
  | .array element =>
    (if element.isUnion then '(' :: chars element ++ [')'] else chars element) ++ ['[', ']']
  | .union members => charsOfMembers members
  | .scalar kind => kind.name.toList
  | .custom name => name.toList

/-- The texts of the members of a union with bars between them. -/
def charsOfMembers : List DataType → List Char
  | [] => []
  | [member] => chars member
  | member :: members => chars member ++ " | ".toList ++ charsOfMembers members

end

/-- The text of a type. -/
def text (type : DataType) : String := String.ofList type.chars

end DataType

end RamlDoc
