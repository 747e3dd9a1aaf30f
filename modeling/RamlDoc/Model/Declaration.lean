import RamlDoc.DataType.Basic
import RamlDoc.Decimal.Binary64
import RamlDoc.Model.Annotation

/-!
# Declarations

Types, properties and annotation types. What types and properties declare alike is `Facets`: the
type, the restrictions of a scalar, the wording, the default, the admitted values, examples and
annotations.
-/

namespace RamlDoc

open Yaml

/-- An example of a value. -/
structure Example where
  identifier : String
  displayName : Option String
  description : Option String
  value : Option Tree
  strict : Option Bool
  annotations : Block AnnotationUse
deriving DecidableEq, Repr

/-- The formats of numeric types. -/
inductive NumberFormat where
  | int
  | int8
  | int16
  | int32
  | int64
  | long
  | float
  | double
deriving DecidableEq, Repr

namespace NumberFormat

/-- All number formats. -/
def all : List NumberFormat := [.int, .int8, .int16, .int32, .int64, .long, .float, .double]

/-- The name of a number format. -/
def name : NumberFormat → String
  | .int => "int"
  | .int8 => "int8"
  | .int16 => "int16"
  | .int32 => "int32"
  | .int64 => "int64"
  | .long => "long"
  | .float => "float"
  | .double => "double"

/-- The number format with a given name. -/
def ofName? (s : String) : Option NumberFormat := all.find? fun format => format.name = s

end NumberFormat

/-- Restrictions of texts. -/
structure StringRestrictions where
  pattern : Option String := none
  minLength : Option Nat := none
  maxLength : Option Nat := none
deriving DecidableEq, Repr

/-- Restrictions of numbers. -/
structure NumberRestrictions where
  minimum : Option Binary64 := none
  maximum : Option Binary64 := none
  format : Option NumberFormat := none
  multipleOf : Option Binary64 := none
deriving DecidableEq, Repr

/-- Restrictions of files. -/
structure FileRestrictions where
  fileTypes : Option (List String) := none
  minLength : Option Nat := none
  maxLength : Option Nat := none
deriving DecidableEq, Repr

/-- The restrictions of a scalar, by the kind of the scalar. -/
inductive Restrictions where
  | string (restrictions : StringRestrictions)
  | number (restrictions : NumberRestrictions)
  | file (restrictions : FileRestrictions)
deriving DecidableEq, Repr

/-- What types and properties declare alike. -/
structure Facets where
  type : Option DataType := none
  restrictions : Option Restrictions := none
  displayName : Option String := none
  description : Option String := none
  default : Option Tree := none
  admitted : Option (List String) := none
  examples : Block Example := none
  annotations : Block AnnotationUse := none
deriving DecidableEq, Repr

/-- A property of an object type, or a parameter that is declared like one. A question mark at the
end of the name makes it optional. -/
structure Property where
  name : String
  required : Option Bool := none
  facets : Facets := {}
deriving DecidableEq, Repr

/-- The facets of object types. -/
structure ObjectFacets where
  properties : Block Property := none
  minProperties : Option Nat := none
  maxProperties : Option Nat := none
  additionalProperties : Option Bool := none
  discriminator : Option String := none
  discriminatorValue : Option String := none
deriving DecidableEq, Repr

/-- The facets of array types. -/
structure ArrayFacets where
  items : Option DataType := none
  minItems : Option Nat := none
  maxItems : Option Nat := none
  uniqueItems : Option Bool := none
deriving DecidableEq, Repr

/-- A declaration of a type. -/
structure TypeDeclaration where
  name : String
  facets : Facets := {}
  object : ObjectFacets := {}
  array : ArrayFacets := {}
  /-- Facets that the type adds for types derived from it. -/
  ownFacets : Block Property := none
deriving DecidableEq, Repr

/-- A declaration of an annotation type. -/
structure AnnotationType where
  name : String
  kind : AnnotationKind
  displayName : Option String := none
  description : Option String := none
  properties : Block Property := none
  allowedTargets : Option (List String) := none
  annotations : Block AnnotationUse := none
deriving DecidableEq, Repr

end RamlDoc
