import RamlDoc.Model.Declaration
import RamlDoc.Text.Lowercase

/-!
# Defaults of declarations

A type without a declared type is an object if it has properties, else a text; a property is a text.
The restrictions of a text or a file get the bounds that restrict nothing. A property whose name ends
in a question mark loses the mark and is optional unless it says otherwise.
-/

namespace RamlDoc

namespace Example

/-- The example with its default: it is strict. -/
def withDefaults (ex : Example) : Example := { ex with strict := some (ex.strict.getD true) }

@[simp] theorem withDefaults_withDefaults (ex : Example) :
    ex.withDefaults.withDefaults = ex.withDefaults := rfl

@[simp] theorem mapElements_withDefaults_twice (examples : Block Example) :
    (examples.mapElements withDefaults).mapElements withDefaults =
      examples.mapElements withDefaults :=
  Block.mapElements_mapElements_eq fun ex _ => ex.withDefaults_withDefaults

end Example

/-- The largest bound. -/
def maxBound : Nat := UInt64.size - 1

/-- The media type of any file. -/
def anyFileType : String := "*/*"

namespace StringRestrictions

/-- The restrictions with bounds. -/
def withDefaults (restrictions : StringRestrictions) : StringRestrictions :=
  { restrictions with
    minLength := some (restrictions.minLength.getD 0)
    maxLength := some (restrictions.maxLength.getD maxBound) }

end StringRestrictions

namespace FileRestrictions

/-- The restrictions with bounds and file types. -/
def withDefaults (restrictions : FileRestrictions) : FileRestrictions where
  fileTypes := some (restrictions.fileTypes.getD [anyFileType])
  minLength := some (restrictions.minLength.getD 0)
  maxLength := some (restrictions.maxLength.getD maxBound)

end FileRestrictions

namespace Restrictions

/-- The restrictions with their defaults; those of numbers have none. -/
def withDefaults : Restrictions → Restrictions
  | .string restrictions => .string restrictions.withDefaults
  | .number restrictions => .number restrictions
  | .file restrictions => .file restrictions.withDefaults

/-- The restrictions that a type implies where none are declared. -/
def implied? (type : DataType) : Option Restrictions :=
  match type.scalar? with
  | some .string => some (.string {})
  | some .file => some (.file {})
  | _ => none

/-- The restrictions of a node of a given type with their defaults. -/
def defaulted (declared : Option Restrictions) (type : DataType) : Option Restrictions :=
  (declared.or (implied? type)).map withDefaults

theorem withDefaults_withDefaults (restrictions : Restrictions) :
    restrictions.withDefaults.withDefaults = restrictions.withDefaults := by
  cases restrictions <;> rfl

theorem defaulted_defaulted (declared : Option Restrictions) (type : DataType) :
    defaulted (defaulted declared type) type = defaulted declared type := by
  rw [defaulted, defaulted]
  cases h : declared.or (implied? type) with
  | none => simp [(Option.or_eq_none_iff.1 h).2]
  | some restrictions => simp [withDefaults_withDefaults]

end Restrictions

namespace Facets

/-- The facets with their defaults, given the type of what declares none. -/
def withDefaults (facets : Facets) (implied : DataType) : Facets :=
  let type := facets.type.getD implied
  { facets with
    type := some type
    restrictions := Restrictions.defaulted facets.restrictions type
    examples := facets.examples.mapElements Example.withDefaults }

/-- Facets with their defaults have a type, so it does not matter which one is implied. -/
theorem withDefaults_withDefaults (facets : Facets) (implied implied' : DataType) :
    (facets.withDefaults implied).withDefaults implied' = facets.withDefaults implied := by
  simp [withDefaults, Restrictions.defaulted_defaulted]

end Facets

namespace Property

/-- The name without the question mark that makes the property optional, and whether there is
one. -/
def nameAndMark (name : String) : String × Bool :=
  match Text.beforeEnd? ['?'] name.toList with
  | some front => (String.ofList front, true)
  | none => (name, false)

theorem nameAndMark_of_suffix {name : String} {front : List Char}
    (h : name.toList = front ++ ['?']) :
    nameAndMark name = (String.ofList front, true) := by
  rw [nameAndMark, Text.beforeEnd?_eq_some.2 h]

theorem nameAndMark_of_not_suffix {name : String} (h : ¬['?'] <:+ name.toList) :
    nameAndMark name = (name, false) := by
  rw [nameAndMark, Text.beforeEnd?_eq_none.2 h]

/-- The property with its defaults. -/
def withDefaults (property : Property) : Property :=
  let (name, optional) := nameAndMark property.name
  { name
    required := some (property.required.getD !optional)
    facets := property.facets.withDefaults (.scalar .string) }

end Property

namespace TypeDeclaration

/-- The type of a declaration that declares none. -/
def impliedType (type : TypeDeclaration) : DataType :=
  if type.object.properties.isSome then .object else .scalar .string

/-- The value that tells a type apart: the declared one, else its name in lower case if the type has
a discriminator. -/
def discriminatorValue? (type : TypeDeclaration) : Option String :=
  type.object.discriminatorValue.or
    (type.object.discriminator.map fun _ => Text.lowercase type.name)

/-- The type with its defaults. -/
def withDefaults (type : TypeDeclaration) : TypeDeclaration :=
  { type with
    facets := type.facets.withDefaults type.impliedType
    object :=
      { type.object with
        properties := type.object.properties.mapElements Property.withDefaults
        discriminatorValue := type.discriminatorValue? }
    ownFacets := type.ownFacets.mapElements Property.withDefaults }

end TypeDeclaration

namespace AnnotationType

/-- The annotation type with its defaults. -/
def withDefaults (type : AnnotationType) : AnnotationType :=
  { type with properties := type.properties.mapElements Property.withDefaults }

end AnnotationType

end RamlDoc
