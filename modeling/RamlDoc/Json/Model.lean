import RamlDoc.Json.Encoding
import RamlDoc.Model.Document

/-!
# The model as JSON

The JSON form of each node: its members in a fixed order, named as the fields are named in a
document. Types are given by their text.
-/

namespace RamlDoc

open Encoding
open Yaml (Tree)

/-- The JSON form of a type. -/
def DataType.toJson (type : DataType) : Encoding := string type.text

/-- A member for a type. -/
def DataType.encoded? (type : Option DataType) : Option Encoding := type.map toJson

/-- The JSON form of an annotation. -/
def AnnotationUse.toJson (note : AnnotationUse) : Encoding :=
  object [("name", text note.name), ("value", Tree.encoded? note.value)]

/-- A member for annotations. -/
def AnnotationUse.encoded? : Block AnnotationUse → Option Encoding := block toJson

/-- The JSON form of a usage, with a given name for the member that holds its name. -/
def Usage.toJson (nameKey : String) (usage : Usage) : Encoding :=
  object [(nameKey, text usage.name), ("parameters", Tree.entriesEncoded? usage.parameters)]

/-- A member for the traits that a node uses. -/
def Usage.traits? : Block Usage → Option Encoding := block (toJson "name")

/-- A member for the schemes that secure a node. -/
def Usage.schemes? : Block Usage → Option Encoding := block (toJson "identifier")

/-- The JSON form of an example. -/
def Example.toJson (ex : Example) : Encoding :=
  object
    [("identifier", text ex.identifier), ("displayName", string? ex.displayName),
      ("description", string? ex.description), ("value", Tree.encoded? ex.value),
      ("strict", bool? ex.strict), ("annotations", AnnotationUse.encoded? ex.annotations)]

/-- A member for examples. -/
def Example.encoded? : Block Example → Option Encoding := block toJson

/-- The JSON form of restrictions: an object whose only member tells the kind. -/
def Restrictions.toJson : Restrictions → Encoding
  | .string r =>
    single "string" (object
      [("pattern", string? r.pattern), ("minLength", natural? r.minLength),
        ("maxLength", natural? r.maxLength)])
  | .number r =>
    single "number" (object
      [("minimum", float? r.minimum), ("maximum", float? r.maximum),
        ("format", string? (r.format.map NumberFormat.name)),
        ("multipleOf", float? r.multipleOf)])
  | .file r =>
    single "file" (object
      [("fileTypes", strings? r.fileTypes), ("minLength", natural? r.minLength),
        ("maxLength", natural? r.maxLength)])

/-- A member for restrictions. -/
def Restrictions.encoded? (restrictions : Option Restrictions) : Option Encoding :=
  restrictions.map toJson

/-- The JSON form of a property. -/
def Property.toJson (property : Property) : Encoding :=
  let facets := property.facets
  object
    [("name", text property.name), ("required", bool? property.required),
      ("type", DataType.encoded? facets.type), ("displayName", string? facets.displayName),
      ("description", string? facets.description), ("default", Tree.encoded? facets.default),
      ("restrictions", Restrictions.encoded? facets.restrictions),
      ("enum", strings? facets.admitted), ("examples", Example.encoded? facets.examples),
      ("annotations", AnnotationUse.encoded? facets.annotations)]

/-- A member for properties. -/
def Property.encoded? : Block Property → Option Encoding := block toJson

/-- The JSON form of a type's declaration. -/
def TypeDeclaration.toJson (type : TypeDeclaration) : Encoding :=
  let { facets, object := objectFacets, array := arrayFacets, .. } := type
  Encoding.object
    [("name", text type.name), ("type", DataType.encoded? facets.type),
      ("displayName", string? facets.displayName), ("description", string? facets.description),
      ("default", Tree.encoded? facets.default), ("enum", strings? facets.admitted),
      ("properties", Property.encoded? objectFacets.properties),
      ("minProperties", natural? objectFacets.minProperties),
      ("maxProperties", natural? objectFacets.maxProperties),
      ("additionalProperties", bool? objectFacets.additionalProperties),
      ("discriminator", string? objectFacets.discriminator),
      ("discriminatorValue", string? objectFacets.discriminatorValue),
      ("items", DataType.encoded? arrayFacets.items), ("minItems", natural? arrayFacets.minItems),
      ("maxItems", natural? arrayFacets.maxItems),
      ("uniqueItems", bool? arrayFacets.uniqueItems),
      ("restrictions", Restrictions.encoded? facets.restrictions),
      ("facets", Property.encoded? type.ownFacets), ("examples", Example.encoded? facets.examples),
      ("annotations", AnnotationUse.encoded? facets.annotations)]

/-- The JSON form of what an annotation type takes. -/
def AnnotationKind.toJson : AnnotationKind → Encoding
  | .single shape => string shape.name
  | .choice shapes => Encoding.single "multiple" (array (fun shape => string shape.name) shapes)

/-- The JSON form of an annotation type. -/
def AnnotationType.toJson (type : AnnotationType) : Encoding :=
  object
    [("name", text type.name), ("type", some type.kind.toJson),
      ("displayName", string? type.displayName), ("description", string? type.description),
      ("properties", Property.encoded? type.properties),
      ("allowedTargets", strings? type.allowedTargets),
      ("annotations", AnnotationUse.encoded? type.annotations)]

/-- The JSON form of a parameter, with a given name for the member that holds its name. -/
def Parameter.toJson (nameKey : String) (parameter : Parameter) : Encoding :=
  object
    [(nameKey, text parameter.name), ("type", DataType.encoded? parameter.type),
      ("displayName", string? parameter.displayName),
      ("description", string? parameter.description), ("required", bool? parameter.required),
      ("pattern", string? parameter.pattern), ("enum", strings? parameter.admitted),
      ("default", Tree.encoded? parameter.default),
      ("examples", Example.encoded? parameter.examples),
      ("annotations", AnnotationUse.encoded? parameter.annotations)]

/-- The JSON form of a header. -/
def Parameter.headerToJson : Parameter → Encoding := toJson "key"

/-- The JSON form of a URI parameter. -/
def Parameter.uriToJson : Parameter → Encoding := toJson "name"

/-- A member for headers. -/
def Parameter.headers? : Block Parameter → Option Encoding := block headerToJson

/-- A member for URI parameters. -/
def Parameter.ofUri? : Block Parameter → Option Encoding := block uriToJson

/-- The members of a payload. -/
def Payload.fields (payload : Payload) : List (String × Option Encoding) :=
  [("type", DataType.encoded? payload.type), ("properties", Property.encoded? payload.properties),
    ("examples", Example.encoded? payload.examples)]

/-- The JSON form of what is sent in a media type. -/
def MediaTypeBody.toJson (body : MediaTypeBody) : Encoding :=
  object (("identifier", text body.identifier) :: body.payload.fields)

/-- The JSON form of a body. -/
def Body.toJson (body : Body) : Encoding :=
  object (body.payload.fields ++ [("mediaTypes", block MediaTypeBody.toJson body.mediaTypes)])

/-- A member for a body. -/
def Body.encoded? (body : Option Body) : Option Encoding := body.map toJson

/-- The JSON form of a response. -/
def Response.toJson (response : Response) : Encoding :=
  object
    [("code", natural? response.code), ("description", string? response.description),
      ("annotations", AnnotationUse.encoded? response.annotations),
      ("headers", Parameter.headers? response.headers), ("body", Body.encoded? response.body)]

namespace Exchange

/-- The member for headers. -/
def headersField (exchange : Exchange) : String × Option Encoding :=
  ("headers", Parameter.headers? exchange.headers)

/-- The member for query parameters. -/
def queryParametersField (exchange : Exchange) : String × Option Encoding :=
  ("queryParameters", Property.encoded? exchange.queryParameters)

/-- The members for the query string and the responses. -/
def otherFields (exchange : Exchange) : List (String × Option Encoding) :=
  [("queryString", exchange.queryString.map fun payload => object payload.fields),
    ("responses", block Response.toJson exchange.responses)]

/-- The members of an exchange, the headers first. -/
def fields (exchange : Exchange) : List (String × Option Encoding) :=
  exchange.headersField :: exchange.queryParametersField :: exchange.otherFields

/-- The members of a method's exchange, the query parameters first. -/
def fieldsOfMethod (exchange : Exchange) : List (String × Option Encoding) :=
  exchange.queryParametersField :: exchange.headersField :: exchange.otherFields

end Exchange

/-- A member for protocols. -/
def Protocol.encoded? : Block Protocol → Option Encoding := block fun p => string p.name

/-- The JSON form of a method. -/
def Method.toJson (method : Method) : Encoding :=
  object <|
    [("method", text method.verb.name),
      ("optional", if method.optional then bool? true else none),
      ("displayName", string? method.displayName), ("description", string? method.description),
      ("annotations", AnnotationUse.encoded? method.annotations)] ++
    method.exchange.fieldsOfMethod ++
    [("body", Body.encoded? method.body), ("protocols", Protocol.encoded? method.protocols),
      ("is", Usage.traits? method.traits), ("securedBy", Usage.schemes? method.securedBy)]

/-- A member for methods. -/
def Method.encoded? : Block Method → Option Encoding := block toJson

/-- The JSON form of a trait. -/
def TraitDefinition.toJson (trait : TraitDefinition) : Encoding :=
  object <|
    [("name", text trait.name), ("usage", string? trait.usage),
      ("displayName", string? trait.displayName), ("description", string? trait.description),
      ("annotations", AnnotationUse.encoded? trait.annotations)] ++
    trait.exchange.fields ++
    [("body", Body.encoded? trait.body), ("protocols", Protocol.encoded? trait.protocols),
      ("securedBy", Usage.schemes? trait.securedBy)]

/-- The JSON form of a resource type. -/
def ResourceType.toJson (type : ResourceType) : Encoding :=
  object
    [("identifier", text type.identifier), ("usage", string? type.usage),
      ("displayName", string? type.displayName), ("description", string? type.description),
      ("annotations", AnnotationUse.encoded? type.annotations),
      ("methods", Method.encoded? type.methods),
      ("uriParameters", Parameter.ofUri? type.uriParameters), ("is", Usage.traits? type.traits),
      ("securedBy", Usage.schemes? type.securedBy)]

/-- The JSON form of settings: an object whose only member tells the kind. -/
def SecuritySettings.toJson : SecuritySettings → Encoding
  | .oAuth1 s =>
    single "oAuth1" (object
      [("requestTokenUri", string? s.requestTokenUri),
        ("authorizationUri", string? s.authorizationUri),
        ("tokenCredentialsUri", string? s.tokenCredentialsUri),
        ("signatures", strings? s.signatures)])
  | .oAuth2 s =>
    single "oAuth2" (object
      [("authorizationUri", string? s.authorizationUri),
        ("accessTokenUri", string? s.accessTokenUri),
        ("authorizationGrants", strings? s.authorizationGrants),
        ("scopes", strings? s.scopes)])
  | .other settings => single "other" (.object <$> Tree.entriesToJson settings)

/-- The JSON form of what a security scheme adds. -/
def SecurityDescription.toJson (description : SecurityDescription) : Encoding :=
  object <|
    description.exchange.fields ++
    [("annotations", AnnotationUse.encoded? description.annotations)]

/-- The JSON form of a security scheme. -/
def SecurityScheme.toJson (scheme : SecurityScheme) : Encoding :=
  object
    [("identifier", text scheme.identifier), ("type", text scheme.type.name),
      ("displayName", string? scheme.displayName), ("description", string? scheme.description),
      ("describedBy", scheme.describedBy.map SecurityDescription.toJson),
      ("settings", scheme.settings.map SecuritySettings.toJson),
      ("annotations", AnnotationUse.encoded? scheme.annotations)]

namespace Declarations

/-- The member for types. -/
def typesField (declarations : Declarations) : String × Option Encoding :=
  ("types", block TypeDeclaration.toJson declarations.types)

/-- The member for traits. -/
def traitsField (declarations : Declarations) : String × Option Encoding :=
  ("traits", block TraitDefinition.toJson declarations.traits)

/-- The member for resource types. -/
def resourceTypesField (declarations : Declarations) : String × Option Encoding :=
  ("resourceTypes", block ResourceType.toJson declarations.resourceTypes)

/-- The member for annotation types. -/
def annotationTypesField (declarations : Declarations) : String × Option Encoding :=
  ("annotationTypes", block AnnotationType.toJson declarations.annotationTypes)

/-- The member for security schemes. -/
def securitySchemesField (declarations : Declarations) : String × Option Encoding :=
  ("securitySchemes", block SecurityScheme.toJson declarations.securitySchemes)

/-- The members of a document's declarations. -/
def fieldsOfDocument (declarations : Declarations) : List (String × Option Encoding) :=
  [declarations.typesField, declarations.traitsField, declarations.resourceTypesField,
    declarations.annotationTypesField, declarations.securitySchemesField]

/-- The members of a library's declarations. -/
def fieldsOfLibrary (declarations : Declarations) : List (String × Option Encoding) :=
  [declarations.typesField, declarations.resourceTypesField, declarations.traitsField,
    declarations.securitySchemesField, declarations.annotationTypesField]

end Declarations

namespace Library

mutual

/-- The JSON form of a library. -/
def toJson : Library → Encoding
  | ⟨identifier, usage, declarations, uses⟩ =>
    object <|
      [("identifier", text identifier), ("usage", string? usage)] ++
      declarations.fieldsOfLibrary ++ [("uses", block? uses)]

/-- A member for the libraries that a node uses. -/
def block? : Option (List Library) → Option Encoding
  | none => none
  | some libraries => some (.array <$> list libraries)

/-- The JSON forms of a list of libraries. -/
def list : List Library → Except EncodingError (List Json)
  | [] => .ok []
  | library :: libraries => do
    let library ← toJson library
    return library :: (← list libraries)

end

end Library

namespace Resource

mutual

/-- The JSON form of a resource. -/
def toJson : Resource → Encoding
  | ⟨path, displayName, description, annotations, methods, resources, traits, resourceType,
      securedBy, uriParameters⟩ =>
    object
      [("path", text path), ("displayName", string? displayName),
        ("description", string? description), ("annotations", AnnotationUse.encoded? annotations),
        ("methods", Method.encoded? methods), ("resources", block? resources),
        ("is", Usage.traits? traits), ("type", resourceType.map (Usage.toJson "name")),
        ("securedBy", Usage.schemes? securedBy),
        ("uriParameters", Parameter.ofUri? uriParameters)]

/-- A member for the resources in a node. -/
def block? : Option (List Resource) → Option Encoding
  | none => none
  | some resources => some (.array <$> list resources)

/-- The JSON forms of a list of resources. -/
def list : List Resource → Except EncodingError (List Json)
  | [] => .ok []
  | resource :: resources => do
    let resource ← toJson resource
    return resource :: (← list resources)

end

end Resource

/-- The JSON form of a chapter. -/
def Chapter.toJson (chapter : Chapter) : Encoding :=
  object
    [("title", text chapter.title), ("content", text chapter.content),
      ("annotations", AnnotationUse.encoded? chapter.annotations)]

/-- The JSON form of a document. -/
def Document.toJson (document : Document) : Encoding :=
  object <|
    [("title", text document.title), ("description", string? document.description),
      ("version", string? document.version), ("baseUri", string? document.baseUri),
      ("baseUriParameters", Parameter.ofUri? document.baseUriParameters),
      ("protocols", Protocol.encoded? document.protocols),
      ("mediaTypes", strings? document.mediaTypes),
      ("documentation", block Chapter.toJson document.documentation)] ++
    document.declarations.fieldsOfDocument ++
    [("securedBy", Usage.schemes? document.securedBy), ("uses", Library.block? document.uses),
      ("resources", Resource.block? document.resources),
      ("annotations", AnnotationUse.encoded? document.annotations)]

end RamlDoc
