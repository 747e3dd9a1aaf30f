import RamlDoc.Model.Declaration
import RamlDoc.Text.Lines

/-!
# Operations

Methods and what they exchange: parameters, payloads, bodies and responses. A payload is what a
query string, a body and each media type of a body declare alike.
-/

namespace RamlDoc

open Yaml

/-- The methods that a resource can declare. -/
inductive Verb where
  | get
  | patch
  | put
  | post
  | delete
  | options
  | head
deriving DecidableEq, Repr

namespace Verb

/-- All verbs. -/
def all : List Verb := [.get, .patch, .put, .post, .delete, .options, .head]

/-- The name of a verb as a key. -/
def name : Verb → String
  | .get => "get"
  | .patch => "patch"
  | .put => "put"
  | .post => "post"
  | .delete => "delete"
  | .options => "options"
  | .head => "head"

/-- The name of a verb as it is shown. -/
def shown (verb : Verb) : String := verb.name.toUpper

/-- The verb with a given name. -/
def ofName? (s : String) : Option Verb := all.find? fun verb => verb.name = s

end Verb

/-- The protocols of requests. -/
inductive Protocol where
  | http
  | https
deriving DecidableEq, Repr

namespace Protocol

/-- The name of a protocol. -/
def name : Protocol → String
  | .http => "HTTP"
  | .https => "HTTPS"

/-- The protocol with a given name, in any ASCII case. -/
def ofName? (s : String) : Option Protocol :=
  [http, https].find? fun protocol => protocol.name = s.toUpper

end Protocol

/-- An identifier under which a body can have a variant. -/
abbrev MediaType := String

namespace MediaType

/-- Whether a character may stand in a media type. -/
def admits (c : Char) : Bool := c.isAlphanum || c ∈ ".+-_!#$&^*".toList

/-- Whether a text is a media type: two parts with a slash between them. -/
def isValid (identifier : MediaType) : Bool :=
  match Text.cutAt? '/' (String.toList identifier) with
  | none => false
  | some (kind, subtype) =>
    !kind.isEmpty && kind.all admits && !subtype.isEmpty && subtype.all admits

end MediaType

/-- A parameter of a URI, or a header. -/
structure Parameter where
  name : String
  type : Option DataType := none
  displayName : Option String := none
  description : Option String := none
  required : Option Bool := none
  pattern : Option String := none
  admitted : Option (List String) := none
  default : Option Tree := none
  examples : Block Example := none
  annotations : Block AnnotationUse := none
deriving DecidableEq, Repr

/-- What is sent: its type, or its properties, and examples of it. -/
structure Payload where
  type : Option DataType := none
  properties : Block Property := none
  examples : Block Example := none
deriving DecidableEq, Repr

/-- What is sent in one media type. -/
structure MediaTypeBody where
  identifier : MediaType
  payload : Payload := {}
deriving DecidableEq, Repr

/-- The body of a request or a response. -/
structure Body where
  payload : Payload := {}
  mediaTypes : Block MediaTypeBody := none
deriving DecidableEq, Repr

/-- The body in a media type. -/
def Body.mediaType? (body : Body) (identifier : String) : Option MediaTypeBody :=
  body.mediaTypes.find? (·.identifier) identifier

/-- What is answered under a status code. -/
structure Response where
  code : Nat
  description : Option String := none
  annotations : Block AnnotationUse := none
  headers : Block Parameter := none
  body : Option Body := none
deriving DecidableEq, Repr

/-- What methods, traits and security schemes say alike about requests and responses. -/
structure Exchange where
  headers : Block Parameter := none
  queryParameters : Block Property := none
  queryString : Option Payload := none
  responses : Block Response := none
deriving DecidableEq, Repr

/-- A method of a resource or a resource type. -/
structure Method where
  verb : Verb
  /-- Whether it only applies to resources that declare it themselves. -/
  optional : Bool := false
  displayName : Option String := none
  description : Option String := none
  annotations : Block AnnotationUse := none
  exchange : Exchange := {}
  body : Option Body := none
  protocols : Block Protocol := none
  traits : Block Usage := none
  securedBy : Block Usage := none
deriving DecidableEq, Repr

end RamlDoc
