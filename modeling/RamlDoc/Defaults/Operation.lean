import RamlDoc.Defaults.Declaration
import RamlDoc.Model.Operation

/-!
# Defaults of operations

Methods and bodies inherit the protocols and the media types of the document. A body without media
types gets a variant for each inherited one, which holds what the body itself holds.
-/

namespace RamlDoc

/-- What the nodes of a document inherit from its root. -/
structure Inherited where
  /-- The media types of bodies that name none. -/
  mediaTypes : List MediaType
  /-- The protocols of methods that name none. -/
  protocols : List Protocol
deriving DecidableEq, Repr

/-- The protocols where nothing names any. -/
def Protocol.usual : List Protocol := [.http, .https]

/-- What is inherited where there is no document. -/
def Inherited.usual : Inherited := ⟨[], Protocol.usual⟩

namespace Parameter

/-- The parameter with its defaults: a required text. -/
def withDefaults (parameter : Parameter) : Parameter :=
  { parameter with
    type := some (parameter.type.getD (.scalar .string))
    required := some (parameter.required.getD true)
    examples := parameter.examples.mapElements Example.withDefaults }

@[simp] theorem name_withDefaults (parameter : Parameter) :
    parameter.withDefaults.name = parameter.name := rfl

@[simp] theorem withDefaults_withDefaults (parameter : Parameter) :
    parameter.withDefaults.withDefaults = parameter.withDefaults := by
  simp [withDefaults]

end Parameter

namespace Payload

/-- The payload with its defaults. -/
def withDefaults (payload : Payload) : Payload :=
  { payload with
    properties := payload.properties.mapElements Property.withDefaults
    examples := payload.examples.mapElements Example.withDefaults }

end Payload

namespace MediaTypeBody

/-- What is sent in a media type, with defaults. -/
def withDefaults (body : MediaTypeBody) : MediaTypeBody :=
  { body with payload := body.payload.withDefaults }

end MediaTypeBody

namespace Body

/-- The body with its defaults. -/
def withDefaults (inherited : Inherited) (body : Body) : Body :=
  let payload := body.payload.withDefaults
  { payload
    mediaTypes :=
      match body.mediaTypes with
      | some mediaTypes => some (mediaTypes.map MediaTypeBody.withDefaults)
      | none => Block.ofList (inherited.mediaTypes.map fun identifier => { identifier, payload }) }

end Body

namespace Response

/-- The response with its defaults. -/
def withDefaults (inherited : Inherited) (response : Response) : Response :=
  { response with
    headers := response.headers.mapElements Parameter.withDefaults
    body := response.body.map (Body.withDefaults inherited) }

end Response

namespace Exchange

/-- Parameters and responses with their defaults. -/
def withDefaults (inherited : Inherited) (exchange : Exchange) : Exchange where
  headers := exchange.headers.mapElements Parameter.withDefaults
  queryParameters := exchange.queryParameters.mapElements Property.withDefaults
  queryString := exchange.queryString.map Payload.withDefaults
  responses := exchange.responses.mapElements (Response.withDefaults inherited)

end Exchange

namespace Method

/-- The method with its defaults. -/
def withDefaults (inherited : Inherited) (method : Method) : Method :=
  { method with
    exchange := method.exchange.withDefaults inherited
    body := method.body.map (Body.withDefaults inherited)
    protocols := some (method.protocols.getD inherited.protocols) }

end Method

end RamlDoc
