import RamlDoc.Model.Template
import RamlDoc.Read.Operation

/-!
# Reading templates and security schemes

Reading traits, resource types and security schemes. Each may be included from a fragment of its
kind, and an error in one is told with its name.
-/

namespace RamlDoc

open Yaml

/-- Reads a block of declarations that may be fragments; errors are told with the name of the
declaration. -/
def readFragments {α : Type} (source : Source) (key construct : String) (fragment : FragmentKind)
    (kind : NodeKind) (ofEntries : Source → String → Entries → Reading α) :
    Option Tree → Reading (Block α) :=
  readBlock source key construct fun source name tree =>
    Reading.mapError (.failed kind name) do
      let slot ← source.openSlot (some fragment) tree
      let entries ← entriesOf name slot.content
      ofEntries slot.origin name entries

namespace TraitDefinition

/-- Reads a trait from the entries of a mapping. -/
def ofEntries (source : Source) (name : String) (entries : Entries) : Reading TraitDefinition := do
  let usage ← Field.text entries "usage" source
  let displayName ← Field.text entries "displayName" source
  let description ← Field.text entries "description" source
  let exchange ← Exchange.read source entries
  let body ← Body.read source entries
  let protocols ← Protocol.readAll entries
  let securedBy ← readSecuredBy entries
  return { name, usage, displayName, description
           annotations := annotationsOf entries
           exchange, body, protocols, securedBy }

/-- Reads a block of traits. -/
def readAll (source : Source) : Option Tree → Reading (Block TraitDefinition) :=
  readFragments source "traits" "Trait" .trait .trait ofEntries

end TraitDefinition

namespace ResourceType

/-- Reads a resource type from the entries of a mapping. -/
def ofEntries (source : Source) (identifier : String) (entries : Entries) :
    Reading ResourceType := do
  let usage ← Field.text entries "usage" source
  let displayName ← Field.text entries "displayName" source
  let description ← Field.text entries "description" source
  let methods ← Method.readAll source true entries
  let uriParameters ← Parameter.readOfUri source "uriParameters" entries
  let traits ← readTraitUsages entries
  let securedBy ← readSecuredBy entries
  return { identifier, usage, displayName, description
           annotations := annotationsOf entries
           methods, uriParameters, traits, securedBy }

/-- Reads a block of resource types. -/
def readAll (source : Source) : Option Tree → Reading (Block ResourceType) :=
  readFragments source "resourceTypes" "Resource Type" .resourceType .resourceType ofEntries

end ResourceType

namespace SecurityType

/-- Reads the type of a security scheme. -/
def read (entries : Entries) : Except Error SecurityType := do
  let name ← Field.required "type" "security scheme" (← Field.string entries "type")
  match ofName? name with
  | some type => return type
  | none => throw (.invalidValue "security scheme type" name)

end SecurityType

namespace SecuritySettings

/-- Reads the settings of a scheme of type OAuth 1.0. -/
def readOAuth1 (entries : Entries) : Except Error OAuth1Settings := do
  let requestTokenUri ← Field.string entries "requestTokenUri"
  let authorizationUri ← Field.string entries "authorizationUri"
  let tokenCredentialsUri ← Field.string entries "tokenCredentialsUri"
  let signatures ← Field.strings entries "signatures"
  return { requestTokenUri, authorizationUri, tokenCredentialsUri, signatures }

/-- Reads the settings of a scheme of type OAuth 2.0. -/
def readOAuth2 (entries : Entries) : Except Error OAuth2Settings := do
  let authorizationUri ← Field.string entries "authorizationUri"
  let accessTokenUri ← Field.string entries "accessTokenUri"
  let authorizationGrants ← Field.strings entries "authorizationGrants"
  let scopes ← Field.strings entries "scopes"
  return { authorizationUri, accessTokenUri, authorizationGrants, scopes }

/-- Reads the settings of a scheme by its type. -/
def ofEntries (type : SecurityType) (entries : Entries) : Except Error SecuritySettings :=
  match type with
  | .oAuth1 => .oAuth1 <$> readOAuth1 entries
  | .oAuth2 => .oAuth2 <$> readOAuth2 entries
  | _ => .ok (.other entries)

/-- Reads the `settings` field of a scheme. -/
def read (type : SecurityType) (entries : Entries) : Except Error (Option SecuritySettings) := do
  match ← Field.mapping entries "settings" with
  | none => return none
  | some settings => return some (← ofEntries type settings)

end SecuritySettings

namespace SecurityDescription

/-- Reads the `describedBy` field of a scheme. -/
def read (source : Source) (entries : Entries) : Reading (Option SecurityDescription) :=
  match Entries.field? entries "describedBy" with
  | none => pure none
  | some tree => do
    let entries ← entriesOf "describedBy" tree
    let exchange ← Exchange.read source entries
    return some { exchange, annotations := annotationsOf entries }

end SecurityDescription

namespace SecurityScheme

/-- Reads a security scheme from the entries of a mapping. -/
def ofEntries (source : Source) (identifier : String) (entries : Entries) :
    Reading SecurityScheme := do
  let type ← SecurityType.read entries
  let settings ← SecuritySettings.read type entries
  let displayName ← Field.text entries "displayName" source
  let description ← Field.text entries "description" source
  let describedBy ← SecurityDescription.read source entries
  return { identifier, type, displayName, description, describedBy, settings
           annotations := annotationsOf entries }

/-- Reads a block of security schemes. -/
def readAll (source : Source) : Option Tree → Reading (Block SecurityScheme) :=
  readFragments source "securitySchemes" "Security Scheme" .securityScheme .securityScheme
    ofEntries

end SecurityScheme

end RamlDoc
