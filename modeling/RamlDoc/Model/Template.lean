import RamlDoc.Model.Operation

/-!
# Templates and security schemes

Traits, resource types and security schemes: declarations that resources and methods refer to by
name.
-/

namespace RamlDoc

open Yaml

/-- A declaration of a trait. -/
structure TraitDefinition where
  name : String
  usage : Option String := none
  displayName : Option String := none
  description : Option String := none
  annotations : Block AnnotationUse := none
  exchange : Exchange := {}
  body : Option Body := none
  protocols : Block Protocol := none
  securedBy : Block Usage := none
deriving DecidableEq, Repr

/-- A declaration of a resource type. -/
structure ResourceType where
  identifier : String
  usage : Option String := none
  displayName : Option String := none
  description : Option String := none
  annotations : Block AnnotationUse := none
  methods : Block Method := none
  uriParameters : Block Parameter := none
  traits : Block Usage := none
  securedBy : Block Usage := none
deriving DecidableEq, Repr

/-- The types of security schemes. -/
inductive SecurityType where
  | oAuth1
  | oAuth2
  | basic
  | digest
  | passThrough
  /-- A type of another name, which starts with `x-`. -/
  | custom (name : String)
deriving DecidableEq, Repr

namespace SecurityType

/-- The name of a security scheme's type. -/
def name : SecurityType → String
  | .oAuth1 => "OAuth 1.0"
  | .oAuth2 => "OAuth 2.0"
  | .basic => "Basic Authentication"
  | .digest => "Digest Authentication"
  | .passThrough => "Pass Through"
  | .custom name => name

/-- The types with a name of their own. -/
def known : List SecurityType := [.oAuth1, .oAuth2, .basic, .digest, .passThrough]

/-- Whether a name is one of a custom type. -/
def isCustomName (s : String) : Bool :=
  (Text.afterStart? ['x', '-'] s.toList).any fun rest => !rest.isEmpty

/-- The type with a given name. -/
def ofName? (s : String) : Option SecurityType :=
  (known.find? fun type => type.name = s).or (if isCustomName s then some (.custom s) else none)

end SecurityType

/-- The settings of a scheme of type OAuth 1.0. -/
structure OAuth1Settings where
  requestTokenUri : Option String
  authorizationUri : Option String
  tokenCredentialsUri : Option String
  signatures : Option (List String)
deriving DecidableEq, Repr

/-- The settings of a scheme of type OAuth 2.0. -/
structure OAuth2Settings where
  authorizationUri : Option String
  accessTokenUri : Option String
  authorizationGrants : Option (List String)
  scopes : Option (List String)
deriving DecidableEq, Repr

/-- The settings of a security scheme, by its type. -/
inductive SecuritySettings where
  | oAuth1 (settings : OAuth1Settings)
  | oAuth2 (settings : OAuth2Settings)
  /-- Settings without a fixed form, as they were written. -/
  | other (settings : Entries)
deriving DecidableEq, Repr

/-- What a security scheme adds to the requests and responses it secures. -/
structure SecurityDescription where
  exchange : Exchange := {}
  annotations : Block AnnotationUse := none
deriving DecidableEq, Repr

/-- A declaration of a security scheme. -/
structure SecurityScheme where
  identifier : String
  type : SecurityType
  displayName : Option String := none
  description : Option String := none
  describedBy : Option SecurityDescription := none
  settings : Option SecuritySettings := none
  annotations : Block AnnotationUse := none
deriving DecidableEq, Repr

end RamlDoc
