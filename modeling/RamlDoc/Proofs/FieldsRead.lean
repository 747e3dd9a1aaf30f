import RamlDoc.Proofs.NodeSites

/-!
# The fields that readers read

A reader of a mapping looks up some fields by name, and some readers go through the entries. What
they look up is listed once for each of them (`keys`). Two mappings that have the same values under
these keys (`SameFields`), and the same entries for the loops, have the same reading.
-/

namespace RamlDoc

open Yaml

/-- Two mappings have the same values under some keys. -/
def SameFields (keys : List String) (first second : Entries) : Prop :=
  ∀ key ∈ keys, Entries.field? first key = Entries.field? second key

namespace SameFields

variable {keys keys' : List String} {first second : Entries} {key : String}

theorem mono (h : SameFields keys first second) (hkeys : keys' ⊆ keys) :
    SameFields keys' first second := fun key hkey => h key (hkeys hkey)

/-- A mapping is read through its fields, and these are the same. -/
theorem field (h : SameFields keys first second) (hkey : key ∈ keys) :
    Entries.field? first key = Entries.field? second key := h key hkey

/-- What is read off a single field is the same. -/
theorem of {α : Type} (h : SameFields keys first second) (hkey : key ∈ keys) (expected : String)
    (value? : Tree → Option α) :
    Field.of first key expected value? = Field.of second key expected value? := by
  unfold Field.of
  rw [h key hkey]

theorem string (h : SameFields keys first second) (hkey : key ∈ keys) :
    Field.string first key = Field.string second key := h.of hkey _ _

theorem boolean (h : SameFields keys first second) (hkey : key ∈ keys) :
    Field.boolean first key = Field.boolean second key := h.of hkey _ _

theorem natural (h : SameFields keys first second) (hkey : key ∈ keys) :
    Field.natural first key = Field.natural second key := h.of hkey _ _

theorem number (h : SameFields keys first second) (hkey : key ∈ keys) :
    Field.number first key = Field.number second key := h.of hkey _ _

theorem mapping (h : SameFields keys first second) (hkey : key ∈ keys) :
    Field.mapping first key = Field.mapping second key := h.of hkey _ _

theorem strings (h : SameFields keys first second) (hkey : key ∈ keys) :
    Field.strings first key = Field.strings second key := by
  unfold Field.strings
  rw [h key hkey]

/-- A text is read off a single field, also where it may stand in a file of its own. -/
theorem text (h : SameFields keys first second) (hkey : key ∈ keys) (source : Source) :
    Field.text first key source = Field.text second key source := by
  unfold Field.text
  rw [h key hkey, h.string hkey]

end SameFields

namespace DataType

/-- A type expression in a mapping is the first entry under its key. -/
theorem ofEntries?_eq (key : String) (entries : Entries) :
    ofEntries? (some key) entries =
      (Entries.get? entries key).elim (.ok none) (ofTree? (some key)) := by
  induction entries with
  | nil => rfl
  | cons entry entries ih =>
    obtain ⟨k, v⟩ := entry
    unfold ofEntries?
    by_cases h : k = .string key
    · simp [h, Entries.get?]
    · simpa [h, Entries.get?] using ih

theorem ofTree?_mapping (key : String) (entries : Entries) :
    ofTree? (some key) (.mapping entries) =
      (Entries.get? entries key).elim (.ok none) (ofTree? (some key)) := by
  rw [ofTree?, ofEntries?_eq]

end DataType

/-- Two mappings declare the same type. -/
def SameType (first second : Entries) : Prop :=
  DataType.ofTree? (some "type") (.mapping first) = DataType.ofTree? (some "type") (.mapping second)

variable {first second : Entries} {source : Source}

/-! ## Declarations -/

namespace Restrictions

/-- The keys that restrictions are read off. -/
def keys : List String :=
  ["pattern", "minLength", "maxLength", "format", "minimum", "maximum", "multipleOf", "fileTypes"]

/-- Restrictions are read off their own keys. -/
theorem read_congr (h : SameFields keys first second) (type : Option DataType) :
    read first type = read second type := by
  have hstring : readString first = readString second := by
    unfold readString
    simp (disch := decide) only [h.string, h.natural]
  have hnumber : readNumber first = readNumber second := by
    unfold readNumber readFormat
    simp (disch := decide) only [h.string, h.number]
  have hfile : readFile first = readFile second := by
    unfold readFile
    simp (disch := decide) only [h.strings, h.natural]
  unfold read
  rw [hstring, hnumber, hfile]

end Restrictions

namespace Example

/-- The keys that examples are read off. -/
def keys : List String := ["example", "examples"]

/-- Examples are read off two keys. -/
theorem readAll_congr (h : SameFields keys first second) :
    readAll source first = readAll source second := by
  unfold readAll readSingle readNamed
  simp (disch := decide) only [h.field]

end Example

namespace Facets

/-- The keys that the facets of all kinds of nodes are read off. -/
def keys : List String :=
  Restrictions.keys ++ ["displayName", "description", "enum", "default"] ++ Example.keys

/-- Facets are read off their keys and the annotations, with whatever is read in their midst. -/
theorem read_congr {α : Type} (h : SameFields keys first second)
    (hannotations : annotationsOf first = annotationsOf second) (type : Option DataType)
    {others others' : Reading α} (hothers : others = others') :
    read source first type others = read source second type others' := by
  have hrestrictions : SameFields Restrictions.keys first second := h.mono (by simp [keys])
  have hexamples : SameFields Example.keys first second := h.mono (List.subset_append_right _ _)
  unfold read
  rw [Restrictions.read_congr hrestrictions, Example.readAll_congr hexamples, hannotations, hothers]
  simp (disch := decide) only [h.text, h.strings, h.field]

end Facets

namespace Property

/-- The keys that a property is read off. -/
def keys : List String := ["type", "required"] ++ Facets.keys

/-- A property is read off its keys, its type and the annotations. -/
theorem ofEntries_congr (h : SameFields keys first second) (htype : SameType first second)
    (hannotations : annotationsOf first = annotationsOf second) (name : String) :
    ofEntries source name first = ofEntries source name second := by
  unfold ofEntries
  rw [htype]
  simp (disch := decide) only [h.boolean,
    Facets.read_congr (h.mono (List.subset_append_right _ _)) hannotations _ rfl]

end Property

namespace TypeDeclaration

/-- The keys that a declared type is read off. -/
def keys : List String :=
  ["items", "type", "properties", "minProperties", "maxProperties", "additionalProperties",
    "discriminator", "discriminatorValue", "minItems", "maxItems", "uniqueItems", "facets"] ++
    Facets.keys

/-- A declared type is read off its keys, its type and the annotations. -/
theorem ofEntries_congr (h : SameFields keys first second) (htype : SameType first second)
    (hannotations : annotationsOf first = annotationsOf second) (name : String) :
    ofEntries source name first = ofEntries source name second := by
  have hothers : ∀ items, readOthers source first items = readOthers source second items := by
    intro items
    unfold readOthers readObject readArray
    simp (disch := decide) only [h.field, h.natural, h.boolean, h.string]
  have hfacets : SameFields Facets.keys first second := h.mono (List.subset_append_right _ _)
  have hitems : Entries.field? first "items" = Entries.field? second "items" :=
    h.field (by simp [keys])
  unfold ofEntries
  rw [hitems, htype]
  simp only [Facets.read_congr hfacets hannotations _ (hothers _)]

end TypeDeclaration

namespace AnnotationType

/-- The keys that an annotation type is read off. -/
def keys : List String := ["properties", "type", "displayName", "description", "allowedTargets"]

/-- An annotation type is read off its keys and the annotations. -/
theorem ofEntries_congr (h : SameFields keys first second)
    (hannotations : annotationsOf first = annotationsOf second) (name : String) :
    ofEntries source name first = ofEntries source name second := by
  unfold ofEntries
  rw [hannotations]
  simp (disch := decide) only [h.field, h.text, h.strings]

end AnnotationType

/-! ## Operations -/

theorem readTraitUsages_congr (h : Entries.field? first "is" = Entries.field? second "is") :
    readTraitUsages first = readTraitUsages second := by
  unfold readTraitUsages
  rw [h]

theorem readSecuredBy_congr
    (h : Entries.field? first "securedBy" = Entries.field? second "securedBy") :
    readSecuredBy first = readSecuredBy second := by
  unfold readSecuredBy
  rw [h]

theorem Protocol.readAll_congr
    (h : Entries.field? first "protocols" = Entries.field? second "protocols") :
    readAll first = readAll second := by
  unfold readAll Field.strings
  rw [h]

theorem Body.read_congr (h : Entries.field? first "body" = Entries.field? second "body") :
    read source first = read source second := by
  unfold read
  rw [h]

theorem Parameter.readOfUri_congr {key : String}
    (h : Entries.field? first key = Entries.field? second key) :
    readOfUri source key first = readOfUri source key second := by
  unfold readOfUri
  rw [h]

namespace Parameter

/-- The keys that a parameter is read off. -/
def keys : List String :=
  ["type", "displayName", "description", "required", "pattern", "enum", "default"] ++ Example.keys

theorem ofEntries_congr (h : SameFields keys first second)
    (hannotations : annotationsOf first = annotationsOf second) (name : String)
    (type : Option DataType) :
    ofEntries source name type first = ofEntries source name type second := by
  have hexamples : SameFields Example.keys first second := h.mono (List.subset_append_right _ _)
  unfold ofEntries
  rw [hannotations, Example.readAll_congr hexamples]
  simp (disch := decide) only [h.field, h.text, h.boolean, h.string, h.strings]

/-- A parameter is read off its keys, its type and the annotations. -/
theorem read_congr (h : SameFields keys first second) (htype : SameType first second)
    (hannotations : annotationsOf first = annotationsOf second) (name : String) :
    read source name (.mapping first) = read source name (.mapping second) := by
  have hentries := @ofEntries_congr _ _ source h hannotations name
  change (liftM (DataType.ofTree? _ _) >>= fun type => ofEntries source name type _) = _
  rw [htype]
  exact bind_congr hentries

end Parameter

namespace Payload

/-- The keys that a payload is read off. -/
def keys : List String := ["type", "properties"] ++ Example.keys

/-- A payload is read off its keys and its type. -/
theorem ofEntries_congr (h : SameFields keys first second) (htype : SameType first second) :
    ofEntries source first = ofEntries source second := by
  have hexamples : SameFields Example.keys first second := h.mono (List.subset_append_right _ _)
  unfold ofEntries
  rw [htype, Example.readAll_congr hexamples]
  simp (disch := decide) only [h.field]

end Payload

theorem MediaTypeBody.read_congr (h : SameFields Payload.keys first second)
    (htype : SameType first second) (identifier : MediaType) :
    read source identifier (.mapping first) = read source identifier (.mapping second) := by
  have hpayload := @Payload.ofEntries_congr _ _ source h htype
  change (do return ({ identifier, payload := ← Payload.ofEntries source _ } : MediaTypeBody)) = _
  rw [hpayload]
  rfl

/-- A body is read off its payload and the entries whose keys are media types. -/
theorem Body.ofTree_congr (h : SameFields Payload.keys first second) (htype : SameType first second)
    (hmediaTypes : MediaTypeBody.readAll source first = MediaTypeBody.readAll source second) :
    ofTree source (.mapping first) = ofTree source (.mapping second) := by
  have hpayload := @Payload.ofEntries_congr _ _ source h htype
  unfold ofTree
  dsimp only
  rw [hmediaTypes, hpayload]

namespace Exchange

/-- The keys that an exchange is read off. -/
def keys : List String := ["headers", "queryParameters", "queryString", "responses"]

/-- An exchange is read off four keys. -/
theorem read_congr (h : SameFields keys first second) : read source first = read source second := by
  unfold read Parameter.readHeaders readQueryParameters Payload.readQueryString Response.readAll
  simp (disch := decide) only [h.field]

theorem readOfMethod_congr (h : SameFields keys first second) :
    readOfMethod source first = readOfMethod source second := by
  unfold readOfMethod Parameter.readHeaders readQueryParameters Payload.readQueryString
    Response.readAll
  simp (disch := decide) only [h.field]

end Exchange

namespace Response

def keys : List String := ["description", "headers", "body"]

/-- A response is read off its keys and the annotations. -/
theorem ofEntries_congr (h : SameFields keys first second)
    (hannotations : annotationsOf first = annotationsOf second) (code : Nat) :
    ofEntries source code first = ofEntries source code second := by
  unfold ofEntries Parameter.readHeaders
  rw [hannotations, Body.read_congr (h.field (by simp [keys]))]
  simp (disch := decide) only [h.field, h.text]

end Response

namespace Method

def keys : List String :=
  ["displayName", "description", "body", "protocols", "is", "securedBy"] ++ Exchange.keys

/-- A method is read off its keys and the annotations. -/
theorem ofEntries_congr (h : SameFields keys first second)
    (hannotations : annotationsOf first = annotationsOf second) (verb : Verb) (optional : Bool) :
    ofEntries source verb optional first = ofEntries source verb optional second := by
  have hexchange : SameFields Exchange.keys first second := h.mono (List.subset_append_right _ _)
  unfold ofEntries
  rw [hannotations, Exchange.readOfMethod_congr hexchange,
    Body.read_congr (h.field (by simp [keys])), Protocol.readAll_congr (h.field (by simp [keys])),
    readTraitUsages_congr (h.field (by simp [keys])),
    readSecuredBy_congr (h.field (by simp [keys]))]
  simp (disch := decide) only [h.text]

end Method

/-! ## Resources, templates and documents -/

namespace Resource

def keys : List String :=
  ["displayName", "description", "is", "type", "securedBy", "uriParameters"]

/-- A resource is read off its keys, the annotations, its methods and the resources in it. -/
theorem ofEntries_congr (h : SameFields keys first second)
    (hannotations : annotationsOf first = annotationsOf second)
    (hmethods : Method.readAll source false first = Method.readAll source false second)
    {readChildren readChildren' : Reading (List Resource)}
    (hchildren : readChildren = readChildren') (path : String) :
    ofEntries source path first readChildren = ofEntries source path second readChildren' := by
  unfold ofEntries
  rw [hannotations, hmethods, hchildren, readTraitUsages_congr (h.field (by simp [keys])),
    readSecuredBy_congr (h.field (by simp [keys])),
    Parameter.readOfUri_congr (h.field (by simp [keys]))]
  simp (disch := decide) only [h.text, h.field]

theorem read_congr (h : SameFields keys first second)
    (hannotations : annotationsOf first = annotationsOf second)
    (hmethods : Method.readAll source false first = Method.readAll source false second)
    (hresources : readEntries source first = readEntries source second) (path : String) :
    read source path (.mapping first) = read source path (.mapping second) := by
  rw [read, read, Source.openSlot_of_inline rfl, Source.openSlot_of_inline rfl]
  simp only [pure_bind, Slot.inPlace, readContent]
  exact ofEntries_congr h hannotations hmethods hresources path

end Resource

namespace TraitDefinition

def keys : List String :=
  ["usage", "displayName", "description", "body", "protocols", "securedBy"] ++ Exchange.keys

/-- A trait is read off its keys and the annotations. -/
theorem ofEntries_congr (h : SameFields keys first second)
    (hannotations : annotationsOf first = annotationsOf second) (name : String) :
    ofEntries source name first = ofEntries source name second := by
  have hexchange : SameFields Exchange.keys first second := h.mono (List.subset_append_right _ _)
  unfold ofEntries
  rw [hannotations, Exchange.read_congr hexchange,
    Body.read_congr (h.field (by simp [keys])), Protocol.readAll_congr (h.field (by simp [keys])),
    readSecuredBy_congr (h.field (by simp [keys]))]
  simp (disch := decide) only [h.text]

end TraitDefinition

namespace ResourceType

def keys : List String :=
  ["usage", "displayName", "description", "uriParameters", "is", "securedBy"]

/-- A resource type is read off its keys, the annotations and its methods. -/
theorem ofEntries_congr (h : SameFields keys first second)
    (hannotations : annotationsOf first = annotationsOf second)
    (hmethods : Method.readAll source true first = Method.readAll source true second)
    (identifier : String) :
    ofEntries source identifier first = ofEntries source identifier second := by
  unfold ofEntries
  rw [hannotations, hmethods, readTraitUsages_congr (h.field (by simp [keys])),
    readSecuredBy_congr (h.field (by simp [keys])),
    Parameter.readOfUri_congr (h.field (by simp [keys]))]
  simp (disch := decide) only [h.text]

end ResourceType

theorem SecurityDescription.read_congr
    (h : Entries.field? first "describedBy" = Entries.field? second "describedBy") :
    read source first = read source second := by
  unfold read
  rw [h]

namespace SecurityScheme

def keys : List String := ["type", "settings", "displayName", "description", "describedBy"]

/-- A security scheme is read off its keys and the annotations. -/
theorem ofEntries_congr (h : SameFields keys first second)
    (hannotations : annotationsOf first = annotationsOf second) (identifier : String) :
    ofEntries source identifier first = ofEntries source identifier second := by
  unfold ofEntries SecurityType.read SecuritySettings.read
  rw [hannotations, SecurityDescription.read_congr (h.field (by simp [keys]))]
  simp (disch := decide) only [h.string, h.mapping, h.text]

end SecurityScheme

namespace Declarations

def keys : List String := ["types", "traits", "resourceTypes", "annotationTypes", "securitySchemes"]

theorem readOfDocument_congr (h : SameFields keys first second) :
    readOfDocument source first = readOfDocument source second := by
  unfold readOfDocument
  simp (disch := decide) only [h.field]

theorem readOfLibrary_congr (h : SameFields keys first second) :
    readOfLibrary source first = readOfLibrary source second := by
  unfold readOfLibrary
  simp (disch := decide) only [h.field]

end Declarations

namespace Library

def keys : List String := ["usage", "uses"] ++ Declarations.keys

/-- The libraries that are used are read off one key. -/
theorem readUses_congr (h : Entries.field? first "uses" = Entries.field? second "uses") :
    readUses source first = readUses source second := by
  rw [readUses, readUses]
  split
  next hfirst =>
    rw [h] at hfirst
    split
    · rfl
    · next hsecond =>
      rw [hfirst] at hsecond
      cases hsecond
  next tree hfirst =>
    rw [h] at hfirst
    split
    · next hsecond =>
      rw [hfirst] at hsecond
      cases hsecond
    · next hsecond =>
      obtain rfl := Option.some.inj (hfirst.symm.trans hsecond)
      rfl

theorem ofEntries_congr (h : SameFields keys first second) (identifier : String) :
    ofEntries source identifier first (readUses source first) =
      ofEntries source identifier second (readUses source second) := by
  have hdeclarations : SameFields Declarations.keys first second :=
    h.mono (List.subset_append_right _ _)
  unfold ofEntries
  rw [Declarations.readOfLibrary_congr hdeclarations, readUses_congr (h.field (by simp [keys]))]
  simp (disch := decide) only [h.text]

/-- A library is read off its keys. -/
theorem read_congr (h : SameFields keys first second) (identifier : String) :
    read source identifier (.mapping first) = read source identifier (.mapping second) := by
  simp only [read, pathOf?, includeTarget?, Tree.asString?, Tree.untagged, Option.or_none,
    Option.map_none, readInPlace]
  exact ofEntries_congr h identifier

end Library

namespace Chapter

def keys : List String := ["title", "content"]

theorem read_congr (h : SameFields keys first second)
    (hannotations : annotationsOf first = annotationsOf second) :
    read source (.mapping first) = read source (.mapping second) := by
  unfold read
  dsimp only
  rw [hannotations]
  simp (disch := decide) only [h.text]

end Chapter

namespace Document

def keys : List String :=
  ["title", "description", "version", "baseUri", "baseUriParameters", "protocols", "mediaType",
    "documentation", "securedBy", "uses"] ++ Declarations.keys

theorem ofEntries_congr (h : SameFields keys first second)
    (hannotations : annotationsOf first = annotationsOf second)
    (hresources : Resource.readEntries source first = Resource.readEntries source second) :
    ofEntries source first = ofEntries source second := by
  have hdeclarations : SameFields Declarations.keys first second :=
    h.mono (List.subset_append_right _ _)
  have hdocumentation : Chapter.readAll source first = Chapter.readAll source second := by
    unfold Chapter.readAll
    simp (disch := decide) only [h.field]
  unfold ofEntries
  rw [hannotations, hresources, hdocumentation, Declarations.readOfDocument_congr hdeclarations,
    Parameter.readOfUri_congr (h.field (by simp [keys])),
    Protocol.readAll_congr (h.field (by simp [keys])),
    readSecuredBy_congr (h.field (by simp [keys])),
    Library.readUses_congr (h.field (by simp [keys]))]
  simp (disch := decide) only [h.text, h.string, h.strings]

end Document

end RamlDoc
