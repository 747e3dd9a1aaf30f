import RamlDoc.Proofs.FieldsRead

/-!
# Invisible entries

A node is read from a mapping: some of its entries are looked up as fields, others are picked by
their keys, and nothing else counts (`MappingNode.Agrees.read_eq`). An entry that is neither, and a
field whose value is null, may stand anywhere in the mapping or not at all: the reading is the same,
be it a node or an error (`MappingNode.read_insert`).
-/

namespace RamlDoc

open Yaml

/-- A node that is read from a mapping, with what its reader is told. -/
inductive MappingNode where
  | document
  | library (identifier : String)
  | chapter
  | type (name : String)
  | property (name : String)
  /-- A header or a parameter of a URI. -/
  | parameter (name : String)
  | body
  | mediaType (identifier : MediaType)
  | queryString
  | method (verb : Verb) (optional : Bool)
  | response (code : Nat)
  | resource (path : String)
  | trait (name : String)
  | resourceType (identifier : String)
  | securityScheme (identifier : String)
  | describedBy
  | annotationType (name : String)

namespace MappingNode

/-- What is read. -/
def Model : MappingNode → Type
  | document => Document
  | library _ => Library
  | chapter => Chapter
  | type _ => TypeDeclaration
  | property _ => Property
  | parameter _ => Parameter
  | body => Option Body
  | mediaType _ => MediaTypeBody
  | queryString => Option Payload
  | method _ _ => Method
  | response _ => Response
  | resource _ => Resource
  | trait _ => TraitDefinition
  | resourceType _ => ResourceType
  | securityScheme _ => SecurityScheme
  | describedBy => Option SecurityDescription
  | annotationType _ => AnnotationType

/-- Reads the node from a mapping. -/
def read (source : Source) (entries : Entries) : (node : MappingNode) → Reading node.Model
  | document => Document.ofTree source (.mapping entries)
  | library identifier => Library.read source identifier (.mapping entries)
  | chapter => Chapter.read source (.mapping entries)
  | type name => TypeDeclaration.read source name (.mapping entries)
  | property name => Property.read source name (.mapping entries)
  | parameter name => Parameter.read source name (.mapping entries)
  | body => Body.ofTree source (.mapping entries)
  | mediaType identifier => MediaTypeBody.read source identifier (.mapping entries)
  | queryString => Payload.readQueryString source (soleField "queryString" (.mapping entries))
  | method verb optional => Method.read source verb optional (.mapping entries)
  | response code => Response.read source code (.mapping entries)
  | resource path => Resource.read source path (.mapping entries)
  | trait name => readFragment .trait TraitDefinition.ofEntries source name (.mapping entries)
  | resourceType identifier =>
    readFragment .resourceType ResourceType.ofEntries source identifier (.mapping entries)
  | securityScheme identifier =>
    readFragment .securityScheme SecurityScheme.ofEntries source identifier (.mapping entries)
  | describedBy => SecurityDescription.read source (soleField "describedBy" (.mapping entries))
  | annotationType name => AnnotationType.read source name (.mapping entries)

/-- The fields that the node looks up. -/
def fields : MappingNode → List String
  | document => Document.keys
  | library _ => Library.keys
  | chapter => Chapter.keys
  | type _ => TypeDeclaration.keys
  | property _ => Property.keys
  | parameter _ => Parameter.keys
  | body | mediaType _ | queryString => Payload.keys
  | method _ _ => Method.keys
  | response _ => Response.keys
  | resource _ => Resource.keys
  | trait _ => TraitDefinition.keys
  | resourceType _ => ResourceType.keys
  | securityScheme _ => SecurityScheme.keys
  | describedBy => Exchange.keys
  | annotationType _ => AnnotationType.keys

/-- Whether the node picks the annotations among its entries. -/
def picksAnnotations : MappingNode → Bool
  | library _ | body | mediaType _ | queryString => false
  | _ => true

/-- Whether the key is a path, a verb or a media type that the node picks. -/
def picksWord : MappingNode → String → Bool
  | document, key => (Resource.pathOf? (.string key)).isSome
  | resource _, key => (Resource.pathOf? (.string key)).isSome || (Method.verbOf? false key).isSome
  | resourceType _, key => (Method.verbOf? true key).isSome
  | body, key => MediaType.isValid key
  | _, _ => false

/-- Whether the node picks an entry by its key. -/
def picks (node : MappingNode) (key : String) : Bool :=
  (node.picksAnnotations && (annotationName? key).isSome) || node.picksWord key

/-- The node recognises a key. -/
def Recognises (node : MappingNode) (key : String) : Prop := key ∈ node.fields ∨ node.picks key

end MappingNode

/-! ## An entry more -/

section Insert

variable {before after : Entries} {key : String} {value : Tree}

/-- Other keys are looked up as if the entry were not there. -/
theorem get?_insert_of_ne {other : String} (h : other ≠ key) :
    Entries.get? (before ++ (.string key, value) :: after) other =
      Entries.get? (before ++ after) other := by
  simp only [Entries.get?, List.find?_append, List.find?_cons]
  have hkey : decide (Tree.string key = .string other) = false := by simpa using h.symm
  rw [hkey]

theorem get?_of_fresh {entries : Entries} (hfresh : ∀ entry ∈ entries, entry.1 ≠ .string key) :
    Entries.get? entries key = none := by
  simp only [Entries.get?, Option.map_eq_none_iff, List.find?_eq_none, decide_eq_true_eq]
  exact hfresh

theorem get?_insert_self (hfresh : ∀ entry ∈ before ++ after, entry.1 ≠ .string key) :
    Entries.get? (before ++ (.string key, value) :: after) key = some value := by
  have hbefore : before.find? (fun entry => entry.1 = .string key) = none := by
    simp only [List.find?_eq_none, decide_eq_true_eq]
    exact fun entry hentry => hfresh entry (List.mem_append_left _ hentry)
  simp [Entries.get?, List.find?_append, hbefore]

/-- A field whose value is null is as good as absent. -/
theorem field?_insert (hfresh : ∀ entry ∈ before ++ after, entry.1 ≠ .string key) {other : String}
    (h : other = key → value = .null) :
    Entries.field? (before ++ (.string key, value) :: after) other =
      Entries.field? (before ++ after) other := by
  unfold Entries.field?
  by_cases hother : other = key
  · obtain rfl := h hother
    rw [hother, get?_insert_self hfresh, get?_of_fresh hfresh]
    rfl
  · rw [get?_insert_of_ne hother]

theorem sameType_insert (hfresh : ∀ entry ∈ before ++ after, entry.1 ≠ .string key)
    (h : key = "type" → value = .null) :
    SameType (before ++ (.string key, value) :: after) (before ++ after) := by
  unfold SameType
  rw [DataType.ofTree?_mapping, DataType.ofTree?_mapping]
  by_cases hkey : key = "type"
  · obtain rfl := h hkey
    rw [← hkey, get?_insert_self hfresh, get?_of_fresh hfresh]
    rfl
  · rw [get?_insert_of_ne (Ne.symm hkey)]

theorem annotationsOf_insert (h : annotationName? key = none) :
    annotationsOf (before ++ (.string key, value) :: after) = annotationsOf (before ++ after) := by
  have hentry : annotationOf? (.string key, value) = none := by
    change (annotationName? key).map _ = none
    rw [h]
    rfl
  simp only [annotationsOf, List.filterMap_append, List.filterMap_cons_none hentry]

/-- A loop that skips an entry goes on as if the entry were not there. -/
theorem loop_insert {α : Type} {loop : Entries → Reading α} {entry : Tree × Tree}
    (step : Tree × Tree → Reading α → Reading α)
    (hstep : ∀ entry rest, loop (entry :: rest) = step entry (loop rest))
    (hskip : ∀ rest, step entry rest = rest) :
    loop (before ++ entry :: after) = loop (before ++ after) := by
  induction before with
  | nil => rw [List.nil_append, List.nil_append, hstep, hskip]
  | cons first before ih => rw [List.cons_append, List.cons_append, hstep, hstep, ih]

variable {source : Source}

theorem ofVerbs_insert {allowOptional : Bool} (h : Method.verbOf? allowOptional key = none) :
    Method.ofVerbs source allowOptional (before ++ (.string key, value) :: after) =
      Method.ofVerbs source allowOptional (before ++ after) := by
  refine loop_insert (fun entry rest =>
    (entry.1.asString?.bind (Method.verbOf? allowOptional)).elim rest fun verb => do
      let method ← Method.read source verb.1 verb.2 entry.2
      return method :: (← rest)) (fun entry rest => ?_) fun rest => ?_
  · rw [Method.ofVerbs]
    cases entry.1.asString?.bind (Method.verbOf? allowOptional) <;> rfl
  · have hkey : (Tree.string key).asString?.bind (Method.verbOf? allowOptional) = none := h
    simp only [hkey, Option.elim_none]

theorem readResources_insert (h : Resource.pathOf? (.string key) = none) :
    Resource.readEntries source (before ++ (.string key, value) :: after) =
      Resource.readEntries source (before ++ after) := by
  refine loop_insert (fun entry rest =>
    (Resource.pathOf? entry.1).elim rest fun path => do
      let resource ← Resource.read source path entry.2
      return resource :: (← rest)) (fun entry rest => ?_) fun rest => ?_
  · rw [Resource.readEntries]
    cases Resource.pathOf? entry.1 <;> rfl
  · simp only [h, Option.elim_none]

theorem readMediaTypes_insert (h : MediaType.isValid key = false) :
    MediaTypeBody.readAll source (before ++ (.string key, value) :: after) =
      MediaTypeBody.readAll source (before ++ after) := by
  refine loop_insert (fun entry rest => do
    let identifier ← keyText "Body" entry.1
    if MediaType.isValid identifier then
      let mediaType ← MediaTypeBody.read source identifier entry.2
      return mediaType :: (← rest)
    else rest) (fun entry rest => ?_) fun rest => ?_
  · rw [MediaTypeBody.readAll]
  · change (if MediaType.isValid key then _ else rest) = rest
    rw [h]
    rfl

end Insert

/-! ## Nodes -/

namespace MappingNode

/-- Two mappings have the same readings of the entries that the node picks by a path, a verb or a
media type. -/
def SameWords (source : Source) (first second : Entries) : MappingNode → Prop
  | document => Resource.readEntries source first = Resource.readEntries source second
  | resource _ =>
    Method.readAll source false first = Method.readAll source false second ∧
      Resource.readEntries source first = Resource.readEntries source second
  | resourceType _ => Method.readAll source true first = Method.readAll source true second
  | body => MediaTypeBody.readAll source first = MediaTypeBody.readAll source second
  | _ => True

/-- Two mappings are the same in all that the node takes from a mapping. -/
structure Agrees (node : MappingNode) (source : Source) (first second : Entries) : Prop where
  fields : SameFields node.fields first second
  type : "type" ∈ node.fields → SameType first second
  annotations : node.picksAnnotations = true → annotationsOf first = annotationsOf second
  words : node.SameWords source first second

variable {node : MappingNode} {source : Source} {first second before after : Entries}
  {key : String} {value : Tree}

/-- A node takes nothing else from a mapping. -/
theorem Agrees.read_eq (h : node.Agrees source first second) :
    node.read source first = node.read source second := by
  obtain ⟨hfields, htype, hannotations, hwords⟩ := h
  cases node with
  | document => exact Document.ofEntries_congr hfields (hannotations rfl) hwords
  | library identifier => exact Library.read_congr hfields identifier
  | chapter => exact Chapter.read_congr hfields (hannotations rfl)
  | type name =>
    have htype := htype (by simp [MappingNode.fields, TypeDeclaration.keys])
    exact TypeDeclaration.ofEntries_congr hfields htype (hannotations rfl) name
  | property name =>
    have htype := htype (by simp [MappingNode.fields, Property.keys])
    exact Property.ofEntries_congr hfields htype (hannotations rfl) name
  | parameter name =>
    have htype := htype (by simp [MappingNode.fields, Parameter.keys])
    exact Parameter.read_congr hfields htype (hannotations rfl) name
  | body =>
    have htype := htype (by simp [MappingNode.fields, Payload.keys])
    exact Body.ofTree_congr hfields htype hwords
  | mediaType identifier =>
    have htype := htype (by simp [MappingNode.fields, Payload.keys])
    exact MediaTypeBody.read_congr hfields htype identifier
  | queryString =>
    have htype := htype (by simp [MappingNode.fields, Payload.keys])
    have hpayload := @Payload.ofEntries_congr _ _ source hfields htype
    exact congrArg (some <$> ·) hpayload
  | method verb optional => exact Method.ofEntries_congr hfields (hannotations rfl) verb optional
  | response code => exact Response.ofEntries_congr hfields (hannotations rfl) code
  | resource path => exact Resource.read_congr hfields (hannotations rfl) hwords.1 hwords.2 path
  | trait name => exact TraitDefinition.ofEntries_congr hfields (hannotations rfl) name
  | resourceType identifier =>
    exact ResourceType.ofEntries_congr hfields (hannotations rfl) hwords identifier
  | securityScheme identifier =>
    exact SecurityScheme.ofEntries_congr hfields (hannotations rfl) identifier
  | describedBy =>
    have hexchange := @Exchange.read_congr _ _ source hfields
    change (do
      let exchange ← Exchange.read source _
      return some ({ exchange, annotations := annotationsOf _ } : SecurityDescription)) = _
    rw [hexchange, hannotations rfl]
    rfl
  | annotationType name => exact AnnotationType.ofEntries_congr hfields (hannotations rfl) name

theorem sameWords_insert (h : node.picksWord key = false) :
    node.SameWords source (before ++ (.string key, value) :: after) (before ++ after) := by
  unfold picksWord at h
  cases node with
  | document =>
    rw [Option.isSome_eq_false_iff, Option.isNone_iff_eq_none] at h
    exact readResources_insert h
  | resource path =>
    rw [Bool.or_eq_false_iff, Option.isSome_eq_false_iff, Option.isNone_iff_eq_none,
      Option.isSome_eq_false_iff, Option.isNone_iff_eq_none] at h
    exact ⟨congrArg (Block.ofList <$> ·) (ofVerbs_insert h.2), readResources_insert h.1⟩
  | resourceType identifier =>
    rw [Option.isSome_eq_false_iff, Option.isNone_iff_eq_none] at h
    exact congrArg (Block.ofList <$> ·) (ofVerbs_insert h)
  | body => exact readMediaTypes_insert h
  | _ => trivial

/-- No field that is looked up is also picked by its key. -/
theorem picks_of_mem_fields (h : key ∈ node.fields) : node.picks key = false := by
  have hall : ∀ key ∈ node.fields, node.picks key = false := by
    cases node <;> simp only [fields, picks, picksAnnotations, picksWord] <;> decide
  exact hall key h

/-- Null fields and unknown keys are invisible: where an entry is added to a mapping that does not
have its key, the reading stays as it is if the node does not recognise the key, and if it looks the
key up and the value is null. -/
theorem read_insert (node : MappingNode) (source : Source) {before after : Entries} {key : String}
    {value : Tree} (hfresh : ∀ entry ∈ before ++ after, entry.1 ≠ .string key)
    (h : (key ∈ node.fields ∧ value = .null) ∨ ¬node.Recognises key) :
    node.read source (before ++ (.string key, value) :: after) =
      node.read source (before ++ after) := by
  have hnull : key ∈ node.fields → value = .null := by
    intro hmem
    rcases h with ⟨-, hnull⟩ | hunknown
    · exact hnull
    · exact absurd (.inl hmem) hunknown
  have hpicks : node.picks key = false := by
    rcases h with ⟨hmem, -⟩ | hunknown
    · exact picks_of_mem_fields hmem
    · exact Bool.eq_false_iff.2 fun hpicks => hunknown (.inr hpicks)
  obtain ⟨hname, hword⟩ := Bool.or_eq_false_iff.1 hpicks
  refine Agrees.read_eq ⟨fun other hother => ?_, fun htype => ?_, fun hnode => ?_, ?_⟩
  · exact field?_insert hfresh fun hkey => hnull (hkey ▸ hother)
  · exact sameType_insert hfresh fun hkey => hnull (hkey ▸ htype)
  · rw [hnode, Bool.true_and, Option.isSome_eq_false_iff, Option.isNone_iff_eq_none] at hname
    exact annotationsOf_insert hname
  · exact sameWords_insert hword

/-- A method with a description, to which an unknown key or a null is added. -/
theorem read_insert_described :
    let described : Entries := [(.string "description", .string "All users.")]
    let source : Source := ⟨.empty, .detached {}⟩
    (∀ entry ∈ described ++ [], entry.1 ≠ .string "summary") ∧
      ¬(method .get false).Recognises "summary" ∧
      ((method .get false).read source (described ++ (.string "summary", .bool true) :: [])).result =
        .ok ({ verb := .get, description := some "All users." } : Method) ∧
      (∀ entry ∈ [] ++ described, entry.1 ≠ .string "body") ∧
      "body" ∈ (method .get false).fields ∧
      ((method .get false).read source ([] ++ (.string "body", .null) :: described)).result =
        .ok ({ verb := .get, description := some "All users." } : Method) := by
  intro described source
  have hsummary : ∀ entry ∈ described ++ [], entry.1 ≠ .string "summary" := by decide
  have hunknown : ¬(method .get false).Recognises "summary" := by
    unfold Recognises
    decide
  have hbody : ∀ entry ∈ [] ++ described, entry.1 ≠ .string "body" := by decide
  have hfield : "body" ∈ (method .get false).fields := by decide
  refine ⟨hsummary, hunknown, ?_, hbody, hfield, ?_⟩
  · rw [read_insert _ _ hsummary (.inr hunknown)]
    rfl
  · rw [read_insert _ _ hbody (.inl ⟨hfield, rfl⟩)]
    rfl

end MappingNode

end RamlDoc
