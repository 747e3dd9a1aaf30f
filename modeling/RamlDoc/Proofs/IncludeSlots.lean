import RamlDoc.Proofs.Entering
import RamlDoc.Proofs.IncludeFree

/-!
# Places of includes

The places that may hold a directive without a fragment kind: the nodes whose readers open a slot
(`NodeSlot`) and the fields that hold a whole block (`BlockField`). A directive that leads to a file
is replaced by what the file holds. In a block this is read like any block
(`BlockField.result_read_of_resolve`). In the place of a node it is read as a node, so this holds
unless it is a directive again (`NodeSlot.result_read_of_resolve`), and a second directive is taken
for a value (`NodeSlot.result_read_of_directive`). A tree without directives has the same result in
all sources (`BlockField.result_read_eq`, `NodeSlot.result_read_eq`).
-/

namespace RamlDoc

open Yaml

/-- A null is written without a tag. A field with a tagged null counts as absent, but the same value
in an included file is a value of the wrong kind. -/
def NullUntagged (tree : Tree) : Prop := tree.isNull → tree = .null

/-- No directive is null. -/
theorem Directive.isNull_eq_false {tree : Tree} {target : String} (h : Directive tree target) :
    tree.isNull = false := by
  cases h with
  | tagged h =>
    unfold Tree.asString? at h
    rw [Tree.isNull, Tree.untagged]
    split at h
    next hstring => rw [hstring]
    next => cases h
  | spelled => rfl

theorem Directive.nullUntagged {tree : Tree} {target : String} (h : Directive tree target) :
    NullUntagged tree := fun hnull => Bool.noConfusion (h.isNull_eq_false.symm.trans hnull)

/-- A value that is not null is found under its key. -/
theorem Entries.field?_of_get? {entries : Entries} {key : String} {tree : Tree}
    (h : Entries.get? entries key = some tree) : Entries.field? entries key = given? tree := by
  rw [Entries.field?, h, given?]
  cases hnull : tree.isNull <;> simp [hnull]

/-! ## Following one directive -/

namespace Source

variable {α : Type} {source : Source} {tree : Tree} {included : Included source}

theorem resolve_eq_ok_iff {fragment : Option FragmentKind} :
    (source.resolve tree fragment).result = .ok included ↔
      ∃ target, Directive tree target ∧
        (source.resolveTarget target fragment).result = .ok included := by
  unfold resolve
  rw [Reading.result_bind, Reading.result_monadLift]
  constructor
  · intro h
    obtain ⟨target, htarget, h⟩ := exists_of_bind_eq_ok h
    exact ⟨target, includeTarget?_eq_some_iff.1 (directive_eq_ok_iff.1 htarget), h⟩
  · rintro ⟨target, htarget, h⟩
    rw [directive_eq_ok_iff.2 (includeTarget?_eq_some_iff.2 htarget)]
    exact h

theorem isInclude_of_resolve {fragment : Option FragmentKind}
    (h : (source.resolve tree fragment).result = .ok included) : isInclude tree := by
  obtain ⟨target, htarget, -⟩ := resolve_eq_ok_iff.1 h
  rw [isInclude, includeTarget?_eq_some_iff.2 htarget]
  rfl

/-- In the place of a node stands what the file holds that a directive leads to. -/
theorem result_openSlot_bind (hresolve : (source.resolve tree none).result = .ok included)
    (read : Slot source tree → Reading α) :
    (source.openSlot none tree >>= read).result = (read (.ofIncluded included)).result := by
  unfold openSlot
  rw [if_pos (isInclude_of_resolve hresolve), Reading.result_bind, Reading.result_map, hresolve]
  rfl

theorem result_openSlot_bind_inPlace (hplace : isInclude tree = false)
    (read : Slot source tree → Reading α) :
    (source.openSlot none tree >>= read).result = (read (.inPlace source tree)).result := by
  rw [openSlot_of_inline hplace, pure_bind]

/-- In the place of a block stands what stands in the place of the file's tree. -/
theorem result_openBlock_bind (hresolve : (source.resolve tree none).result = .ok included)
    (read : Source → Tree → Reading α) :
    (source.openBlock tree >>= fun slot => read slot.origin slot.content).result =
      (included.source.openBlock included.tree >>= fun slot =>
        read slot.origin slot.content).result := by
  rw [openBlock, if_pos (isInclude_of_resolve hresolve)]
  simp only [Reading.result_bind, hresolve, bind_assoc]
  rfl

end Source

/-! ## Blocks -/

/-- The fields that hold a block of declarations. -/
inductive BlockField
  | types | properties | queryParameters | facets | headers | uriParameters | baseUriParameters
  | traits | resourceTypes | annotationTypes | securitySchemes | uses
deriving DecidableEq

namespace BlockField

/-- The key of the field. -/
def key : BlockField → String
  | types => "types"
  | properties => "properties"
  | queryParameters => "queryParameters"
  | facets => "facets"
  | headers => "headers"
  | uriParameters => "uriParameters"
  | baseUriParameters => "baseUriParameters"
  | traits => "traits"
  | resourceTypes => "resourceTypes"
  | annotationTypes => "annotationTypes"
  | securitySchemes => "securitySchemes"
  | uses => "uses"

/-- What the block declares. -/
def Item : BlockField → Type
  | types => TypeDeclaration
  | properties | queryParameters | facets => Property
  | headers | uriParameters | baseUriParameters => Parameter
  | traits => TraitDefinition
  | resourceTypes => ResourceType
  | annotationTypes => AnnotationType
  | securitySchemes => SecurityScheme
  | uses => Library

/-- Reads the field of a mapping. -/
def read (source : Source) (entries : Entries) : (field : BlockField) → Reading (Block field.Item)
  | types => TypeDeclaration.readAll source (Entries.field? entries "types")
  | properties => Property.readAll source (Entries.field? entries "properties")
  | queryParameters => Exchange.readQueryParameters source entries
  | facets => Property.readAll source (Entries.field? entries "facets")
  | headers => Parameter.readHeaders source entries
  | uriParameters => Parameter.readOfUri source "uriParameters" entries
  | baseUriParameters => Parameter.readOfUri source "baseUriParameters" entries
  | traits => TraitDefinition.readAll source (Entries.field? entries "traits")
  | resourceTypes => ResourceType.readAll source (Entries.field? entries "resourceTypes")
  | annotationTypes => AnnotationType.readAll source (Entries.field? entries "annotationTypes")
  | securitySchemes => SecurityScheme.readAll source (Entries.field? entries "securitySchemes")
  | uses => Library.readUses source entries

/-- Reads a field that holds a block, given how the block is read once it is found. -/
def readWith {α : Type} (source : Source) (readContent : Source → Tree → Reading (Block α)) :
    Option Tree → Reading (Block α)
  | none => pure none
  | some tree => source.openBlock tree >>= fun slot => readContent slot.origin slot.content

/-- Reads the block that stands in a slot. -/
def readBlockContent {α : Type} (key construct : String)
    (read : Source → String → Tree → Reading α) (source : Source) : Tree → Reading (Block α)
  | .mapping entries => Block.ofList <$> readEntries construct (read source) entries
  | .null => pure none
  | other => Reading.fail (.unexpected key "a mapping" other)

theorem exists_readBlock_eq {α : Type} (key construct : String)
    (read : Source → String → Tree → Reading α) :
    ∃ readContent : Source → Tree → Reading (Block α),
      (∀ source, readContent source .null = pure none) ∧
      ∀ source field, readBlock source key construct read field =
        readWith source readContent field := by
  refine ⟨readBlockContent key construct read, fun source => rfl, ?_⟩
  intro source field
  cases field <;> rfl

theorem exists_readFragments_eq {α : Type} (key construct : String) (fragment : FragmentKind)
    (kind : NodeKind) (ofEntries : Source → String → Entries → Reading α) :
    ∃ readContent : Source → Tree → Reading (Block α),
      (∀ source, readContent source .null = pure none) ∧
      ∀ source field, readFragments source key construct fragment kind ofEntries field =
        readWith source readContent field :=
  exists_readBlock_eq key construct _

/-- Each block is found in the same way, and null is an absent block. -/
theorem exists_read_eq (field : BlockField) :
    ∃ readContent : Source → Tree → Reading (Block field.Item),
      (∀ source, readContent source .null = pure none) ∧
      ∀ source entries, field.read source entries =
        readWith source readContent (Entries.field? entries field.key) := by
  cases field with
  | uses =>
    refine ⟨Library.readContent, fun source => by rw [Library.readContent]; rfl, ?_⟩
    intro source entries
    change Library.readUses source entries = _
    rw [Library.readUses, key]
    split
    next h => rw [h]; rfl
    next h => rw [h]; rfl
  | traits | resourceTypes | securitySchemes =>
    obtain ⟨readContent, hnull, hread⟩ := exists_readFragments_eq _ _ _ _ _
    exact ⟨readContent, hnull, fun source entries => hread source _⟩
  | annotationTypes =>
    obtain ⟨readContent, hnull, hread⟩ := exists_readBlock_eq "annotationTypes" "Annotation Type"
      fun source name tree =>
        (AnnotationType.read source name tree).mapError (.failed .annotationType name)
    exact ⟨readContent, hnull, fun source entries => hread source _⟩
  | _ =>
    obtain ⟨readContent, hnull, hread⟩ := exists_readBlock_eq _ _ _
    exact ⟨readContent, hnull, fun source entries => hread source _⟩

/-- A mapping with no other field. -/
def alone (field : BlockField) (tree : Tree) : Entries := [(.string field.key, tree)]

theorem get?_alone (field : BlockField) (tree : Tree) :
    Entries.get? (field.alone tree) field.key = some tree := by
  simp [alone, Entries.get?]

/-- What is read depends on the value under the key alone. -/
theorem read_eq_read_alone (field : BlockField) (source : Source) {entries : Entries} {tree : Tree}
    (h : Entries.get? entries field.key = some tree) :
    field.read source entries = field.read source (field.alone tree) := by
  obtain ⟨readContent, -, hread⟩ := field.exists_read_eq
  rw [hread, hread, Entries.field?_of_get? h, Entries.field?_of_get? (field.get?_alone tree)]

/-- A directive in the place of a block is replaced by what the file holds. -/
theorem result_read_of_resolve (field : BlockField) {source : Source} {tree : Tree}
    {included : Included source} (hresolve : (source.resolve tree none).result = .ok included)
    (hnull : NullUntagged included.tree) :
    (field.read source (field.alone tree)).result =
      (field.read included.source (field.alone included.tree)).result := by
  obtain ⟨readContent, hcontent, hread⟩ := field.exists_read_eq
  obtain ⟨target, htarget, -⟩ := Source.resolve_eq_ok_iff.1 hresolve
  have hgiven : given? tree = some tree := if_neg (by rw [htarget.isNull_eq_false]; exact nofun)
  rw [hread, hread, Entries.field?_of_get? (field.get?_alone tree), hgiven,
    Entries.field?_of_get? (field.get?_alone included.tree), readWith]
  rw [Source.result_openBlock_bind hresolve, given?]
  -- in the file a null is found, in a mapping the field is absent
  split
  next h =>
    rw [hnull h, Source.openBlock_of_inline rfl]
    exact congrArg Reading.result (hcontent included.source)
  next => rfl

/-- The values of the field that are read alike in all sources: a library that is used by its path
alone leads from the file it is written in. -/
def Admits (field : BlockField) (tree : Tree) : Prop :=
  NullUntagged tree ∧ (field = uses → Library.WrittenOut tree)

/-- A block without directives has the same result in all sources. -/
theorem result_read_eq (field : BlockField) {tree : Tree} (hfree : IncludeFree tree)
    (hadmits : field.Admits tree) (source other : Source) :
    (field.read source (field.alone tree)).result =
      (field.read other (field.alone tree)).result := by
  have hcovers : Agreement.alike.Covers source other (field.alone tree) := by
    rintro entry hentry
    rw [List.mem_singleton.1 hentry]
    exact hfree
  cases field with
  | types => exact TypeDeclaration.agree_readAll hcovers _
  | properties | queryParameters | facets => exact Property.agree_readAll hcovers _
  | headers => exact Parameter.agree_readHeaders hcovers
  | uriParameters | baseUriParameters => exact Parameter.agree_readOfUri hcovers _
  | traits => exact TraitDefinition.agree_readAll hcovers _
  | resourceTypes => exact ResourceType.agree_readAll hcovers _
  | annotationTypes => exact AnnotationType.agree_readAll hcovers _
  | securitySchemes => exact SecurityScheme.agree_readAll hcovers _
  | uses =>
    refine Library.alike_readUses hcovers fun used hfield => ?_
    have hgiven := (Entries.field?_of_get? (get?_alone uses tree)).symm.trans hfield
    unfold given? at hgiven
    split at hgiven
    · cases hgiven
    · cases hgiven
      exact Library.alike_readContent (hadmits.2 rfl) hfree

end BlockField

/-! ## Nodes -/

/-- The places of nodes that may be included: an entry with a given name, or the field `body` of a
mapping whose other entries are given. -/
inductive NodeSlot
  | type (name : String)
  | property (name : String)
  | parameter (name : String)
  | mediaType (identifier : MediaType)
  | resource (path : String)
  | body (around : Tree → Entries)
    (get?_around : ∀ tree, Entries.get? (around tree) "body" = some tree)

namespace NodeSlot

/-- What is read in the place. -/
def Node : NodeSlot → Type
  | type _ => TypeDeclaration
  | property _ => Property
  | parameter _ => Parameter
  | mediaType _ => MediaTypeBody
  | resource _ => Resource
  | body .. => Option Body

/-- Reads a tree in the place. -/
def read (source : Source) (tree : Tree) : (slot : NodeSlot) → Reading slot.Node
  | type name => TypeDeclaration.read source name tree
  | property name => Property.read source name tree
  | parameter name => Parameter.read source name tree
  | mediaType identifier => MediaTypeBody.read source identifier tree
  | resource path => Resource.read source path tree
  | body around _ => Body.read source (around tree)

/-- The trees that are read alike in a file and in the place. -/
def Admits (tree : Tree) : NodeSlot → Prop
  | body .. => NullUntagged tree
  | _ => True

/-- What the place makes of a directive that is taken for a value: one that is spelled out is a type
expression, except in the place of a resource, and one with a tag is refused. -/
def ofDirective (tree : Tree) : (slot : NodeSlot) → Except Error slot.Node
  | type name =>
    match tree with
    | .string text => .ok { name, facets := .ofExpression text }
    | other => .error (.unexpected name "a type declaration" other)
  | property name =>
    match tree with
    | .string text => .ok { name, facets := .ofExpression text }
    | other => .error (.unexpected name "a property declaration" other)
  | parameter name =>
    match tree with
    | .string text => .ok { name, type := some (DataType.ofString text) }
    | other => .error (.unexpected name "a parameter declaration" other)
  | mediaType identifier =>
    match tree with
    | .string text => .ok { identifier, payload := .ofExpression text }
    | other => .error (.unexpected identifier "a mapping or type expression" other)
  | resource path => .error (.unexpected path "a mapping" tree)
  | body .. =>
    match tree with
    | .string text => .ok (some { payload := .ofExpression text })
    | other => .error (.unexpected "body" "a mapping or type expression" other)

/-- The body in a mapping is read in the place of a node, if it is there. -/
theorem read_body {around : Tree → Entries}
    (hbody : ∀ tree, Entries.get? (around tree) "body" = some tree) (source : Source)
    {tree : Tree} (hnull : NullUntagged tree) :
    (body around hbody).read source tree =
      source.openSlot none tree >>= fun slot => Body.ofTree slot.origin slot.content := by
  change Body.read source (around tree) = _
  rw [Body.read, Entries.field?_of_get? (hbody tree)]
  cases h : tree.isNull with
  | true =>
    rw [hnull h]
    rfl
  | false =>
    rw [given?, h]
    rfl

/-- A directive in the place of a node is replaced by what the file holds, unless that is a
directive again. -/
theorem result_read_of_resolve (slot : NodeSlot) {source : Source} {tree : Tree}
    {included : Included source} (hresolve : (source.resolve tree none).result = .ok included)
    (hplace : isInclude included.tree = false) (hadmits : slot.Admits included.tree) :
    (slot.read source tree).result = (slot.read included.source included.tree).result := by
  obtain ⟨target, htarget, -⟩ := Source.resolve_eq_ok_iff.1 hresolve
  cases slot with
  | type _ | property _ | parameter _ | mediaType _ =>
    refine (Source.result_openSlot_bind hresolve _).trans (Eq.symm ?_)
    exact Source.result_openSlot_bind_inPlace hplace _
  | resource path =>
    change (Resource.read _ _ _).result = (Resource.read _ _ _).result
    rw [Resource.read, Resource.read, Source.result_openSlot_bind hresolve,
      Source.result_openSlot_bind_inPlace hplace]
    rfl
  | body around hbody =>
    rw [read_body hbody source htarget.nullUntagged, read_body hbody included.source hadmits,
      Source.result_openSlot_bind hresolve, Source.result_openSlot_bind_inPlace hplace]
    rfl

/-- A second directive in the place of a node is not followed. -/
theorem result_read_of_directive (slot : NodeSlot) {source : Source} {tree : Tree}
    {included : Included source} (hresolve : (source.resolve tree none).result = .ok included)
    {target : String} (hagain : Directive included.tree target) :
    (slot.read source tree).result = slot.ofDirective included.tree := by
  obtain ⟨_, htarget, -⟩ := Source.resolve_eq_ok_iff.1 hresolve
  obtain ⟨inner, content, nested⟩ := included
  cases slot with
  | type _ | property _ | parameter _ | mediaType _ =>
    refine (Source.result_openSlot_bind hresolve _).trans ?_
    cases hagain <;> rfl
  | resource path =>
    change (Resource.read _ _ _).result = _
    rw [Resource.read, Source.result_openSlot_bind hresolve]
    cases hagain <;> (dsimp only [Slot.ofIncluded]; unfold Resource.readContent; rfl)
  | body around hbody =>
    rw [read_body hbody source htarget.nullUntagged, Source.result_openSlot_bind hresolve]
    cases hagain <;> rfl

/-- A node without directives has the same result in all sources. -/
theorem result_read_eq (slot : NodeSlot) {tree : Tree} (hfree : IncludeFree tree)
    (hadmits : slot.Admits tree) (source other : Source) :
    (slot.read source tree).result = (slot.read other tree).result := by
  have htree : Agreement.alike.visits source other tree := hfree
  cases slot with
  | type name => exact TypeDeclaration.agree_read htree name
  | property name => exact Property.agree_read htree name
  | parameter name => exact Parameter.agree_read htree name
  | mediaType identifier => exact MediaTypeBody.agree_read htree identifier
  | resource path => exact Resource.agree_read path tree htree
  | body around hbody =>
    rw [read_body hbody source hadmits, read_body hbody other hadmits]
    exact Agreement.openSlot htree none fun _ _ _ _ _ => Body.agree_ofTree

end NodeSlot

end RamlDoc
