import RamlDoc.Proofs.DocumentNodes

/-!
# Defaulting is complete

What a document with its defaults reaches is always some node with its defaults
(`exists_source_of_reaches`), and such a node has everything that has a default
(`filled_withDefaults`). The one exception is a body with a list of variants that is there but
empty: it gets none.
-/

namespace RamlDoc

/-- Restrictions that have bounds, and types of files if they are those of files. -/
def Restrictions.Filled : Restrictions → Prop
  | .string r => r.minLength.isSome ∧ r.maxLength.isSome
  | .number _ => True
  | .file r => r.minLength.isSome ∧ r.maxLength.isSome ∧ r.fileTypes.isSome

/-- Facets that have a type, and restrictions with bounds if it is that of texts or of files. -/
structure Facets.Filled (facets : Facets) : Prop where
  type : facets.type.isSome
  restrictions : facets.type = some (.scalar .string) ∨ facets.type = some (.scalar .file) →
    facets.restrictions.isSome
  bounds : ∀ r ∈ facets.restrictions, r.Filled

theorem Restrictions.filled_withDefaults (restrictions : Restrictions) :
    restrictions.withDefaults.Filled := by
  cases restrictions with
  | string r => exact ⟨rfl, rfl⟩
  | number r => trivial
  | file r => exact ⟨rfl, rfl, rfl⟩

theorem Facets.filled_withDefaults (facets : Facets) (implied : DataType) :
    (facets.withDefaults implied).Filled := by
  refine ⟨rfl, fun htype => ?_, fun r hr => ?_⟩
  · have himplied : (Restrictions.implied? (facets.type.getD implied)).isSome = true := by
      rcases htype with htype | htype <;> rw [Option.some.inj htype] <;> rfl
    simp [withDefaults, Restrictions.defaulted, himplied]
  · obtain ⟨r, -, rfl⟩ := Option.map_eq_some_iff.1 hr
    exact r.filled_withDefaults

namespace Document.Node

variable {inherited : Inherited} {node child found : Node}

/-- Each name of a text that is a template has a parameter, apart from empty ones. -/
def Covers (parameters : Block Parameter) (text : String) : Prop :=
  ∃ template : UriTemplate, template.text = text ∧
    ∀ name ∈ template.names, name ≠ "" → ∃ parameter ∈ parameters.elements, parameter.name = name

theorem covers_blockForTemplate (declared : Block Parameter) (text : String) :
    Covers (Parameter.blockForTemplate declared (templateNames text)) text := by
  obtain ⟨template, rfl⟩ := UriTemplate.exists_text_eq text
  refine ⟨template, rfl, fun name hname hne => ?_⟩
  rw [template.templateNames_eq]
  exact Parameter.exists_mem_blockForTemplate declared
    (List.mem_filter.2 ⟨hname, by simpa using hne⟩)

/-- A node that has everything that has a default, given what it inherits. -/
def Filled (inherited : Inherited) : Node → Prop
  | document d =>
    d.protocols.isSome ∧ Covers d.baseUriParameters (d.baseUri.getD "")
  | type t =>
    t.facets.Filled ∧ (t.object.discriminator.isSome → t.object.discriminatorValue.isSome)
  | resource r => Covers r.uriParameters r.path
  | method m => m.protocols.isSome
  | body b => inherited.mediaTypes ≠ [] → b.mediaTypes.elements ≠ []
  | property p => p.required.isSome ∧ p.facets.Filled
  | parameter p => p.type.isSome ∧ p.required.isSome
  | sample ex => ex.strict.isSome
  | library _ | annotationType _ | trait _ | resourceType _ | securityScheme _ | response _
  | mediaType _ | queryString _ => True

/-- Where there is no list of variants that is empty, defaults leave nothing out. -/
theorem filled_withDefaults (h : ∀ b, node = body b → b.mediaTypes ≠ some []) :
    (node.withDefaults inherited).Filled inherited := by
  cases node with
  | document d => exact ⟨rfl, covers_blockForTemplate _ _⟩
  | type t =>
    refine ⟨t.facets.filled_withDefaults t.impliedType, fun hdiscriminator => ?_⟩
    simp only [TypeDeclaration.withDefaults] at hdiscriminator
    simp [TypeDeclaration.withDefaults, TypeDeclaration.discriminatorValue?, hdiscriminator]
  | resource r =>
    obtain ⟨path, displayName, description, annotations, methods, resources, traits, resourceType,
      securedBy, uriParameters⟩ := r
    exact covers_blockForTemplate uriParameters path
  | method m => rfl
  | body b =>
    intro hmediaTypes
    obtain ⟨payload, mediaTypes⟩ := b
    cases mediaTypes with
    | none => simpa [Body.withDefaults] using hmediaTypes
    | some variants =>
      have hvariants : variants ≠ [] := fun hnil => h _ rfl (congrArg some hnil)
      simpa [Body.withDefaults] using hvariants
  | property p => exact ⟨rfl, p.facets.filled_withDefaults _⟩
  | parameter p => exact ⟨rfl, rfl⟩
  | sample ex => rfl
  | _ => trivial

/-! ## Whatever is reached has its defaults -/

/-- The nodes that have no body in them. -/
def IsBodiless : Node → Prop
  | mediaType _ | queryString _ | property _ | parameter _ | sample _ => True
  | _ => False

theorem IsBodiless.of_mem_children (h : node.IsBodiless) :
    ∀ child ∈ node.children, child.IsBodiless := by
  have hpayload : ∀ payload, ∀ child ∈ ofPayload payload, child.IsBodiless := fun payload => by
    simp only [ofPayload, List.forall_mem_append, List.forall_mem_map, IsBodiless, implies_true,
      and_self]
  cases node with
  | mediaType b => exact hpayload b.payload
  | queryString p => exact hpayload p
  | property p =>
    simp only [children, List.forall_mem_map, IsBodiless, implies_true]
  | parameter p =>
    simp only [children, List.forall_mem_map, IsBodiless, implies_true]
  | sample ex => simp only [children, List.not_mem_nil, false_implies, implies_true]
  | _ => exact h.elim

theorem IsBodiless.of_reaches (h : node.IsBodiless) (hfound : node.Reaches found) :
    found.IsBodiless := by
  induction hfound with
  | refl => exact h
  | tail _ hchild ih => exact ih.of_mem_children _ hchild

theorem isBodiless_of_mem_added (h : child ∈ node.added inherited) : child.IsBodiless := by
  cases node with
  | document d =>
    obtain ⟨p, -, rfl⟩ := List.mem_map.1 h
    trivial
  | resource r =>
    obtain ⟨p, -, rfl⟩ := List.mem_map.1 h
    trivial
  | body b =>
    rw [added] at h
    split at h
    · cases h
    · obtain ⟨identifier, -, rfl⟩ := List.mem_map.1 h
      trivial
  | _ => cases h

/-- What a node with its defaults reaches is a node with its defaults, and whatever body that one
reaches is in the original. -/
theorem exists_source_of_reaches (h : (node.withDefaults inherited).Reaches found) :
    ∃ source : Node, found = source.withDefaults inherited ∧
      ∀ b, source.Reaches (body b) → node.Reaches (body b) := by
  generalize hstart : node.withDefaults inherited = start at h
  induction h with
  | refl => exact ⟨node, hstart.symm, fun _ => id⟩
  | tail _ hchild ih =>
    obtain ⟨source, rfl, hbodies⟩ := ih
    rw [children_withDefaults] at hchild
    obtain ⟨child, hmem, rfl⟩ := List.mem_map.1 hchild
    refine ⟨child, rfl, fun b hb => ?_⟩
    rcases List.mem_append.1 hmem with hmem | hmem
    · exact hbodies b (.head hmem hb)
    · -- An added node has no body in it, so the body is not behind one.
      exact ((isBodiless_of_mem_added hmem).of_reaches hb).elim

end Document.Node

namespace Document

/-- **Defaulting is complete**: whatever a document with its defaults reaches has everything that
has a default, unless a body in the document has a list of variants that is there but empty. -/
theorem filled_of_reaches_withDefaults {document : Document}
    (h : ∀ body, Node.Reaches (.document document) (.body body) → body.mediaTypes ≠ some [])
    (inherited : Inherited) (node : Node)
    (hnode : Node.Reaches (.document (document.withDefaults inherited)) node) :
    node.Filled inherited := by
  obtain ⟨source, rfl, hbodies⟩ := @Node.exists_source_of_reaches _ (.document document) _ hnode
  refine Node.filled_withDefaults fun body hbody => ?_
  subst hbody
  exact h body (hbodies body .refl)

/-- A document with a name in a path, and a method whose body says nothing. -/
def bodyUnsaid : Document where
  title := "Orders"
  mediaTypes := some ["application/json"]
  resources :=
    some [{ path := "/orders/\x7bid\x7d", methods := some [{ verb := .post, body := some {} }] }]

/-- In the defaulted view the body has a variant, and the name in the path has a parameter. -/
theorem bodyUnsaid_filled :
    (∀ body, Node.Reaches (.document bodyUnsaid) (.body body) → body.mediaTypes ≠ some []) ∧
      Node.Reaches (.document bodyUnsaid.defaulted)
        (.body (Body.withDefaults bodyUnsaid.inherited {})) ∧
      Node.Filled bodyUnsaid.inherited (.body (Body.withDefaults bodyUnsaid.inherited {})) ∧
      ∃ resource, Node.Reaches (.document bodyUnsaid.defaulted) (.resource resource) ∧
        Node.Filled bodyUnsaid.inherited (.resource resource) ∧
          resource.uriParameters.elements.map (·.name) = ["id"] := by
  have hbodies : ∀ found, Node.Reaches (.document bodyUnsaid) found →
      ∀ body, found = .body body → body.mediaTypes ≠ some [] := by
    refine Node.forall_reaches_of_children rfl nofun (List.forall_mem_singleton.2 ?_)
    refine Node.forall_reaches_of_children rfl nofun (List.forall_mem_singleton.2 ?_)
    refine Node.forall_reaches_of_children rfl nofun (List.forall_mem_singleton.2 ?_)
    refine Node.forall_reaches_of_children rfl ?_ (List.forall_mem_nil _)
    rintro _ ⟨⟩
    exact nofun
  have hvariants := fun body hbody => hbodies (.body body) hbody body rfl
  have hresource : Node.Reaches (.document bodyUnsaid.defaulted) (.resource _) :=
    .single List.mem_cons_self
  have hreaches : Node.Reaches (.document bodyUnsaid.defaulted)
      (.body (Body.withDefaults bodyUnsaid.inherited {})) :=
    .tail (.tail (.single List.mem_cons_self) List.mem_cons_self) List.mem_cons_self
  exact ⟨hvariants, hreaches, filled_of_reaches_withDefaults hvariants _ _ hreaches, _, hresource,
    filled_of_reaches_withDefaults hvariants _ _ hresource, by decide +kernel⟩

end Document

end RamlDoc
