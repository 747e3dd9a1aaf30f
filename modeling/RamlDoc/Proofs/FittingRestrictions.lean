import RamlDoc.Proofs.DefaultsComplete
import RamlDoc.Proofs.DocumentSites
import RamlDoc.Proofs.EntryPoints

/-!
# Restrictions that fit

Restrictions are chosen while a node is read, by the type it declares, and a text if it declares
none. Defaults choose the type of a node that declares none later, and for a type with properties
they choose `object`. The two choices agree for every property. They disagree for a type exactly if
it declares no type but has properties and restrictions
(`Document.restrictionsFit_defaulted_iff`).
-/

namespace RamlDoc

open Yaml

/-- The restrictions are those of a type. -/
inductive Restrictions.Fits : Restrictions → DataType → Prop
  | string (r : StringRestrictions) : Fits (.string r) (.scalar .string)
  | number (r : NumberRestrictions) : Fits (.number r) (.scalar .number)
  | integer (r : NumberRestrictions) : Fits (.number r) (.scalar .integer)
  | file (r : FileRestrictions) : Fits (.file r) (.scalar .file)

/-- Facets with a type that their restrictions fit, if they have any. -/
def Facets.RestrictionsFit (facets : Facets) : Prop :=
  ∀ r ∈ facets.restrictions, ∃ type ∈ facets.type, r.Fits type

/-- Facets whose restrictions fit their type, or fit a text where they have none. -/
def Facets.FitAsRead (facets : Facets) : Prop :=
  ∀ r ∈ facets.restrictions, r.Fits (facets.type.getD (.scalar .string))

namespace Document.Node

/-- A type or a property with restrictions has a scalar type of their kind. -/
def RestrictionsFit : Node → Prop
  | type t => t.facets.RestrictionsFit
  | property p => p.facets.RestrictionsFit
  | _ => True

/-- The same for nodes without their defaults. -/
def FitAsRead : Node → Prop
  | type t => t.facets.FitAsRead
  | property p => p.facets.FitAsRead
  | _ => True

end Document.Node

/-! ## What is read fits -/

theorem Restrictions.fits_of_unlessEmpty {β : Type} [DecidableEq β] {empty found : β}
    {make : β → Restrictions} {r : Restrictions} {type : DataType}
    (hmake : ∀ found, (make found).Fits type) (h : unlessEmpty empty make found = some r) :
    r.Fits type := by
  unfold unlessEmpty at h
  split at h
  · cases h
  · cases h
    exact hmake found

theorem Restrictions.fits_of_readNumber {entries : Entries} {type : DataType} {r : Restrictions}
    (hnumber : ∀ found, (Restrictions.number found).Fits type)
    (h : readNumber entries = .ok (some r)) : r.Fits type := by
  obtain ⟨format, -, h⟩ := exists_of_bind_eq_ok h
  obtain ⟨minimum, -, h⟩ := exists_of_bind_eq_ok h
  obtain ⟨maximum, -, h⟩ := exists_of_bind_eq_ok h
  obtain ⟨multipleOf, -, h⟩ := exists_of_bind_eq_ok h
  exact fits_of_unlessEmpty hnumber (Except.ok.inj h)

theorem Restrictions.fits_of_read {entries : Entries} {type : Option DataType} {r : Restrictions}
    (h : read entries type = .ok (some r)) : r.Fits (type.getD (.scalar .string)) := by
  have hscalar : ∀ kind, type.elim (some ScalarType.string) DataType.scalar? = some kind →
      type.getD (.scalar .string) = .scalar kind := by
    intro kind hkind
    cases type with
    | none =>
      cases hkind
      rfl
    | some type =>
      cases type with
      | scalar kind' =>
        cases hkind
        rfl
      | _ => cases hkind
  unfold read at h
  split at h
  next hkind =>
    rw [hscalar _ hkind]
    obtain ⟨pattern, -, h⟩ := exists_of_bind_eq_ok h
    obtain ⟨minLength, -, h⟩ := exists_of_bind_eq_ok h
    obtain ⟨maxLength, -, h⟩ := exists_of_bind_eq_ok h
    exact fits_of_unlessEmpty .string (Except.ok.inj h)
  next hkind =>
    rw [hscalar _ hkind]
    exact fits_of_readNumber .number h
  next hkind =>
    rw [hscalar _ hkind]
    exact fits_of_readNumber .integer h
  next hkind =>
    rw [hscalar _ hkind]
    obtain ⟨fileTypes, -, h⟩ := exists_of_bind_eq_ok h
    obtain ⟨minLength, -, h⟩ := exists_of_bind_eq_ok h
    obtain ⟨maxLength, -, h⟩ := exists_of_bind_eq_ok h
    exact fits_of_unlessEmpty .file (Except.ok.inj h)
  next => cases h

theorem Facets.fitAsRead_of_none {facets : Facets} (h : facets.restrictions = none) :
    facets.FitAsRead := by
  intro r hr
  rw [h] at hr
  cases hr

theorem Facets.fitAsRead_of_read {α : Type} {source : Source} {entries : Entries}
    {type : Option DataType} {others : Reading α} {facets : Facets} {other : α}
    (h : (read source entries type others).result = .ok (facets, other)) : facets.FitAsRead := by
  unfold read at h
  simp only [Reading.result_bind, Reading.result_monadLift] at h
  obtain ⟨restrictions, hrestrictions, h⟩ := exists_of_bind_eq_ok h
  obtain ⟨displayName, -, h⟩ := exists_of_bind_eq_ok h
  obtain ⟨description, -, h⟩ := exists_of_bind_eq_ok h
  obtain ⟨admitted, -, h⟩ := exists_of_bind_eq_ok h
  obtain ⟨others, -, h⟩ := exists_of_bind_eq_ok h
  obtain ⟨examples, -, h⟩ := exists_of_bind_eq_ok h
  obtain ⟨rfl, rfl⟩ := Prod.mk.inj (Except.ok.inj h)
  intro r hr
  obtain rfl : restrictions = some r := hr
  exact Restrictions.fits_of_read hrestrictions

theorem TypeDeclaration.fitAsRead_of_read {source : Source} {name : String} {tree : Tree}
    {type : TypeDeclaration} (h : (read source name tree).result = .ok type) :
    type.facets.FitAsRead := by
  unfold read at h
  rw [Reading.result_bind] at h
  obtain ⟨slot, -, h⟩ := exists_of_bind_eq_ok h
  split at h
  · cases h
    exact Facets.fitAsRead_of_none rfl
  · cases h
    exact Facets.fitAsRead_of_none rfl
  · unfold ofEntries at h
    simp only [Reading.result_bind, Reading.result_monadLift] at h
    obtain ⟨items, -, h⟩ := exists_of_bind_eq_ok h
    obtain ⟨declared, -, h⟩ := exists_of_bind_eq_ok h
    obtain ⟨⟨facets, others⟩, hfacets, h⟩ := exists_of_bind_eq_ok h
    cases h
    exact Facets.fitAsRead_of_read hfacets
  · cases h

theorem Property.fitAsRead_of_read {source : Source} {name : String} {tree : Tree}
    {property : Property} (h : (read source name tree).result = .ok property) :
    property.facets.FitAsRead := by
  unfold read at h
  rw [Reading.result_bind] at h
  obtain ⟨slot, -, h⟩ := exists_of_bind_eq_ok h
  split at h
  · cases h
    exact Facets.fitAsRead_of_none rfl
  · cases h
    exact Facets.fitAsRead_of_none rfl
  · unfold ofEntries at h
    simp only [Reading.result_bind, Reading.result_monadLift] at h
    obtain ⟨type, -, h⟩ := exists_of_bind_eq_ok h
    obtain ⟨required, -, h⟩ := exists_of_bind_eq_ok h
    obtain ⟨⟨facets, others⟩, hfacets, h⟩ := exists_of_bind_eq_ok h
    cases h
    exact Facets.fitAsRead_of_read hfacets
  · cases h

theorem Site.fitAsRead_of_result {site : Site} {node : Document.Node}
    (h : site.result = .ok (some node)) : node.FitAsRead := by
  have hread := result_read_of_result h
  cases hkind : site.kind <;>
    rw [hkind, SiteKind.read, Reading.result_bind] at hread <;>
    obtain ⟨value, hvalue, hnode⟩ := exists_of_bind_eq_ok hread
  case type =>
    cases hnode
    exact TypeDeclaration.fitAsRead_of_read hvalue
  case property =>
    cases hnode
    exact Property.fitAsRead_of_read hvalue
  case body | queryString =>
    cases value with
    | none => cases hnode
    | some value =>
      cases hnode
      trivial
  all_goals
    cases hnode
    try trivial

/-! ## Defaults -/

theorem Restrictions.Fits.withDefaults {r : Restrictions} {type : DataType} (h : r.Fits type) :
    r.withDefaults.Fits type := by
  cases h with
  | string r => exact .string _
  | number r => exact .number _
  | integer r => exact .integer _
  | file r => exact .file _

theorem Restrictions.fits_of_implied? {r : Restrictions} {type : DataType}
    (h : implied? type = some r) : r.Fits type := by
  unfold implied? at h
  cases type with
  | scalar kind =>
    cases kind with
    | string =>
      cases h
      exact .string _
    | file =>
      cases h
      exact .file _
    | _ => cases h
  | _ => cases h

namespace Facets

/-- Restrictions that fit the type which a node gets still fit with their defaults. -/
theorem restrictionsFit_withDefaults {facets : Facets} {implied : DataType}
    (h : ∀ r ∈ facets.restrictions, r.Fits (facets.type.getD implied)) :
    (facets.withDefaults implied).RestrictionsFit := by
  intro r hr
  refine ⟨_, rfl, ?_⟩
  obtain ⟨declared, hdeclared, rfl⟩ := Option.map_eq_some_iff.1 hr
  apply Restrictions.Fits.withDefaults
  rcases Option.or_eq_some_iff.1 hdeclared with hdeclared | ⟨-, himplied⟩
  · exact h declared hdeclared
  · exact Restrictions.fits_of_implied? himplied

/-- An object has no restrictions that fit. -/
theorem restrictions_eq_none_of_fit {facets : Facets} (hnone : facets.type = none)
    (h : (facets.withDefaults .object).RestrictionsFit) : facets.restrictions = none := by
  cases hrestrictions : facets.restrictions with
  | none => rfl
  | some r =>
    have hdefaulted : r.withDefaults ∈ (facets.withDefaults .object).restrictions := by
      simp [withDefaults, Restrictions.defaulted, hrestrictions]
    obtain ⟨type, htype, hfits⟩ := h _ hdefaulted
    have hobject : type = .object := by
      simpa [withDefaults, hnone] using htype.symm
    rw [hobject] at hfits
    generalize r.withDefaults = r' at hfits
    cases hfits

end Facets

namespace Document.Node

variable {node child found : Node}

/-- With its defaults, a node that fits as read has fitting restrictions unless it is a type that
declares no type but has properties and restrictions. -/
theorem restrictionsFit_withDefaults_iff (inherited : Inherited) (h : node.FitAsRead) :
    (node.withDefaults inherited).RestrictionsFit ↔
      ∀ t, node = type t → t.facets.type = none → t.object.properties.isSome →
        t.facets.restrictions = none := by
  cases node with
  | type t =>
    constructor
    · rintro hfit _ ⟨⟩ hnone hproperties
      have himplied : t.impliedType = .object := if_pos hproperties
      refine Facets.restrictions_eq_none_of_fit hnone ?_
      rw [← himplied]
      exact hfit
    · intro hexcept
      refine Facets.restrictionsFit_withDefaults fun r hr => ?_
      have hfits := h r hr
      by_cases hobject : t.facets.type = none ∧ t.object.properties.isSome
      · rw [hexcept t rfl hobject.1 hobject.2] at hr
        cases hr
      · cases hdeclared : t.facets.type with
        | some declared =>
          rw [hdeclared] at hfits
          exact hfits
        | none =>
          have hproperties : ¬t.object.properties.isSome := fun h => hobject ⟨hdeclared, h⟩
          rw [hdeclared] at hfits
          rw [TypeDeclaration.impliedType, if_neg hproperties]
          exact hfits
  | property p =>
    exact ⟨fun _ _ => nofun, fun _ => Facets.restrictionsFit_withDefaults fun r hr => h r hr⟩
  | _ => exact ⟨fun _ _ => nofun, fun _ => trivial⟩

/-- Defaults keep what a node reaches. -/
theorem Reaches.withDefaults (inherited : Inherited) (h : node.Reaches found) :
    (node.withDefaults inherited).Reaches (found.withDefaults inherited) := by
  induction h with
  | refl => exact .refl
  | tail _ hchild ih =>
    refine ih.tail ?_
    rw [children_withDefaults]
    exact List.mem_map_of_mem (List.mem_append_left _ hchild)

/-- What a node with its defaults reaches is reached from the node itself, or is added for a
template name or as a variant of a body. -/
theorem exists_reached_of_reaches {inherited : Inherited}
    (h : (node.withDefaults inherited).Reaches found) :
    ∃ original : Node, found = original.withDefaults inherited ∧
      (node.Reaches original ∨ (∃ name, original = parameter (.ofTemplateName name)) ∨
        ∃ identifier b, original = mediaType ⟨identifier, b.payload⟩ ∧ node.Reaches (body b)) := by
  generalize hstart : node.withDefaults inherited = start at h
  induction h with
  | refl => exact ⟨node, hstart.symm, .inl .refl⟩
  | tail _ hchild ih =>
    obtain ⟨original, rfl, horiginal⟩ := ih
    rw [children_withDefaults] at hchild
    obtain ⟨inner, hinner, rfl⟩ := List.mem_map.1 hchild
    refine ⟨inner, rfl, ?_⟩
    rcases horiginal with hreached | ⟨name, rfl⟩ | ⟨identifier, b, rfl, hreached⟩
    · rcases List.mem_append.1 hinner with hinner | hadded
      · exact .inl (hreached.tail hinner)
      · refine .inr ?_
        cases original with
        | document d =>
          obtain ⟨p, hp, rfl⟩ := List.mem_map.1 hadded
          obtain ⟨name, -, rfl⟩ := List.mem_map.1 hp
          exact .inl ⟨name, rfl⟩
        | resource r =>
          obtain ⟨p, hp, rfl⟩ := List.mem_map.1 hadded
          obtain ⟨name, -, rfl⟩ := List.mem_map.1 hp
          exact .inl ⟨name, rfl⟩
        | body b =>
          rw [added] at hadded
          split at hadded
          · cases hadded
          · obtain ⟨identifier, -, rfl⟩ := List.mem_map.1 hadded
            exact .inr ⟨identifier, b, rfl, hreached⟩
        | _ => cases hadded
    · cases hinner
    · rcases List.mem_append.1 hinner with hinner | hadded
      · -- a variant holds what the body holds
        exact .inl (hreached.tail (List.mem_append_left _ hinner))
      · cases hadded

end Document.Node

namespace Document

/-- Whatever a document reaches fits as it was read. -/
theorem fitAsRead_of_reaches {source : Source} {text : List Char} {document : Document}
    (h : (ofText source text).result = .ok document) {node : Node}
    (hnode : Node.Reaches (.document document) node) : node.FitAsRead := by
  obtain ⟨tree, -, htree⟩ := exists_tree_of_ofText h
  have hdocument : (⟨.document, source, tree⟩ : Site).result = .ok (some (.document document)) := by
    rw [Site.result_of_unnamed rfl rfl, htree]
    rfl
  obtain ⟨site, -, hsite⟩ := Site.exists_reaches_of_reaches hdocument hnode
  exact site.fitAsRead_of_result hsite

/-- In the defaulted view of a document that is read, restrictions fit the types they are attached to
exactly if no type in the document declares no type and has properties and restrictions. -/
theorem restrictionsFit_defaulted_iff {text : String} {options : Options} {document : Document}
    (h : (ofString text options).result = .ok document) :
    (∀ node, Node.Reaches (.document document.defaulted) node → node.RestrictionsFit) ↔
      ∀ t, Node.Reaches (.document document) (.type t) → t.facets.type = none →
        t.object.properties.isSome → t.facets.restrictions = none := by
  constructor
  · intro hfit t ht
    have hdefaulted := hfit _ (ht.withDefaults document.inherited)
    exact (Node.restrictionsFit_withDefaults_iff _ (fitAsRead_of_reaches h ht)).1 hdefaulted t rfl
  · intro hexcept node hnode
    obtain ⟨original, rfl, horiginal⟩ :=
      @Node.exists_reached_of_reaches (.document document) _ _ hnode
    rcases horiginal with hreached | ⟨name, rfl⟩ | ⟨identifier, b, rfl, -⟩
    · refine (Node.restrictionsFit_withDefaults_iff _ (fitAsRead_of_reaches h hreached)).2 ?_
      rintro t rfl
      exact hexcept t hreached
    · trivial
    · trivial

/-- A document with a type that declares no type but has properties and a restriction. -/
def restrictedText : String :=
  "#%RAML 1.0\ntitle: Users\ntypes:\n A:\n  minLength: 1\n  properties:\n   a: string\n"

/-- The entries of the type. -/
def restrictedEntries : Entries :=
  [(.string "minLength", .number (.integer 1)),
    (.string "properties", .mapping [(.string "a", .string "string")])]

/-- The type. -/
def restrictedType : TypeDeclaration where
  name := "A"
  facets := { restrictions := some (.string { minLength := some 1 }) }
  object := { properties := some [{ name := "a", facets := .ofExpression "string" }] }

theorem result_readAll_restricted (source : Source) :
    (TypeDeclaration.readAll source
        (some (.mapping [(.string "A", .mapping restrictedEntries)]))).result =
      .ok (some [restrictedType]) := by
  have hproperties : Property.readAll source (some (.mapping [(.string "a", .string "string")])) =
      pure restrictedType.object.properties := by
    change source.openBlock _ >>= _ = _
    rw [Source.openBlock_of_inline rfl]
    rfl
  have hobject : TypeDeclaration.readObject source restrictedEntries =
      pure restrictedType.object := by
    unfold TypeDeclaration.readObject
    change Property.readAll source (some _) >>= _ = _
    rw [hproperties]
    rfl
  have hothers : TypeDeclaration.readOthers source restrictedEntries none =
      pure (restrictedType.object, {}, none) := by
    unfold TypeDeclaration.readOthers
    rw [hobject]
    rfl
  have hfacets : Facets.read source restrictedEntries none
      (TypeDeclaration.readOthers source restrictedEntries none) =
        pure (restrictedType.facets, restrictedType.object, {}, none) := by
    rw [hothers]
    rfl
  change (source.openBlock _ >>= _).result = _
  rw [Source.openBlock_of_inline rfl]
  have htype : TypeDeclaration.ofEntries source "A" restrictedEntries = pure restrictedType := by
    change Facets.read source restrictedEntries none _ >>= _ = _
    rw [hfacets]
    rfl
  change (Block.ofList <$> (TypeDeclaration.ofEntries source "A" restrictedEntries >>=
    fun type => (pure [] : Reading (List TypeDeclaration)) >>= fun types =>
      pure (type :: types))).result = _
  rw [htype]
  rfl

/-- The document. -/
def restrictedDocument : Document where
  title := "Users"
  declarations := { types := some [restrictedType] }

set_option maxRecDepth 2000 in
theorem result_ofString_restricted :
    (ofString restrictedText).result = .ok restrictedDocument := by
  have hheader : Header.checkRoot restrictedText.toList = .ok () := by cbv
  have htree : (Fixup.readTree {} restrictedText.toList).result =
      .ok (.mapping [(.string "title", .string "Users"),
        (.string "types", .mapping [(.string "A", .mapping restrictedEntries)])]) := by cbv
  have hfree : IncludeFree (.mapping [(.string "title", .string "Users"),
      (.string "types", .mapping [(.string "A", .mapping restrictedEntries)])]) := by
    unfold IncludeFree
    decide
  refine (result_ofText_of_tree (⟨.empty, .detached {}⟩) hheader htree hfree).trans ?_
  rw [result_ofTree_of_types _ rfl, result_readAll_restricted]
  rfl

/-- The document is read, and its defaulted view has restrictions that do not fit. -/
theorem restrictionsFit_defaulted_restricted :
    (ofString restrictedText).result = .ok restrictedDocument ∧
      ¬∀ node, Node.Reaches (.document restrictedDocument.defaulted) node →
        node.RestrictionsFit := by
  refine ⟨result_ofString_restricted, fun hfit => ?_⟩
  have hreaches : Node.Reaches (.document restrictedDocument) (.type restrictedType) :=
    .single List.mem_cons_self
  have hnone := (restrictionsFit_defaulted_iff result_ofString_restricted).1 hfit restrictedType
    hreaches rfl rfl
  cases hnone

/-- Not every text that is accepted has fitting restrictions in its defaulted view. -/
theorem not_restrictionsFit_of_object :
    ¬∀ text options document, (ofString text options).result = .ok document →
      ∀ node, Node.Reaches (.document document.defaulted) node → node.RestrictionsFit := by
  intro h
  have hreaches : Node.Reaches (.document restrictedDocument.defaulted)
      (.type restrictedType.withDefaults) := .single List.mem_cons_self
  have hfit := h restrictedText {} restrictedDocument result_ofString_restricted _ hreaches
  obtain ⟨type, htype, hfits⟩ := hfit _ rfl
  cases htype
  cases hfits

end Document

end RamlDoc
