import RamlDoc.Proofs.Entering
import RamlDoc.Proofs.TypeExpressions
import RamlDoc.Read.Document

/-!
# Facets that types and properties share

A type and a property that are read from one tree declare the same facets, with one exception.
Items are read for types only, and a type that is declared as `array` with items becomes the type of
arrays of them (`TypeDeclaration.typeOf`), while for a property `array` is a name like any other
(`TypeDeclaration.facets_eq_iff_of_read`). There are no restrictions for either, so whatever else is
declared is the same there too.
-/

namespace RamlDoc

open Yaml

variable {source : Source} {entries : Entries} {name : String} {tree : Tree}

/-- The items of a type do not change its restrictions: neither a name nor arrays have any. -/
theorem Restrictions.read_typeOf (declared items : Option DataType) :
    read entries (TypeDeclaration.typeOf declared items) = read entries declared := by
  unfold TypeDeclaration.typeOf
  split <;> rfl

/-- Facets that are read of one mapping for two types differ in these types only, if both have the
same restrictions. -/
theorem Facets.eq_of_read {α β : Type} {type type' : Option DataType} {others : Reading α}
    {others' : Reading β} {facets facets' : Facets} {other : α} {other' : β}
    (h : (read source entries type others).result = .ok (facets, other))
    (h' : (read source entries type' others').result = .ok (facets', other'))
    (hrestrictions : Restrictions.read entries type = Restrictions.read entries type') :
    facets.type = type ∧ facets'.type = type' ∧ facets = { facets' with type } := by
  have same {γ : Type} {result : Except Error γ} {value value' : γ} (h : result = .ok value)
      (h' : result = .ok value') : value = value' := Except.ok.inj (h.symm.trans h')
  unfold read at h h'
  simp only [Reading.result_bind, Reading.result_monadLift] at h h'
  rw [hrestrictions] at h
  obtain ⟨restrictions, hr, h⟩ := exists_of_bind_eq_ok h
  obtain ⟨restrictions', hr', h'⟩ := exists_of_bind_eq_ok h'
  obtain ⟨displayName, hname, h⟩ := exists_of_bind_eq_ok h
  obtain ⟨displayName', hname', h'⟩ := exists_of_bind_eq_ok h'
  obtain ⟨description, hdescription, h⟩ := exists_of_bind_eq_ok h
  obtain ⟨description', hdescription', h'⟩ := exists_of_bind_eq_ok h'
  obtain ⟨admitted, hadmitted, h⟩ := exists_of_bind_eq_ok h
  obtain ⟨admitted', hadmitted', h'⟩ := exists_of_bind_eq_ok h'
  obtain ⟨others, -, h⟩ := exists_of_bind_eq_ok h
  obtain ⟨others', -, h'⟩ := exists_of_bind_eq_ok h'
  obtain ⟨examples, hexamples, h⟩ := exists_of_bind_eq_ok h
  obtain ⟨examples', hexamples', h'⟩ := exists_of_bind_eq_ok h'
  obtain ⟨rfl, rfl⟩ := Prod.mk.inj (Except.ok.inj h)
  obtain ⟨rfl, rfl⟩ := Prod.mk.inj (Except.ok.inj h')
  refine ⟨rfl, rfl, ?_⟩
  rw [same hr hr', same hname hname', same hdescription hdescription', same hadmitted hadmitted',
    same hexamples hexamples']

theorem Facets.others_of_read {α : Type} {type : Option DataType} {others : Reading α}
    {facets : Facets} {other : α}
    (h : (read source entries type others).result = .ok (facets, other)) :
    others.result = .ok other := by
  unfold read at h
  simp only [Reading.result_bind, Reading.result_monadLift] at h
  obtain ⟨restrictions, -, h⟩ := exists_of_bind_eq_ok h
  obtain ⟨displayName, -, h⟩ := exists_of_bind_eq_ok h
  obtain ⟨description, -, h⟩ := exists_of_bind_eq_ok h
  obtain ⟨admitted, -, h⟩ := exists_of_bind_eq_ok h
  obtain ⟨others, hothers, h⟩ := exists_of_bind_eq_ok h
  obtain ⟨examples, -, h⟩ := exists_of_bind_eq_ok h
  obtain ⟨rfl, rfl⟩ := Prod.mk.inj (Except.ok.inj h)
  exact hothers

namespace TypeDeclaration

variable {type : TypeDeclaration} {property : Property}

/-- The items of a type are those that its mapping declares. -/
theorem items_of_readOthers {items : Option DataType} {object : ObjectFacets} {array : ArrayFacets}
    {ownFacets : Block Property}
    (h : (readOthers source entries items).result = .ok (object, array, ownFacets)) :
    array.items = items := by
  unfold readOthers at h
  simp only [Reading.result_bind, Reading.result_monadLift] at h
  obtain ⟨object, -, h⟩ := exists_of_bind_eq_ok h
  obtain ⟨array, harray, h⟩ := exists_of_bind_eq_ok h
  obtain ⟨ownFacets, -, h⟩ := exists_of_bind_eq_ok h
  cases Except.ok.inj h
  obtain ⟨minItems, -, h⟩ := exists_of_bind_eq_ok harray
  obtain ⟨maxItems, -, h⟩ := exists_of_bind_eq_ok h
  obtain ⟨uniqueItems, -, h⟩ := exists_of_bind_eq_ok h
  exact Except.ok.inj h ▸ rfl

/-- A declared type stands as it is unless it is `array` with items. -/
theorem typeOf_eq_self_iff {declared items : Option DataType} :
    typeOf declared items = declared ↔ ¬(declared = some (.custom "array") ∧ items.isSome) := by
  unfold typeOf
  split
  · simp
  next h =>
    refine ⟨fun _ ⟨harray, hitems⟩ => ?_, fun _ => rfl⟩
    obtain ⟨element, rfl⟩ := Option.isSome_iff_exists.1 hitems
    exact h element harray rfl

/-- The facets of a type are those of the property read from the same tree, apart from what items
make of the type. -/
theorem facets_of_read (htype : (read source name tree).result = .ok type)
    (hproperty : (Property.read source name tree).result = .ok property) :
    type.facets.type = typeOf property.facets.type type.array.items ∧
      type.facets = { property.facets with type := type.facets.type } := by
  unfold read at htype
  unfold Property.read at hproperty
  rw [Reading.result_bind] at htype hproperty
  obtain ⟨slot, hslot, htype⟩ := exists_of_bind_eq_ok htype
  obtain ⟨slot', hslot', hproperty⟩ := exists_of_bind_eq_ok hproperty
  obtain rfl := Except.ok.inj (hslot.symm.trans hslot')
  cases hcontent : slot.content with
  | null =>
    rw [hcontent] at htype hproperty
    cases htype
    cases hproperty
    exact ⟨rfl, rfl⟩
  | string expression =>
    rw [hcontent] at htype hproperty
    cases htype
    cases hproperty
    exact ⟨(typeOf_eq_self_iff.2 (by simp)).symm, rfl⟩
  | mapping entries =>
    rw [hcontent] at htype hproperty
    simp only [ofEntries, Property.ofEntries, Reading.result_bind, Reading.result_monadLift]
      at htype hproperty
    obtain ⟨items, -, htype⟩ := exists_of_bind_eq_ok htype
    obtain ⟨declared, hdeclared, htype⟩ := exists_of_bind_eq_ok htype
    obtain ⟨⟨facets, object, array, ownFacets⟩, hfacets, htype⟩ := exists_of_bind_eq_ok htype
    obtain ⟨declared', hdeclared', hproperty⟩ := exists_of_bind_eq_ok hproperty
    obtain ⟨required, -, hproperty⟩ := exists_of_bind_eq_ok hproperty
    obtain ⟨⟨facets', ⟨⟩⟩, hfacets', hproperty⟩ := exists_of_bind_eq_ok hproperty
    cases Except.ok.inj htype
    cases Except.ok.inj hproperty
    obtain rfl := Except.ok.inj (hdeclared.symm.trans hdeclared')
    obtain ⟨htype, htype', heq⟩ :=
      Facets.eq_of_read hfacets hfacets' (Restrictions.read_typeOf declared items)
    have hitems : array.items = items := items_of_readOthers (Facets.others_of_read hfacets)
    refine ⟨?_, ?_⟩
    · rw [htype, htype', hitems]
    · rw [htype]
      exact heq
  | _ =>
    rw [hcontent] at htype
    cases htype

/-- A type and a property that are read from one tree have the same facets, unless that declares
`array` for the type and gives its items a type. There the type has arrays of these items for its
type, the property keeps the name, and all other facets are the same. -/
theorem facets_eq_iff_of_read (htype : (read source name tree).result = .ok type)
    (hproperty : (Property.read source name tree).result = .ok property) :
    (type.facets = property.facets ↔
        ¬(property.facets.type = some (.custom "array") ∧ type.array.items.isSome)) ∧
      type.facets = { property.facets with type := type.facets.type } ∧
      ∀ items, property.facets.type = some (.custom "array") → type.array.items = some items →
        type.facets.type = some (.array items) := by
  obtain ⟨htypes, hfacets⟩ := facets_of_read htype hproperty
  refine ⟨?_, hfacets, fun items hdeclared hitems => ?_⟩
  · rw [← typeOf_eq_self_iff, ← htypes]
    constructor
    · intro heq
      rw [heq]
    · intro heq
      rw [hfacets, heq]
  · rw [htypes, hdeclared, hitems]
    rfl

/-! ## A type and a property that differ -/

/-- The entries of a list of texts, spelled out. -/
def textsEntries : Entries :=
  [(.string "type", .string "array"), (.string "items", .string "string")]

/-- The type that they declare. -/
def textsType : TypeDeclaration where
  name := "tags"
  facets := { type := some (.array (.scalar .string)) }
  array := { items := some (.scalar .string) }

/-- The property that they declare. -/
def textsProperty : Property where
  name := "tags"
  facets := { type := some (.custom "array") }

theorem declared_texts :
    DataType.ofTree? (some "type") (.mapping textsEntries) = .ok (some (.custom "array")) := by
  have hcore : DataType.IsCore "array".toList := ⟨by decide, by decide⟩
  have hname : DataType.ofString "array" = .custom "array" := by
    rw [DataType.ofString, DataType.ofChars, DataType.layered_of_isCore hcore, DataType.ofCore,
      if_neg (by decide)]
    rfl
  change Except.ok (some (DataType.ofString "array")) = _
  rw [hname]

theorem items_texts :
    DataType.ofTree? (some "type") ((Entries.field? textsEntries "items").getD .null) =
      .ok (some (.scalar .string)) := by
  have hcore : DataType.IsCore "string".toList := ⟨by decide, by decide⟩
  have hname : DataType.ofString "string" = .scalar .string := by
    rw [DataType.ofString, DataType.ofChars, DataType.layered_of_isCore hcore, DataType.ofCore,
      if_neg (by decide)]
    rfl
  change Except.ok (some (DataType.ofString "string")) = _
  rw [hname]

theorem result_read_texts (source : Source) :
    (read source "tags" (.mapping textsEntries)).result = .ok textsType := by
  have hobject : readObject source textsEntries = pure {} := by
    unfold readObject
    change Property.readAll source none >>= _ = _
    rfl
  have hothers : readOthers source textsEntries (some (.scalar .string)) =
      pure ({}, textsType.array, none) := by
    unfold readOthers
    rw [hobject]
    rfl
  have hfacets : Facets.read source textsEntries textsType.facets.type
      (readOthers source textsEntries (some (.scalar .string))) =
        pure (textsType.facets, {}, textsType.array, none) := by
    rw [hothers]
    rfl
  unfold read
  rw [Source.openSlot_of_inline rfl]
  change (ofEntries source "tags" textsEntries).result = _
  unfold ofEntries
  rw [items_texts, declared_texts, Reading.ok_bind, Reading.ok_bind]
  change (Facets.read source textsEntries textsType.facets.type
    (readOthers source textsEntries (some (.scalar .string))) >>= _).result = _
  rw [hfacets]
  rfl

theorem result_read_property_texts (source : Source) :
    (Property.read source "tags" (.mapping textsEntries)).result = .ok textsProperty := by
  have hfacets : Facets.read source textsEntries (some (.custom "array")) (pure ()) =
      pure (textsProperty.facets, ()) := rfl
  unfold Property.read
  rw [Source.openSlot_of_inline rfl]
  change (Property.ofEntries source "tags" textsEntries).result = _
  unfold Property.ofEntries
  rw [declared_texts, Reading.ok_bind, hfacets]
  rfl

/-- Of these entries, only the type makes arrays of texts. -/
theorem facets_texts :
    (read ⟨.empty, .detached {}⟩ "tags" (.mapping textsEntries)).result = .ok textsType ∧
      (Property.read ⟨.empty, .detached {}⟩ "tags" (.mapping textsEntries)).result =
        .ok textsProperty ∧
      textsType.facets.type = some (.array (.scalar .string)) ∧
      textsType.facets ≠ textsProperty.facets := by
  have htype := result_read_texts ⟨.empty, .detached {}⟩
  have hproperty := result_read_property_texts ⟨.empty, .detached {}⟩
  obtain ⟨hiff, -, harray⟩ := facets_eq_iff_of_read htype hproperty
  refine ⟨htype, hproperty, harray _ rfl rfl, ?_⟩
  intro heq
  exact hiff.1 heq ⟨rfl, rfl⟩

/-- A type and a property may differ in their facets, though both are read from one mapping. -/
theorem not_facets_eq_of_items :
    ¬∀ (source : Source) (name : String) (entries : Entries) (type : TypeDeclaration)
      (property : Property), (read source name (.mapping entries)).result = .ok type →
        (Property.read source name (.mapping entries)).result = .ok property →
        type.facets = property.facets := by
  intro h
  have heq := h ⟨.empty, .detached {}⟩ "tags" textsEntries textsType textsProperty
    (result_read_texts _) (result_read_property_texts _)
  exact absurd (congrArg Facets.type heq) (by decide)

end TypeDeclaration

end RamlDoc
