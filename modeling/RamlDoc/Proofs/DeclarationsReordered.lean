import RamlDoc.Proofs.CarriedReadings

/-!
# Reordered declarations

A node of a document reorders another of its kind if the two are equal, but for the order in what is
read off the entries of mappings and in the raw mappings that they keep. Each kind has a relation
`Reorders` with a `frame`, which says what the two have alike. Lists that are read off sequences
keep their order. Reading reordered entries gives reordered declarations.
-/

namespace RamlDoc

open Yaml

variable {source : Source} {first second : Entries} {tree tree' : Tree}

/-! ## Annotations and usages -/

/-- The entries of a raw mapping in some order. -/
def Yaml.Entries.Reorders (first second : Entries) : Prop :=
  (Tree.mapping first).Reorders (.mapping second)

/-- The same annotation, with its value reordered. -/
structure AnnotationUse.Reorders (first second : AnnotationUse) : Prop where
  name : second.name = first.name
  value : Option.Rel Tree.Reorders first.value second.value

/-- A usage of the same declaration, with its parameters reordered. -/
structure Usage.Reorders (first second : Usage) : Prop where
  name : second.name = first.name
  parameters : Option.Rel Entries.Reorders first.parameters second.parameters

theorem rel_given? (h : tree.Reorders tree') :
    Option.Rel Tree.Reorders (given? tree) (given? tree') := by
  unfold given?
  rw [h.isNull_eq]
  split
  · exact .none
  · exact .some h

/-- The annotations of a node are reordered with its entries. -/
theorem reordered_annotationsOf (h : Entries.Rearranged first second) :
    Block.Reordered AnnotationUse.Reorders (annotationsOf first) (annotationsOf second) := by
  refine (h.entries.filterMap fun entry entry' hentry => ?_).ofList
  unfold annotationOf?
  rw [hentry.1.asString?_eq]
  cases entry.1.asString?.bind annotationName? with
  | none => exact .none
  | some name => exact .some ⟨rfl, rel_given? hentry.2.reorders⟩

theorem rel_field (h : Entries.Rearranged first second) (key : String) :
    Option.Rel Tree.Reorders (Entries.field? first key) (Entries.field? second key) := by
  have hfield := h.field key
  generalize Entries.field? first key = value, Entries.field? second key = value' at hfield ⊢
  cases hfield with
  | none => exact .none
  | some hvalue => exact .some hvalue.reorders

/-- A usage is a name or a mapping with one entry, so only its parameters can be reordered. -/
theorem carries_readUsage (key : String) (h : tree.Reorders tree') :
    Carries Usage.Reorders (readUsage key tree) (readUsage key tree') := by
  cases h with
  | string name => exact .ok ⟨rfl, .none⟩
  | @mapping entries entries' hentries =>
    obtain ⟨moved, hperm, hrel⟩ := reordered_iff.1 hentries
    match entries, hperm with
    | [], _ => exact .error
    | _ :: _ :: _, _ => exact .error
    | [entry], hperm =>
      obtain rfl := List.perm_singleton.1 hperm.symm
      obtain ⟨entry', rest, hentry, hrest, rfl⟩ := List.forall₂_cons_left_iff.1 hrel
      obtain rfl := List.forall₂_nil_left_iff.1 hrest
      cases hentry with
      | intro hkey hvalue =>
        simp only [readUsage, keyText_eq_of_reorders hkey]
        cases keyText "Usage" _ with
        | error => exact .error
        | ok name =>
          cases hvalue with
          | null => exact .ok ⟨rfl, .none⟩
          | mapping hparameters => exact .ok ⟨rfl, .some (.mapping hparameters)⟩
          | _ => exact .error
  | _ => exact .error

theorem forall₂_elementsOf (h : tree.Reorders tree') :
    List.Forall₂ Tree.Reorders (elementsOf tree) (elementsOf tree') := by
  cases h with
  | sequence hitems => exact hitems
  | null => exact .cons .null .nil
  | bool value => exact .cons (.bool value) .nil
  | number value => exact .cons (.number value) .nil
  | string value => exact .cons (.string value) .nil
  | mapping hentries => exact .cons (.mapping hentries) .nil
  | tagged hvalue => exact .cons (.tagged hvalue) .nil

/-- The nodes of a field that holds a sequence, in their order. -/
abbrev Block.InOrder {α β : Type} (R : α → β → Prop) : Block α → Block β → Prop :=
  Option.Rel (List.Forall₂ R)

theorem inOrder_ofList {α β : Type} {R : α → β → Prop} {items : List α} {items' : List β}
    (h : List.Forall₂ R items items') :
    Block.InOrder R (Block.ofList items) (Block.ofList items') := by
  cases h with
  | nil => exact .none
  | cons hhead htail => exact .some (.cons hhead htail)

/-- Usages stand in a sequence, so they keep their order. -/
theorem carries_readUsages {read : Tree → Except Error Usage}
    (hread : ∀ tree tree', tree.Reorders tree' → Carries Usage.Reorders (read tree) (read tree'))
    {field field' : Option Tree} (h : Option.Rel Tree.Reorders field field') :
    Carries (Block.InOrder Usage.Reorders) (readUsages read field) (readUsages read field') := by
  cases h with
  | none => exact .ok .none
  | some h => exact (Carries.mapM (forall₂_elementsOf h) hread).map fun _ _ => inOrder_ofList

theorem carries_readTraitUsages (h : Entries.Rearranged first second) :
    Carries (Block.InOrder Usage.Reorders) (readTraitUsages first) (readTraitUsages second) :=
  carries_readUsages (fun _ _ => carries_readUsage "is") (rel_field h "is")

theorem carries_readSecuredBy (h : Entries.Rearranged first second) :
    Carries (Block.InOrder Usage.Reorders) (readSecuredBy first) (readSecuredBy second) := by
  refine carries_readUsages (fun tree tree' htree => ?_) (rel_field h "securedBy")
  cases htree with
  | null => exact .ok ⟨rfl, .none⟩
  | mapping hentries => exact carries_readUsage "securedBy" (.mapping hentries)
  | string name => exact .ok ⟨rfl, .none⟩
  | _ => exact .error

/-! ## Examples and facets -/

/-- The same example but for the order in its value and its annotations. -/
structure Example.Reorders (first second : Example) : Prop where
  frame : { second with value := first.value, annotations := first.annotations } = first
  value : Option.Rel Tree.Reorders first.value second.value
  annotations : Block.Reordered AnnotationUse.Reorders first.annotations second.annotations

namespace Example

theorem carries_read (identifier : String) (h : tree.Rearranged tree') :
    Carries Reorders (read source identifier tree).result
      (read source identifier tree').result := by
  unfold read
  rw [h.isInclude_left, h.isInclude_right]
  cases h.reorders with
  | mapping =>
    have h : Entries.Rearranged _ _ := h
    have hget := isSome_eq_of_rel (h.get? "value")
    simp only [hget, h.text, h.boolean, Bool.false_eq_true, if_false]
    split
    · refine .bindSame fun _ => .bindSame fun _ => .bindSame fun _ => .ok ?_
      exact ⟨rfl, rel_field h "value", reordered_annotationsOf h⟩
    · exact .ok ⟨rfl, .some h.reorders, .none⟩
  | _ => exact .ok ⟨rfl, rel_given? h.reorders, .none⟩

theorem carries_readSingle (h : Entries.Rearranged first second) :
    Carries (List.Forall₂ Reorders) (readSingle source first).result
      (readSingle source second).result := by
  have hfield := h.field "example"
  unfold readSingle
  generalize Entries.field? first _ = value, Entries.field? second _ = value' at hfield ⊢
  cases hfield with
  | none => exact .ok .nil
  | some hvalue => exact .bind (carries_read _ hvalue) fun _ _ hread => .ok (.cons hread .nil)

/-- Named examples are the entries of a mapping, so they are reordered with it. -/
theorem carries_readNamed (h : Entries.Rearranged first second) :
    Carries (Reordered Reorders) (readNamed source first).result
      (readNamed source second).result := by
  have hfield := h.field "examples"
  unfold readNamed
  generalize Entries.field? first _ = value, Entries.field? second _ = value' at hfield ⊢
  cases hfield with
  | none => exact .ok .nil
  | some hvalue =>
    cases hvalue.reorders with
    | mapping => exact carries_readEntries (fun name _ _ => carries_read name) hvalue
    | _ => exact .error

/-- A single example stays in front of the named ones. -/
theorem carries_readAll (h : Entries.Rearranged first second) :
    Carries (Block.Reordered Reorders) (readAll source first).result
      (readAll source second).result := by
  refine .bind (carries_readSingle h) fun single single' hsingle => ?_
  refine .bind (carries_readNamed h) fun named named' hnamed => .ok ?_
  exact ((Reordered.of_forall₂ hsingle).append hnamed).ofList

end Example

/-- Restrictions are read off single fields, so the order does not matter for them. -/
theorem Restrictions.read_eq_of_rearranged (h : Entries.Rearranged first second)
    (type : Option DataType) : read second type = read first type := by
  unfold read readString readNumber readFormat readFile
  simp only [h.string, h.natural, h.number, h.strings]

/-- The same facets but for the order in the default, the examples and the annotations. -/
structure Facets.Reorders (first second : Facets) : Prop where
  frame :
    { second with
      default := first.default
      examples := first.examples
      annotations := first.annotations } = first
  default : Option.Rel Tree.Reorders first.default second.default
  examples : Block.Reordered Example.Reorders first.examples second.examples
  annotations : Block.Reordered AnnotationUse.Reorders first.annotations second.annotations

theorem Facets.reorders_ofExpression (expression : String) :
    (ofExpression expression).Reorders (ofExpression expression) :=
  ⟨rfl, .none, .none, .none⟩

/-- Facets carry over together with whatever is read in their midst. -/
theorem Facets.carries_read {α : Type} {S : α → α → Prop} (h : Entries.Rearranged first second)
    (type : Option DataType) {others others' : Reading α}
    (hothers : Carries S others.result others'.result) :
    Carries (fun read read' => read.1.Reorders read'.1 ∧ S read.2 read'.2)
      (read source first type others).result (read source second type others').result := by
  unfold read
  simp only [Restrictions.read_eq_of_rearranged h, h.text, h.strings]
  refine .bindSame fun _ => .bindSame fun _ => .bindSame fun _ => .bindSame fun _ => ?_
  refine .bind hothers fun _ _ hothers => .bind (Example.carries_readAll h) fun _ _ hexamples => ?_
  exact .ok ⟨⟨rfl, rel_field h "default", hexamples, reordered_annotationsOf h⟩, hothers⟩

/-! ## Types -/

/-- The same property with reordered facets. -/
structure Property.Reorders (first second : Property) : Prop where
  frame : { second with facets := first.facets } = first
  facets : first.facets.Reorders second.facets

namespace Property

theorem carries_ofEntries (name : String) (h : Entries.Rearranged first second) :
    Carries Reorders (ofEntries source name first).result
      (ofEntries source name second).result := by
  unfold ofEntries
  rw [DataType.ofTree?_eq_of_rearranged h, h.boolean]
  refine .bindSame fun type => .bindSame fun _ => ?_
  exact .bind (Facets.carries_read h type (S := Eq) (.ok rfl)) fun _ _ hread => .ok ⟨rfl, hread.1⟩

theorem carries_read (name : String) (h : tree.Rearranged tree') :
    Carries Reorders (read source name tree).result (read source name tree').result := by
  refine .openSlot h ?_
  cases h.reorders with
  | null => exact .ok ⟨rfl, rfl, .none, .none, .none⟩
  | string expression => exact .ok ⟨rfl, Facets.reorders_ofExpression expression⟩
  | mapping => exact carries_ofEntries name h
  | _ => exact .error

/-- Properties are reordered with the mapping that declares them. -/
theorem carries_readAll (h : Entries.Rearranged first second) (key : String) :
    Carries (Block.Reordered Reorders) (readAll source (Entries.field? first key)).result
      (readAll source (Entries.field? second key)).result :=
  carries_readBlock (fun name _ _ => carries_read name) (h.field key)

end Property

/-- The same facets of an object with reordered properties. -/
structure ObjectFacets.Reorders (first second : ObjectFacets) : Prop where
  frame : { second with properties := first.properties } = first
  properties : Block.Reordered Property.Reorders first.properties second.properties

/-- The same declared type but for the order in its facets and its properties. -/
structure TypeDeclaration.Reorders (first second : TypeDeclaration) : Prop where
  frame :
    { second with
      facets := first.facets
      object := first.object
      ownFacets := first.ownFacets } = first
  facets : first.facets.Reorders second.facets
  object : first.object.Reorders second.object
  ownFacets : Block.Reordered Property.Reorders first.ownFacets second.ownFacets

namespace TypeDeclaration

theorem carries_readObject (h : Entries.Rearranged first second) :
    Carries ObjectFacets.Reorders (readObject source first).result
      (readObject source second).result := by
  unfold readObject
  simp only [h.natural, h.boolean, h.string]
  refine .bind (Property.carries_readAll h _) fun _ _ hproperties => ?_
  refine .bindSame fun _ => .bindSame fun _ => .bindSame fun _ => .bindSame fun _ => ?_
  exact .bindSame fun _ => .ok ⟨rfl, hproperties⟩

theorem carries_readOthers (items : Option DataType) (h : Entries.Rearranged first second) :
    Carries (fun read read' => read.1.Reorders read'.1 ∧ read'.2.1 = read.2.1 ∧
        Block.Reordered Property.Reorders read.2.2 read'.2.2)
      (readOthers source first items).result (readOthers source second items).result := by
  unfold readOthers readArray
  simp only [h.natural, h.boolean]
  refine .bind (carries_readObject h) fun _ _ hobject => .bindSame fun _ => ?_
  exact .bind (Property.carries_readAll h _) fun _ _ hownFacets => .ok ⟨hobject, rfl, hownFacets⟩

theorem carries_ofEntries (name : String) (h : Entries.Rearranged first second) :
    Carries Reorders (ofEntries source name first).result
      (ofEntries source name second).result := by
  have hitems : DataType.ofTree? (some "type") ((Entries.field? second "items").getD .null) =
      DataType.ofTree? (some "type") ((Entries.field? first "items").getD .null) := by
    have hfield := h.field "items"
    generalize Entries.field? first _ = value, Entries.field? second _ = value' at hfield ⊢
    cases hfield with
    | none => rfl
    | some hvalue => exact DataType.ofTree?_eq_of_rearranged hvalue
  unfold ofEntries
  rw [DataType.ofTree?_eq_of_rearranged h, hitems]
  refine .bindSame fun items => .bindSame fun declared => ?_
  refine .bind (Facets.carries_read h _ (carries_readOthers items h)) fun read read' hread => ?_
  obtain ⟨facets, object, array, ownFacets⟩ := read
  obtain ⟨facets', object', array', ownFacets'⟩ := read'
  obtain ⟨hfacets, hobject, harray, hownFacets⟩ := hread
  obtain rfl : array' = array := harray
  exact .ok ⟨rfl, hfacets, hobject, hownFacets⟩

theorem carries_read (name : String) (h : tree.Rearranged tree') :
    Carries Reorders (read source name tree).result (read source name tree').result := by
  refine .openSlot h ?_
  cases h.reorders with
  | null => exact .ok ⟨rfl, ⟨rfl, .none, .none, .none⟩, ⟨rfl, .none⟩, .none⟩
  | string expression =>
    exact .ok ⟨rfl, Facets.reorders_ofExpression expression, ⟨rfl, .none⟩, .none⟩
  | mapping => exact carries_ofEntries name h
  | _ => exact .error

/-- Declared types are reordered with the mapping that declares them. -/
theorem carries_readAll (h : Entries.Rearranged first second) (key : String) :
    Carries (Block.Reordered Reorders) (readAll source (Entries.field? first key)).result
      (readAll source (Entries.field? second key)).result :=
  carries_readBlock (fun name _ _ => carries_read name) (h.field key)

end TypeDeclaration

/-- The same annotation type but for the order in its properties and its annotations. -/
structure AnnotationType.Reorders (first second : AnnotationType) : Prop where
  frame :
    { second with
      properties := first.properties
      annotations := first.annotations } = first
  properties : Block.Reordered Property.Reorders first.properties second.properties
  annotations : Block.Reordered AnnotationUse.Reorders first.annotations second.annotations

theorem AnnotationKind.ofItems_eq_of_forall₂ {items items' : List Tree}
    (h : List.Forall₂ Tree.Reorders items items') : ofItems items' = ofItems items := by
  unfold ofItems
  refine congrArg (· >>= _) ?_
  induction h with
  | nil => rfl
  | cons hhead _ ih =>
    rw [List.mapM_cons, List.mapM_cons, ih]
    cases hhead <;> rfl

/-- The kind of an annotation type is told by one field, whose order does not matter. -/
theorem AnnotationKind.ofField_eq_of_rel {type type' : Option Tree}
    (h : Option.Rel Tree.Reorders type type') (hasProperties : Bool) :
    ofField type' hasProperties = ofField type hasProperties := by
  cases h with
  | none => rfl
  | some h =>
    cases h with
    | sequence hitems => exact ofItems_eq_of_forall₂ hitems
    | _ => rfl

namespace AnnotationType

theorem carries_ofEntries (name : String) (h : Entries.Rearranged first second) :
    Carries Reorders (ofEntries source name first).result
      (ofEntries source name second).result := by
  unfold ofEntries
  simp only [h.text, h.strings, AnnotationKind.ofField_eq_of_rel (rel_field h "type")]
  refine .bind (Property.carries_readAll h _) fun _ _ hproperties => ?_
  rw [isSome_eq_of_rel hproperties]
  refine .bindSame fun _ => .bindSame fun _ => .bindSame fun _ => .bindSame fun _ => ?_
  exact .ok ⟨rfl, hproperties, reordered_annotationsOf h⟩

theorem carries_read (name : String) (h : tree.Rearranged tree') :
    Carries Reorders (read source name tree).result (read source name tree').result := by
  cases h.reorders with
  | null => exact .ok ⟨rfl, .none, .none⟩
  | string => exact .bindSame fun _ => .ok ⟨rfl, .none, .none⟩
  | sequence hitems =>
    unfold read
    simp only [AnnotationKind.ofItems_eq_of_forall₂ hitems]
    exact .bindSame fun _ => .ok ⟨rfl, .none, .none⟩
  | mapping => exact carries_ofEntries name h
  | _ => exact .error

/-- Annotation types are reordered with the mapping that declares them, and one that fails keeps its
name. -/
theorem carries_readAll (h : Entries.Rearranged first second) (key : String) :
    Carries (Block.Reordered Reorders) (readAll source (Entries.field? first key)).result
      (readAll source (Entries.field? second key)).result :=
  carries_readBlock (fun name _ _ htree => (carries_read name htree).mapError _ _) (h.field key)

end AnnotationType

end RamlDoc
