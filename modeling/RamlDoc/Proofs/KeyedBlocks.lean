import Mathlib.Data.List.Nodup
import RamlDoc.Model.Lookup
import RamlDoc.Proofs.DocumentSites
import RamlDoc.Proofs.EntryLoops

/-!
# Blocks that are found by their keys

A block is keyed by a mapping if its items are made of the entries whose keys are picked, one of
each, in order and with its key (`Keyed`). Where the keys of the mapping are distinct even without
their tags, no two items have the same key, so a lookup finds each of them (`Keyed.of_readOff`). The
loops over entries and the readers of blocks give such blocks (`readOff_of_collect`,
`declaredIn_readBlock`).
-/

namespace RamlDoc

open Yaml

/-- What holds of the value that a reading gives, if it gives one. -/
def Yields {α : Type} (P : α → Prop) (reading : Reading α) : Prop :=
  ∀ value, reading.result = .ok value → P value

namespace Yields

variable {α β : Type} {P : α → Prop} {Q : β → Prop}

theorem mono {P' : α → Prop} {reading : Reading α} (h : Yields P reading)
    (himp : ∀ value, P value → P' value) : Yields P' reading :=
  fun value hvalue => himp value (h value hvalue)

theorem pure {value : α} (h : P value) : Yields P (Pure.pure value) :=
  fun _ hvalue => Except.ok.inj hvalue ▸ h

theorem fail (error : Error) : Yields P (Reading.fail error) := fun _ hvalue => by cases hvalue

theorem bind {first : Reading α} {next : α → Reading β}
    (h : ∀ value, first.result = .ok value → Yields Q (next value)) :
    Yields Q (first >>= next) := by
  intro value hvalue
  rw [Reading.result_bind] at hvalue
  obtain ⟨found, hfound, hvalue⟩ := exists_of_bind_eq_ok hvalue
  exact h found hfound value hvalue

theorem map {reading : Reading α} {f : α → β} (h : Yields (fun value => Q (f value)) reading) :
    Yields Q (f <$> reading) := by
  intro value hvalue
  rw [Reading.result_map] at hvalue
  cases hfound : reading.result with
  | error error =>
    rw [hfound] at hvalue
    cases hvalue
  | ok found =>
    rw [hfound] at hvalue
    exact Except.ok.inj hvalue ▸ h found hfound

theorem mapError {reading : Reading α} {change : Error → Error} (h : Yields P reading) :
    Yields P (reading.mapError change) := by
  intro value hvalue
  cases hfound : reading.result with
  | error error =>
    rw [Reading.result_mapError, hfound] at hvalue
    cases hvalue
  | ok found =>
    rw [Reading.result_mapError, hfound] at hvalue
    exact Except.ok.inj hvalue ▸ h found hfound

theorem mapM {γ : Type} {made : γ → α → Prop} {read : γ → Reading α} {items : List γ}
    (h : ∀ item ∈ items, Yields (made item) (read item)) :
    Yields (fun values => List.Forall₂ made items values) (items.mapM read) := by
  induction items with
  | nil => exact pure .nil
  | cons item items ih =>
    rw [List.mapM_cons]
    have hitems := ih fun other hother => h other (List.mem_cons_of_mem _ hother)
    exact bind fun first hfirst => bind fun rest hrest =>
      pure (.cons (h item List.mem_cons_self first hfirst) (hitems rest hrest))

end Yields

/-- The keys of a mapping are distinct even without their tags. -/
def Yaml.Entries.UntaggedDistinct (entries : Entries) : Prop :=
  (entries.map fun entry => entry.1.untagged).Nodup

instance (entries : Entries) : Decidable entries.UntaggedDistinct :=
  inferInstanceAs (Decidable (List.Nodup _))

section

variable {α κ : Type} {keyOf : α → κ} {text : κ → String} {picks : Tree → Bool}
  {made : Tree → α → Prop} {entries : Entries} {items : List α} {block : Block α}

/-- Items are read off the entries of a mapping whose keys are picked: each is made of the value of
one of them, in order, and its key, as a text, is that of the entry. -/
def ReadOff (keyOf : α → κ) (text : κ → String) (picks : Tree → Bool) (made : Tree → α → Prop)
    (entries : Entries) (items : List α) : Prop :=
  List.Forall₂ (fun entry item => entry.1.asString? = some (text (keyOf item)) ∧ made entry.2 item)
    (entries.filter fun entry => picks entry.1) items

theorem untagged_of_asString? {key : Tree} {s : String} (h : key.asString? = some s) :
    key.untagged = .string s := by
  unfold Tree.asString? at h
  split at h
  next heq => rw [heq, Option.some.inj h]
  next => cases h

/-- Items that are read off a mapping with distinct keys have distinct keys. -/
theorem ReadOff.nodup (h : ReadOff keyOf text picks made entries items)
    (hdistinct : entries.UntaggedDistinct) : (items.map keyOf).Nodup := by
  have hkeys : (items.map keyOf).map (fun key => Tree.string (text key)) =
      (entries.filter fun entry => picks entry.1).map fun entry => entry.1.untagged := by
    unfold ReadOff at h
    generalize (entries.filter fun entry => picks entry.1) = picked at h
    induction h with
    | nil => rfl
    | cons hentry _ ih =>
      rw [List.map_cons, List.map_cons, List.map_cons, ih, untagged_of_asString? hentry.1]
  have hpicked : ((entries.filter fun entry => picks entry.1).map
      fun entry => entry.1.untagged).Nodup := (List.filter_sublist.map _).nodup hdistinct
  rw [← hkeys] at hpicked
  exact hpicked.of_map _

/-- An item is made of each entry whose key is picked. -/
theorem ReadOff.exists_item (h : ReadOff keyOf text picks made entries items) {entry : Tree × Tree}
    (hentry : entry ∈ entries) (hpicks : picks entry.1) :
    ∃ item ∈ items, entry.1.asString? = some (text (keyOf item)) ∧ made entry.2 item := by
  have hpicked : entry ∈ entries.filter fun entry => picks entry.1 :=
    List.mem_filter.2 ⟨hentry, hpicks⟩
  unfold ReadOff at h
  generalize (entries.filter fun entry => picks entry.1) = picked at h hpicked
  induction h with
  | nil => cases hpicked
  | cons hhead _ ih =>
    rcases List.mem_cons.1 hpicked with rfl | hpicked
    · exact ⟨_, List.mem_cons_self, hhead⟩
    · obtain ⟨item, hitem, hmade⟩ := ih hpicked
      exact ⟨item, List.mem_cons_of_mem _ hitem, hmade⟩

/-- What is picked from entries, with the entries that it is picked from. -/
theorem forall₂_filterMap {β : Type} (pick : Tree × Tree → Option β) (entries : Entries) :
    List.Forall₂ (fun entry item => pick entry = some item)
      (entries.filter fun entry => (pick entry).isSome) (entries.filterMap pick) := by
  induction entries with
  | nil => exact .nil
  | cons entry entries ih =>
    cases hpick : pick entry with
    | none =>
      rw [List.filterMap_cons_none hpick, List.filter_cons_of_neg (by rw [hpick]; simp)]
      exact ih
    | some item =>
      rw [List.filterMap_cons_some hpick, List.filter_cons_of_pos (by rw [hpick]; rfl)]
      exact .cons hpick ih

/-- A loop gives items that are read off its entries. -/
theorem readOff_of_collect {outcome? : Tree × Tree → Option (Except Error α)}
    (h : collect outcome? entries = .ok items)
    (hpicks : ∀ entry, (∀ error, outcome? entry ≠ some (.error error)) →
      picks entry.1 = (outcome? entry).isSome)
    (houtcome : ∀ entry item, outcome? entry = some (.ok item) →
      entry.1.asString? = some (text (keyOf item)) ∧ made entry.2 item) :
    ReadOff keyOf text picks made entries items := by
  have hitems := collect_eq_ok_iff.1 h
  have hpicked : ∀ entry ∈ entries, picks entry.1 = (outcome? entry).isSome := by
    refine fun entry hentry => hpicks entry fun error herror => ?_
    have hmem := List.mem_filterMap.2 ⟨entry, hentry, herror⟩
    rw [hitems] at hmem
    obtain ⟨_, -, hitem⟩ := List.mem_map.1 hmem
    cases hitem
  have hrel := forall₂_filterMap outcome? entries
  rw [hitems, List.forall₂_map_right_iff, ← List.filter_congr hpicked] at hrel
  exact hrel.imp fun entry item => houtcome entry item

variable [DecidableEq κ]

/-- A lookup finds each of the items with distinct keys. -/
theorem find?_eq_some_of_nodup {item : α} (hnodup : (items.map keyOf).Nodup)
    (hitem : item ∈ items) : (items.find? fun other => keyOf other = keyOf item) = some item := by
  induction items with
  | nil => cases hitem
  | cons first items ih =>
    rw [List.map_cons, List.nodup_cons] at hnodup
    rcases List.mem_cons.1 hitem with rfl | hitem
    · exact List.find?_cons_of_pos (by simp)
    · have hne : keyOf first ≠ keyOf item := fun heq =>
        hnodup.1 (heq ▸ List.mem_map_of_mem hitem)
      rw [List.find?_cons_of_neg (by simpa using hne)]
      exact ih hnodup.2 hitem

/-- A block is keyed by the entries of a mapping whose keys are picked: its items are read off them,
their keys are distinct, a lookup finds each of them, and so it sees each of the entries. -/
structure Keyed (keyOf : α → κ) (text : κ → String) (picks : Tree → Bool) (made : Tree → α → Prop)
    (entries : Entries) (block : Block α) : Prop where
  readOff : ReadOff keyOf text picks made entries block.elements
  nodup : (block.elements.map keyOf).Nodup
  found : ∀ item ∈ block.elements, block.find? keyOf (keyOf item) = some item
  seen : ∀ entry ∈ entries, picks entry.1 → ∃ item, block.find? keyOf (keyOf item) = some item ∧
    entry.1.asString? = some (text (keyOf item)) ∧ made entry.2 item

theorem Keyed.of_readOff (h : ReadOff keyOf text picks made entries items)
    (hdistinct : entries.UntaggedDistinct) :
    Keyed keyOf text picks made entries (Block.ofList items) where
  readOff := by rwa [Block.elements_ofList]
  nodup := by
    rw [Block.elements_ofList]
    exact h.nodup hdistinct
  found item hitem := by
    rw [Block.elements_ofList] at hitem
    rw [Block.find?, Block.elements_ofList]
    exact find?_eq_some_of_nodup (h.nodup hdistinct) hitem
  seen entry hentry hpicks := by
    obtain ⟨item, hitem, hmade⟩ := h.exists_item hentry hpicks
    refine ⟨item, ?_, hmade⟩
    rw [Block.find?, Block.elements_ofList]
    exact find?_eq_some_of_nodup (h.nodup hdistinct) hitem

theorem keyed_nil : Keyed keyOf text picks made [] (none : Block α) where
  readOff := .nil
  nodup := .nil
  found _ hitem := by cases hitem
  seen _ hentry := by cases hentry

end

/-! ## Blocks under fields -/

/-- What stands under a field, behind all directives, with its source. -/
def OpensTo (source : Source) (entries : Entries) (field : String) (origin : Source)
    (content : Tree) : Prop :=
  ∃ tree slot, Entries.field? entries field = some tree ∧
    (source.openBlock tree).result = .ok slot ∧ slot.origin = origin ∧ slot.content = content

/-- A block is declared in a field: it is keyed by all entries of the mapping under it, and each
item is read at the site of its entry. A field without a mapping declares nothing. -/
def DeclaredIn {α : Type} (source : Source) (entries : Entries) (field : String)
    (kind : String → SiteKind) (node : α → Document.Node) (keyOf : α → String) (block : Block α) :
    Prop :=
  (block = none ∧ ∀ origin declared, ¬OpensTo source entries field origin (.mapping declared)) ∨
    ∃ origin declared, OpensTo source entries field origin (.mapping declared) ∧
      Keyed keyOf id (fun _ => true) (fun tree item =>
        (⟨kind (keyOf item), origin, tree⟩ : Site).result = .ok (some (node item))) declared block

/-- The mappings that are read as blocks under some fields have distinct keys. -/
def BlocksDistinct (source : Source) (entries : Entries) (fields : List String) : Prop :=
  ∀ field ∈ fields, ∀ origin declared, OpensTo source entries field origin (.mapping declared) →
    Entries.UntaggedDistinct declared

section

variable {α : Type} {source : Source} {entries : Entries} {field construct key : String}
  {kind : String → SiteKind} {node : α → Document.Node} {keyOf : α → String}

theorem not_opensTo_of_none {origin : Source} {content : Tree}
    (h : Entries.field? entries field = none) : ¬OpensTo source entries field origin content := by
  rintro ⟨tree, slot, hfield, -⟩
  cases h.symm.trans hfield

theorem declaredIn_none (h : Entries.field? entries field = none) :
    DeclaredIn source entries field kind node keyOf none :=
  .inl ⟨rfl, fun _ _ => not_opensTo_of_none h⟩

theorem declaredIn_nil : DeclaredIn source [] field kind node keyOf none := declaredIn_none rfl

/-- A block without a mapping behind its directives declares nothing. -/
theorem declaredIn_of_null {tree : Tree} {slot : Slot source tree}
    (hfield : Entries.field? entries field = some tree)
    (hslot : (source.openBlock tree).result = .ok slot) (hcontent : slot.content = .null) :
    DeclaredIn source entries field kind node keyOf none := by
  refine .inl ⟨rfl, ?_⟩
  rintro origin declared ⟨_, found, hfound, hopen, -, hmapping⟩
  obtain rfl := Option.some.inj (hfield.symm.trans hfound)
  obtain rfl := Except.ok.inj (hslot.symm.trans hopen)
  cases hcontent.symm.trans hmapping

/-- Where each entry of a block is read at a site of its own, with the key of the entry for that of
the item, the block is declared in its field. -/
theorem declaredIn_of_collect {origin : Source} {declared : Entries} {items : List α}
    {read : String → Tree → Reading α}
    (hitems : collect (fun entry => some (entryOutcome construct read entry)) declared = .ok items)
    (hopens : OpensTo source entries field origin (.mapping declared))
    (hdistinct : declared.UntaggedDistinct)
    (hsite : ∀ name tree, (⟨kind name, origin, tree⟩ : Site).result =
      (some ∘ node) <$> (read name tree).result)
    (hname : ∀ name tree, Yields (fun item => keyOf item = name) (read name tree)) :
    DeclaredIn source entries field kind node keyOf (Block.ofList items) := by
  refine .inr ⟨origin, declared, hopens, .of_readOff
    (readOff_of_collect hitems (fun _ _ => rfl) ?_) hdistinct⟩
  intro entry item houtcome
  obtain ⟨name, hkey, hread⟩ := exists_of_bind_eq_ok (Option.some.inj houtcome)
  obtain rfl : keyOf item = name := hname name entry.2 item hread
  refine ⟨asString?_of_keyText hkey, ?_⟩
  rw [hsite, hread]
  rfl

theorem declaredIn_readBlock {read : Source → String → Tree → Reading α} {fields : List String}
    (hfield : field ∈ fields) (hdistinct : BlocksDistinct source entries fields)
    (hsite : ∀ origin name tree, (⟨kind name, origin, tree⟩ : Site).result =
      (some ∘ node) <$> (read origin name tree).result)
    (hname : ∀ origin name tree, Yields (fun item => keyOf item = name) (read origin name tree)) :
    Yields (DeclaredIn source entries field kind node keyOf)
      (readBlock source key construct read (Entries.field? entries field)) := by
  cases hopen : Entries.field? entries field with
  | none => exact .pure (declaredIn_none hopen)
  | some tree =>
    refine .bind fun slot hslot => ?_
    split
    next declared hcontent =>
      have hopens : OpensTo source entries field slot.origin (.mapping declared) :=
        ⟨tree, slot, hopen, hslot, rfl, hcontent⟩
      refine .map fun items hitems => ?_
      rw [result_readEntries] at hitems
      exact declaredIn_of_collect hitems hopens (hdistinct field hfield slot.origin declared hopens)
        (hsite slot.origin) (hname slot.origin)
    next hcontent => exact .pure (declaredIn_of_null hopen hslot hcontent)
    next => exact .fail _

end

/-! ## Annotations -/

/-- The key of an annotation. -/
def annotationKey (name : String) : String := "(" ++ name ++ ")"

theorem eq_annotationKey_of_annotationName? {key name : String}
    (h : annotationName? key = some name) : key = annotationKey name := by
  unfold annotationName? at h
  obtain ⟨chars, hchars, hname⟩ := Option.bind_eq_some_iff.1 h
  obtain ⟨rest, hstart, hend⟩ := Option.bind_eq_some_iff.1 hchars
  split at hname
  · cases hname
  · obtain rfl := Option.some.inj hname
    have hkey := Text.afterStart?_eq_some.1 hstart
    rw [Text.beforeEnd?_eq_some.1 hend] at hkey
    rw [← String.ofList_toList (s := key), hkey, annotationKey]
    apply String.toList_inj.1
    simp

/-- The annotations of a node are keyed by those of its entries whose keys are names in
parentheses. -/
def Annotated (entries : Entries) (annotations : Block AnnotationUse) : Prop :=
  Keyed (·.name) annotationKey (fun key => (key.asString?.bind annotationName?).isSome)
    (fun tree annotation => annotation.value = given? tree) entries annotations

theorem annotated_annotationsOf {entries : Entries} (hdistinct : entries.UntaggedDistinct) :
    Annotated entries (annotationsOf entries) := by
  have hpicks : (fun entry : Tree × Tree => (entry.1.asString?.bind annotationName?).isSome) =
      fun entry => (annotationOf? entry).isSome := by
    funext entry
    rw [annotationOf?, Option.isSome_map]
  have hrel := forall₂_filterMap annotationOf? entries
  rw [← hpicks] at hrel
  refine .of_readOff (hrel.imp fun entry annotation hentry => ?_) hdistinct
  obtain ⟨name, hname, rfl⟩ := Option.map_eq_some_iff.1 hentry
  obtain ⟨key, hkey, hname⟩ := Option.bind_eq_some_iff.1 hname
  refine ⟨?_, rfl⟩
  rw [hkey, eq_annotationKey_of_annotationName? hname]

end RamlDoc
