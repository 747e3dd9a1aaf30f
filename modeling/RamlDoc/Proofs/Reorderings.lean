import Mathlib.Data.List.Forall2
import Mathlib.Data.List.Nodup
import Mathlib.Data.List.Perm.Basic
import RamlDoc.Proofs.FieldsRead
import RamlDoc.Proofs.IncludeFree

/-!
# Reorderings

A list is reordered if it is another in some order, each element related to the one that it comes
from (`Reordered`). A tree reorders another if the entries of mappings stand in some order, at any
number of levels, and sequences keep theirs (`Tree.Reorders`). Where keys are distinct, a field of
the one is there exactly when it is there in the other, and its values are reordered
(`Entries.Rearranged.field`). So a field that holds a scalar is the same in both.
-/

namespace RamlDoc

open Yaml

/-! ## Lists -/

/-- A list in some order, each element related to the one that it comes from. -/
inductive Reordered {α β : Type} (R : α → β → Prop) : List α → List β → Prop
  | nil : Reordered R [] []
  | insert {item : α} {item' : β} {items : List α} {before after : List β} (head : R item item')
      (tail : Reordered R items (before ++ after)) :
      Reordered R (item :: items) (before ++ item' :: after)

/-- The nodes of a field, if it is there, in some order. -/
abbrev Block.Reordered {α β : Type} (R : α → β → Prop) : Block α → Block β → Prop :=
  Option.Rel (RamlDoc.Reordered R)

section Lists

variable {α β γ δ : Type} {R : α → β → Prop} {S : γ → δ → Prop} {items : List α} {items' : List β}

/-- A list is reordered if it is related, element by element, to a permutation of the other. -/
theorem reordered_iff :
    Reordered R items items' ↔ ∃ moved, items.Perm moved ∧ List.Forall₂ R moved items' := by
  constructor
  · intro h
    induction h with
    | nil => exact ⟨[], .nil, .nil⟩
    | @insert item item' items before after hhead _ ih =>
      obtain ⟨moved, hperm, hrel⟩ := ih
      have hfront := List.forall₂_take_append moved before after hrel
      have hback := List.forall₂_drop_append moved before after hrel
      refine ⟨_, ?_, List.rel_append hfront (.cons hhead hback)⟩
      refine (hperm.cons item).trans (List.Perm.trans ?_ List.perm_middle.symm)
      rw [List.take_append_drop]
  · rintro ⟨moved, hperm, hrel⟩
    induction items generalizing moved items' with
    | nil =>
      rw [List.nil_perm.1 hperm] at hrel
      rw [List.forall₂_nil_left_iff.1 hrel]
      exact .nil
    | cons item items ih =>
      obtain ⟨front, back, rfl⟩ := List.append_of_mem (hperm.subset List.mem_cons_self)
      have hfront := (List.forall₂_take_append items' front (item :: back) hrel.flip).flip
      have hback := (List.forall₂_drop_append items' front (item :: back) hrel.flip).flip
      obtain ⟨item', after, hhead, hafter, hdrop⟩ := List.forall₂_cons_left_iff.1 hback
      rw [← List.take_append_drop front.length items', hdrop]
      refine .insert hhead (ih _ ?_ (List.rel_append hfront hafter))
      exact (hperm.trans List.perm_middle).cons_inv

theorem isSome_eq_of_rel {value : Option α} {value' : Option β} (h : Option.Rel R value value') :
    value'.isSome = value.isSome := by
  cases h <;> rfl

namespace Reordered

theorem of_forall₂ (h : List.Forall₂ R items items') : Reordered R items items' :=
  reordered_iff.2 ⟨items, .refl _, h⟩

/-- Elements may be related in another way if those that are there are. -/
theorem imp {R' : α → β → Prop} (h : Reordered R items items')
    (himp : ∀ item ∈ items, ∀ item', R item item' → R' item item') : Reordered R' items items' := by
  induction h with
  | nil => exact .nil
  | insert hhead _ ih =>
    rw [List.forall_mem_cons] at himp
    exact .insert (himp.1 _ hhead) (ih himp.2)

theorem exists_left (h : Reordered R items items') {item' : β} (hitem : item' ∈ items') :
    ∃ item ∈ items, R item item' := by
  induction h with
  | nil => cases hitem
  | insert hhead _ ih =>
    rcases List.mem_cons.1 (List.perm_middle.mem_iff.1 hitem) with rfl | hitem
    · exact ⟨_, List.mem_cons_self, hhead⟩
    · obtain ⟨item, hmem, hrel⟩ := ih hitem
      exact ⟨item, List.mem_cons_of_mem _ hmem, hrel⟩

theorem exists_right (h : Reordered R items items') {item : α} (hitem : item ∈ items) :
    ∃ item' ∈ items', R item item' := by
  induction h with
  | nil => cases hitem
  | insert hhead _ ih =>
    rcases List.mem_cons.1 hitem with rfl | hitem
    · exact ⟨_, List.mem_append_right _ List.mem_cons_self, hhead⟩
    · obtain ⟨item', hmem, hrel⟩ := ih hitem
      exact ⟨item', List.perm_middle.mem_iff.2 (List.mem_cons_of_mem _ hmem), hrel⟩

theorem append {others : List α} {others' : List β} (h : Reordered R items items')
    (hothers : Reordered R others others') : Reordered R (items ++ others) (items' ++ others') := by
  obtain ⟨moved, hperm, hrel⟩ := reordered_iff.1 h
  obtain ⟨moved', hperm', hrel'⟩ := reordered_iff.1 hothers
  exact reordered_iff.2 ⟨moved ++ moved', hperm.append hperm', List.rel_append hrel hrel'⟩

/-- What is picked from reordered lists is reordered. -/
theorem filterMap {pick : α → Option γ} {pick' : β → Option δ} (h : Reordered R items items')
    (hpick : ∀ item item', R item item' → Option.Rel S (pick item) (pick' item')) :
    Reordered S (items.filterMap pick) (items'.filterMap pick') := by
  induction h with
  | nil => exact .nil
  | @insert item item' items before after hhead _ ih =>
    rw [List.filterMap_append] at ih
    rw [List.filterMap_append]
    have hrel := hpick item item' hhead
    cases hitem : pick item with
    | none =>
      rw [hitem] at hrel
      cases hitem' : pick' item' with
      | none => rwa [List.filterMap_cons_none hitem, List.filterMap_cons_none hitem']
      | some _ => rw [hitem'] at hrel; cases hrel
    | some _ =>
      rw [hitem] at hrel
      cases hitem' : pick' item' with
      | none => rw [hitem'] at hrel; cases hrel
      | some _ =>
        rw [hitem'] at hrel
        rw [List.filterMap_cons_some hitem, List.filterMap_cons_some hitem']
        cases hrel with
        | some hrel => exact .insert hrel ih

theorem ofList (h : Reordered R items items') :
    Block.Reordered R (Block.ofList items) (Block.ofList items') := by
  cases h with
  | nil => exact .none
  | @insert item item' items before after hhead htail =>
    have hitems' : (before ++ item' :: after).isEmpty = false := by cases before <;> rfl
    rw [Block.ofList, Block.ofList, hitems']
    exact .some (.insert hhead htail)

end Reordered

end Lists

/-! ## Trees -/

namespace Yaml.Tree

/-- A tree with the entries of mappings in some order. Keys that are mappings may be reordered
too. -/
inductive Reorders : Tree → Tree → Prop
  | null : Reorders .null .null
  | bool (value : Bool) : Reorders (.bool value) (.bool value)
  | number (value : Number) : Reorders (.number value) (.number value)
  | string (value : String) : Reorders (.string value) (.string value)
  | sequence {items items' : List Tree} (h : List.Forall₂ Reorders items items') :
      Reorders (.sequence items) (.sequence items')
  | mapping {entries entries' : List (Tree × Tree)}
      (h : Reordered (Prod.RProd Reorders Reorders) entries entries') :
      Reorders (.mapping entries) (.mapping entries')
  | tagged {tag : String} {value value' : Tree} (h : Reorders value value') :
      Reorders (.tagged tag value) (.tagged tag value')

namespace Reorders

variable {first second : Tree}

/-- Tags can be taken off reordered trees. -/
theorem untagged (h : first.Reorders second) : first.untagged.Reorders second.untagged := by
  induction first using induction_on_parts generalizing second with
  | step first ih =>
    cases h with
    | tagged h =>
      unfold Tree.untagged
      exact ih _ List.mem_cons_self h
    | null => exact .null
    | bool value => exact .bool value
    | number value => exact .number value
    | string value => exact .string value
    | sequence h => exact .sequence h
    | mapping h => exact .mapping h

theorem asString?_eq (h : first.Reorders second) : second.asString? = first.asString? := by
  have := h.untagged
  unfold asString?
  generalize first.untagged = value, second.untagged = value' at this ⊢
  cases this <;> rfl

theorem asNumber?_eq (h : first.Reorders second) : second.asNumber? = first.asNumber? := by
  have := h.untagged
  unfold asNumber?
  generalize first.untagged = value, second.untagged = value' at this ⊢
  cases this <;> rfl

theorem isNull_eq (h : first.Reorders second) : second.isNull = first.isNull := by
  have := h.untagged
  unfold isNull
  generalize first.untagged = value, second.untagged = value' at this ⊢
  cases this <;> rfl

theorem kind_eq (h : first.Reorders second) : second.kind = first.kind := by cases h <;> rfl

theorem scalarText?_eq (h : first.Reorders second) : scalarText? second = scalarText? first := by
  cases h <;> rfl

/-- The target of a directive is a text, so it is the same in a reordered tree. -/
theorem includeTarget?_eq (h : first.Reorders second) :
    includeTarget? second = includeTarget? first := by
  cases h with
  | tagged h =>
    simp only [includeTarget?, h.asString?_eq]
  | _ => rfl

theorem isInclude_eq (h : first.Reorders second) : isInclude second = isInclude first := by
  unfold isInclude
  rw [h.includeTarget?_eq]

end Reorders

/-- What holds of the entries of each mapping in a tree, keys apart. -/
def EachMapping (P : Entries → Prop) (tree : Tree) : Prop :=
  ∀ position entries, tree.at? position = some (.mapping entries) → P entries

namespace EachMapping

variable {P : Entries → Prop} {tree : Tree}

theorem part {part : Tree} (h : tree.EachMapping P) (hpart : part ∈ tree.parts) :
    part.EachMapping P := by
  obtain ⟨step, hstep⟩ := List.getElem?_of_mem hpart
  intro position entries hentries
  exact h (step :: position) entries (Option.bind_eq_some_iff.2 ⟨part, hstep, hentries⟩)

theorem of_parts (hnil : P []) (h : tree.parts = []) : tree.EachMapping P := by
  intro position entries hentries
  cases position with
  | nil =>
    obtain rfl := Option.some.inj hentries
    rwa [List.map_eq_nil_iff.1 h]
  | cons step position => simp [at?, h] at hentries

end EachMapping

/-- A property of all mappings in a mapping is one of it and of those in its values. -/
theorem eachMapping_mapping {P : Entries → Prop} {entries : Entries} :
    (mapping entries).EachMapping P ↔ P entries ∧ ∀ entry ∈ entries, entry.2.EachMapping P := by
  constructor
  · intro h
    exact ⟨h [] entries rfl, fun entry hentry => h.part (List.mem_map_of_mem hentry)⟩
  · rintro ⟨hkeys, hvalues⟩ position inner hinner
    cases position with
    | nil =>
      obtain rfl := mapping.inj (Option.some.inj hinner)
      exact hkeys
    | cons step position =>
      obtain ⟨part, hstep, hinner⟩ := Option.bind_eq_some_iff.1 hinner
      obtain ⟨entry, hentry, rfl⟩ := List.mem_map.1 (List.mem_of_getElem? hstep)
      exact hvalues entry hentry position inner hinner

/-- No mapping in a tree, keys apart, has a key twice. -/
def DistinctKeys (tree : Tree) : Prop :=
  ∀ position entries, tree.at? position = some (.mapping entries) →
    (entries.map Prod.fst).Nodup

theorem DistinctKeys.part {tree part : Tree} (h : tree.DistinctKeys) (hpart : part ∈ tree.parts) :
    part.DistinctKeys := EachMapping.part h hpart

theorem DistinctKeys.of_parts {tree : Tree} (h : tree.parts = []) : tree.DistinctKeys :=
  EachMapping.of_parts .nil h

theorem distinctKeys_mapping {entries : Entries} :
    (mapping entries).DistinctKeys ↔
      (entries.map Prod.fst).Nodup ∧ ∀ entry ∈ entries, entry.2.DistinctKeys :=
  eachMapping_mapping

/-- A tree reorders one that has distinct keys and no include directives. -/
structure Rearranged (first second : Tree) : Prop where
  reorders : first.Reorders second
  free : IncludeFree first
  distinct : first.DistinctKeys

namespace Rearranged

variable {first second : Tree}

theorem isInclude_left (h : first.Rearranged second) : isInclude first = false := h.free.isInclude

theorem isInclude_right (h : first.Rearranged second) : isInclude second = false := by
  rw [h.reorders.isInclude_eq, h.isInclude_left]

theorem part {part part' : Tree} (h : first.Rearranged second) (hpart : part ∈ first.parts)
    (hreorders : part.Reorders part') : part.Rearranged part' :=
  ⟨hreorders, h.free.part hpart, h.distinct.part hpart⟩

theorem items {items items' : List Tree} (h : (sequence items).Rearranged (sequence items')) :
    List.Forall₂ Rearranged items items' := by
  have hparts : ∀ item ∈ items, ∀ item', item.Reorders item' → item.Rearranged item' :=
    fun _ hitem _ => h.part hitem
  cases h.reorders with
  | sequence hitems =>
    clear h
    induction hitems with
    | nil => exact .nil
    | cons hhead _ ih =>
      rw [List.forall_mem_cons] at hparts
      exact .cons (hparts.1 _ hhead) (ih hparts.2)

end Rearranged

end Yaml.Tree

/-! ## Fields -/

namespace Yaml.Entries

theorem mem_of_get? {entries : Entries} {key : String} {value : Tree}
    (h : entries.get? key = some value) : (.string key, value) ∈ entries := by
  obtain ⟨⟨found, value⟩, hfind, rfl⟩ := Option.map_eq_some_iff.1 h
  have hkey := List.find?_some hfind
  rw [decide_eq_true_eq] at hkey
  exact hkey ▸ List.mem_of_find?_eq_some hfind

theorem mem_of_field? {entries : Entries} {key : String} {value : Tree}
    (h : entries.field? key = some value) : (.string key, value) ∈ entries :=
  mem_of_get? (Option.filter_eq_some_iff.1 h).1

/-- The entries of a mapping reorder those of one that has distinct keys and no include
directives. -/
abbrev Rearranged (first second : Entries) : Prop :=
  (Tree.mapping first).Rearranged (.mapping second)

namespace Rearranged

variable {first second : Entries}

/-- The entries of a reordered mapping are the same entries in another order, each reordered. -/
theorem entries (h : Rearranged first second) :
    Reordered (fun entry entry' => entry.1.Reorders entry'.1 ∧ entry.2.Rearranged entry'.2)
      first second := by
  cases h.reorders with
  | mapping hreorders =>
    refine hreorders.imp fun entry hentry entry' hrel => ?_
    cases hrel with
    | intro hkey hvalue => exact ⟨hkey, h.part (List.mem_map_of_mem hentry) hvalue⟩

/-- A lookup finds the same entry in a reordered mapping, as no key occurs twice. -/
theorem get? (h : Rearranged first second) (key : String) :
    Option.Rel Tree.Rearranged (first.get? key) (second.get? key) := by
  have hdistinct := h.distinct [] first rfl
  have hleft : ∀ value, (.string key, value) ∈ first →
      ∃ value', (.string key, value') ∈ second ∧ value.Rearranged value' := by
    intro value hmem
    obtain ⟨⟨other, value'⟩, hmem', hkey, hvalue⟩ := h.entries.exists_right hmem
    cases hkey with
    | string => exact ⟨value', hmem', hvalue⟩
  have hright : ∀ value', (.string key, value') ∈ second →
      ∃ value, (.string key, value) ∈ first ∧ value.Rearranged value' := by
    intro value' hmem'
    obtain ⟨⟨other, value⟩, hmem, hkey, hvalue⟩ := h.entries.exists_left hmem'
    cases hkey with
    | string => exact ⟨value, hmem, hvalue⟩
  cases hfirst : first.get? key with
  | none =>
    cases hsecond : second.get? key with
    | none => exact .none
    | some value' =>
      obtain ⟨value, hmem, -⟩ := hright value' (mem_of_get? hsecond)
      simp [Entries.get?, List.find?_eq_none] at hfirst
      exact absurd rfl (hfirst _ _ hmem)
  | some value =>
    cases hsecond : second.get? key with
    | none =>
      obtain ⟨value', hmem, -⟩ := hleft value (mem_of_get? hfirst)
      simp [Entries.get?, List.find?_eq_none] at hsecond
      exact absurd rfl (hsecond _ _ hmem)
    | some value' =>
      obtain ⟨other, hmem, hrel⟩ := hright value' (mem_of_get? hsecond)
      have hsame := List.inj_on_of_nodup_map hdistinct (mem_of_get? hfirst) hmem rfl
      rw [(Prod.mk.inj hsame).2]
      exact .some hrel

/-- A field of a reordered mapping is the same field, reordered. -/
theorem field (h : Rearranged first second) (key : String) :
    Option.Rel Tree.Rearranged (first.field? key) (second.field? key) := by
  have hget := h.get? key
  unfold field?
  generalize first.get? key = value, second.get? key = value' at hget ⊢
  cases hget with
  | none => exact .none
  | some hrel =>
    rw [Option.filter_some, Option.filter_some, hrel.reorders.isNull_eq]
    split
    · exact .some hrel
    · exact .none

end Rearranged

end Yaml.Entries

namespace Yaml.Entries.Rearranged

variable {first second : Entries} {key : String}

theorem of {α : Type} (h : Rearranged first second) (expected : String) {value? : Tree → Option α}
    (hvalue : ∀ tree tree', tree.Reorders tree' → value? tree' = value? tree) :
    Field.of second key expected value? = Field.of first key expected value? := by
  have hfield := h.field key
  unfold Field.of
  generalize Entries.field? first key = value, Entries.field? second key = value' at hfield ⊢
  cases hfield with
  | none => rfl
  | some hrel =>
    unfold Error.unexpected
    simp only [hvalue _ _ hrel.reorders, hrel.reorders.kind_eq]

theorem string (h : Rearranged first second) : Field.string second key = Field.string first key :=
  h.of _ fun _ _ => Tree.Reorders.scalarText?_eq

theorem boolean (h : Rearranged first second) :
    Field.boolean second key = Field.boolean first key :=
  h.of _ fun _ _ hreorders => by cases hreorders <;> rfl

theorem natural (h : Rearranged first second) :
    Field.natural second key = Field.natural first key :=
  h.of _ fun _ _ hreorders => by rw [hreorders.asNumber?_eq]

theorem number (h : Rearranged first second) : Field.number second key = Field.number first key :=
  h.of _ fun _ _ hreorders => by rw [hreorders.asNumber?_eq]

theorem strings (h : Rearranged first second) :
    Field.strings second key = Field.strings first key := by
  have hfield := h.field key
  unfold Field.strings
  generalize Entries.field? first key = value, Entries.field? second key = value' at hfield ⊢
  cases hfield with
  | none => rfl
  | @some value value' hrel =>
    unfold Error.unexpected
    cases hrel.reorders with
    | sequence hitems =>
      dsimp only
      refine congrArg _ ?_
      clear hrel
      induction hitems with
      | nil => rfl
      | cons hhead _ ih => simp only [List.mapM_cons, ih, hhead.scalarText?_eq, hhead.kind_eq]
    | _ => rfl

theorem text (h : Rearranged first second) (source : Source) :
    Field.text second key source = Field.text first key source := by
  have hfield := h.field key
  unfold Field.text
  rw [h.string]
  generalize Entries.field? first key = value, Entries.field? second key = value' at hfield ⊢
  cases hfield with
  | none => rfl
  | some hrel => simp only [hrel.isInclude_left, hrel.isInclude_right, Bool.false_eq_true, if_false]

end Yaml.Entries.Rearranged

/-- Reordered trees declare the same type. -/
theorem DataType.ofTree?_eq_of_rearranged {key : String} {first second : Tree}
    (h : first.Rearranged second) : ofTree? (some key) second = ofTree? (some key) first := by
  induction first using Tree.induction_on_parts generalizing second with
  | step first ih =>
    cases h.reorders with
    | @mapping entries entries' =>
      have hget := Entries.Rearranged.get? h key
      rw [ofTree?_mapping, ofTree?_mapping]
      cases hvalue : Entries.get? entries key with
      | none =>
        rw [hvalue] at hget
        cases hvalue' : Entries.get? entries' key with
        | none => rfl
        | some _ => rw [hvalue'] at hget; cases hget
      | some value =>
        have hpart : value ∈ (Tree.mapping entries).parts :=
          List.mem_map_of_mem (Entries.mem_of_get? hvalue)
        rw [hvalue] at hget
        cases hvalue' : Entries.get? entries' key with
        | none => rw [hvalue'] at hget; cases hget
        | some value' =>
          rw [hvalue'] at hget
          cases hget with
          | some hrel => exact ih value hpart hrel
    | _ => simp only [ofTree?, Tree.kind]

end RamlDoc
