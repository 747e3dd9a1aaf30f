import RamlDoc.Proofs.EntryLoops
import RamlDoc.Proofs.Reorderings

/-!
# Results that carry over

A result carries over to another if, whenever it is there, so is the other, and they are related
(`Carries`). This goes through all ways in which readers are put together. A loop over entries
carries over to reordered entries, and its items are reordered (`Carries.collect`).
-/

namespace RamlDoc

open Yaml

/-- If the first result is there, so is the second, and they are related. -/
def Carries {α β : Type} (R : α → β → Prop) (first : Except Error α) (second : Except Error β) :
    Prop :=
  ∀ value, first = .ok value → ∃ value', second = .ok value' ∧ R value value'

namespace Carries

variable {α β γ δ : Type} {R : α → β → Prop} {S : γ → δ → Prop}

theorem ok {value : α} {value' : β} (h : R value value') : Carries R (.ok value) (.ok value') := by
  rintro _ ⟨⟩
  exact ⟨value', rfl, h⟩

theorem error {error : Error} {second : Except Error β} : Carries R (.error error) second := nofun

theorem andThen {first : Except Error α} {first' : Except Error β} {next : α → Except Error γ}
    {next' : β → Except Error δ} (hfirst : Carries R first first')
    (hnext : ∀ value value', R value value' → Carries S (next value) (next' value')) :
    Carries S (first >>= next) (first' >>= next') := by
  cases first with
  | error => exact error
  | ok value =>
    obtain ⟨value', rfl, hrel⟩ := hfirst value rfl
    exact hnext value value' hrel

theorem map {first : Except Error α} {first' : Except Error β} {f : α → γ} {f' : β → δ}
    (h : Carries R first first') (hmap : ∀ value value', R value value' → S (f value) (f' value')) :
    Carries S (f <$> first) (f' <$> first') := by
  cases first with
  | error => exact error
  | ok value =>
    obtain ⟨value', rfl, hrel⟩ := h value rfl
    exact ok (hmap value value' hrel)

theorem mapError {first : Except Error α} {first' : Except Error β} (h : Carries R first first')
    (change change' : Error → Error) :
    Carries R (first.mapError change) (first'.mapError change') := by
  cases first with
  | error => exact error
  | ok value =>
    obtain ⟨value', rfl, hrel⟩ := h value rfl
    exact ok hrel

theorem mapM {items : List γ} {items' : List δ} {read : γ → Except Error α}
    {read' : δ → Except Error β} (hitems : List.Forall₂ S items items')
    (hread : ∀ item item', S item item' → Carries R (read item) (read' item')) :
    Carries (List.Forall₂ R) (items.mapM read) (items'.mapM read') := by
  induction hitems with
  | nil => exact ok .nil
  | cons hhead _ ih =>
    rw [List.mapM_cons, List.mapM_cons]
    refine (hread _ _ hhead).andThen fun _ _ hvalue => ?_
    exact ih.andThen fun _ _ hvalues => ok (.cons hvalue hvalues)

/-- The loop over reordered entries succeeds too, with reordered items. -/
theorem collect {outcome? : Tree × Tree → Option (Except Error α)}
    {outcome?' : Tree × Tree → Option (Except Error β)} {entries entries' : Entries}
    {E : Tree × Tree → Tree × Tree → Prop} (hentries : Reordered E entries entries')
    (houtcome : ∀ entry entry', E entry entry' →
      Option.Rel (Carries R) (outcome? entry) (outcome?' entry')) :
    Carries (Reordered R) (RamlDoc.collect outcome? entries)
      (RamlDoc.collect outcome?' entries') := by
  intro items hitems
  have hresults := hentries.filterMap houtcome
  rw [collect_eq_ok_iff.1 hitems] at hresults
  obtain ⟨moved, hperm, hrel⟩ := reordered_iff.1 hresults
  -- every result that is moved is there, so every result on the other side is
  have hmoved : ∀ result ∈ moved, ∃ item, result = .ok item := by
    intro result hresult
    obtain ⟨item, -, rfl⟩ := List.mem_map.1 (hperm.mem_iff.2 hresult)
    exact ⟨item, rfl⟩
  have hitems' : ∃ items', entries'.filterMap outcome?' = items'.map .ok ∧
      List.Forall₂ R (moved.filterMap Except.toOption) items' := by
    generalize entries'.filterMap outcome?' = results at hrel
    clear hperm hresults
    induction hrel with
    | nil => exact ⟨[], rfl, .nil⟩
    | cons hhead _ ih =>
      rw [List.forall_mem_cons] at hmoved
      obtain ⟨⟨item, rfl⟩, hmoved⟩ := hmoved
      obtain ⟨item', rfl, hitem⟩ := hhead item rfl
      obtain ⟨items', rfl, hitems'⟩ := ih hmoved
      exact ⟨item' :: items', rfl, .cons hitem hitems'⟩
  obtain ⟨items', hresults', hrelated⟩ := hitems'
  refine ⟨items', collect_eq_ok_iff.2 hresults', reordered_iff.2 ⟨_, ?_, hrelated⟩⟩
  have hpicked := hperm.filterMap Except.toOption
  rw [List.filterMap_map] at hpicked
  simpa [Function.comp_def, Except.toOption] using hpicked

/-! ## Readings -/

theorem bind {first : Reading α} {first' : Reading β} {next : α → Reading γ}
    {next' : β → Reading δ} (hfirst : Carries R first.result first'.result)
    (hnext : ∀ value value', R value value' →
      Carries S (next value).result (next' value').result) :
    Carries S (first >>= next).result (first' >>= next').result := by
  rw [Reading.result_bind, Reading.result_bind]
  exact hfirst.andThen hnext

/-- After the same reading, what follows carries over whatever it gave. -/
theorem bindSame {first : Reading α} {next : α → Reading γ} {next' : α → Reading δ}
    (hnext : ∀ value, Carries S (next value).result (next' value).result) :
    Carries S (first >>= next).result (first >>= next').result := by
  refine bind (R := Eq) (fun value hvalue => ⟨value, hvalue, rfl⟩) ?_
  rintro value _ rfl
  exact hnext value

theorem mapReading {first : Reading α} {first' : Reading β} {f : α → γ} {f' : β → δ}
    (h : Carries R first.result first'.result)
    (hmap : ∀ value value', R value value' → S (f value) (f' value')) :
    Carries S (f <$> first).result (f' <$> first').result := by
  rw [Reading.result_map, Reading.result_map]
  exact h.map hmap

variable {source : Source} {tree tree' : Tree}

/-- A node without directives is read in its place. -/
theorem openSlot {next : Slot source tree → Reading γ} {next' : Slot source tree' → Reading δ}
    (h : tree.Rearranged tree')
    (hnext : Carries S (next (.inPlace source tree)).result
      (next' (.inPlace source tree')).result) :
    Carries S (source.openSlot none tree >>= next).result
      (source.openSlot none tree' >>= next').result := by
  rw [Source.openSlot_of_inline h.isInclude_left, Source.openSlot_of_inline h.isInclude_right]
  exact hnext

theorem openFragment {fragment : FragmentKind} {next : Slot source tree → Reading γ}
    {next' : Slot source tree' → Reading δ} (h : tree.Rearranged tree')
    (hnext : Carries S (next (.inPlace source tree)).result
      (next' (.inPlace source tree')).result) :
    Carries S (source.openSlot (some fragment) tree >>= next).result
      (source.openSlot (some fragment) tree' >>= next').result := by
  unfold Source.openSlot
  rw [h.isInclude_left, h.isInclude_right]
  cases h.reorders with
  | string => exact error
  | _ => exact hnext

theorem openBlock {next : Slot source tree → Reading γ} {next' : Slot source tree' → Reading δ}
    (h : tree.Rearranged tree')
    (hnext : Carries S (next (.inPlace source tree)).result
      (next' (.inPlace source tree')).result) :
    Carries S (source.openBlock tree >>= next).result
      (source.openBlock tree' >>= next').result := by
  rw [Source.openBlock_of_inline h.isInclude_left, Source.openBlock_of_inline h.isInclude_right]
  exact hnext

end Carries

/-! ## Blocks -/

theorem Yaml.Entries.Rearranged.nil : Entries.Rearranged [] [] where
  reorders := .mapping .nil
  free := by decide
  distinct := .of_parts rfl

section Blocks

variable {α : Type} {R : α → α → Prop} {source : Source}

theorem keyText_eq_of_reorders {construct : String} {key key' : Tree} (h : key.Reorders key') :
    keyText construct key' = keyText construct key := by
  unfold keyText
  rw [h.asString?_eq]

theorem carries_entriesOf (key : String) {first second : Tree} (h : first.Rearranged second) :
    Carries Entries.Rearranged (entriesOf key first) (entriesOf key second) := by
  cases h.reorders with
  | mapping => exact .ok h
  | null => exact .ok .nil
  | _ => exact .error

theorem carries_readEntries {construct : String} {read : String → Tree → Reading α}
    (hread : ∀ name tree tree', tree.Rearranged tree' →
      Carries R (read name tree).result (read name tree').result)
    {first second : Entries} (h : Entries.Rearranged first second) :
    Carries (Reordered R) (readEntries construct read first).result
      (readEntries construct read second).result := by
  rw [result_readEntries, result_readEntries]
  refine .collect h.entries fun entry entry' hentry => .some ?_
  unfold entryOutcome
  rw [keyText_eq_of_reorders hentry.1]
  cases keyText construct entry.1 with
  | error => exact .error
  | ok name => exact hread name _ _ hentry.2

theorem carries_readBlock {key construct : String} {read : Source → String → Tree → Reading α}
    (hread : ∀ name tree tree', tree.Rearranged tree' →
      Carries R (read source name tree).result (read source name tree').result)
    {first second : Option Tree} (h : Option.Rel Tree.Rearranged first second) :
    Carries (Block.Reordered R) (readBlock source key construct read first).result
      (readBlock source key construct read second).result := by
  cases h with
  | none => exact .ok .none
  | some h =>
    refine .openBlock h ?_
    cases h.reorders with
    | mapping =>
      exact .mapReading (carries_readEntries hread h) fun _ _ hitems => hitems.ofList
    | null => exact .ok .none
    | _ => exact .error

end Blocks

end RamlDoc
