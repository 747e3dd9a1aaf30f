import RamlDoc.Proofs.FirstDirective
import RamlDoc.Proofs.Misfits
import RamlDoc.Read.Library
import RamlDoc.Read.Resource

/-!
# Agreement of readings

A tree can be read in one source and in another. An `Agreement` says which sources are compared, on
which trees, and how the two readings are related. The relation is kept by the operations that
readers are made of and by following a directive, so every reader keeps it, which is shown once by
following the text of the readers. A result that does not depend on the source is related to itself
unless it is the error that includes are unavailable (`Plain`).
-/

namespace RamlDoc

open Yaml

/-- A result is not the error that includes are unavailable. -/
def Plain {α : Type} (result : Except Error α) : Prop :=
  ∀ target, result ≠ .error (.includesUnavailable target)

namespace Plain

variable {α β : Type}

theorem ok (value : α) : Plain (.ok value) := fun _ h => by cases h

theorem error {error : Error} (h : ∀ target, error ≠ .includesUnavailable target) :
    Plain (.error error : Except Error α) := by
  intro target heq
  exact h target (Except.error.inj heq)

theorem bind {first : Except Error α} {next : α → Except Error β} (hfirst : Plain first)
    (hnext : ∀ value, Plain (next value)) : Plain (first >>= next) := by
  cases first with
  | error error => exact Plain.error fun target heq => hfirst target (congrArg _ heq)
  | ok value => exact hnext value

end Plain

theorem FailsOnly.plain {α : Type} {result : Except Error α} (h : Misfits result) :
    Plain result := by
  rintro target rfl
  exact absurd (h _ rfl) Bool.false_ne_true

/-- A way to compare the readings of trees in two sources. -/
structure Agreement where
  /-- The sources that are compared, with the trees that are read in them. -/
  visits : Source → Source → Tree → Prop
  /-- How the readings of a tree in the two sources are related. -/
  readings : {α : Type} → Reading α → Reading α → Prop
  part : ∀ {source other : Source} {tree part : Tree}, visits source other tree →
    part ∈ tree.parts → visits source other part
  plain : ∀ {α : Type} {result : Except Error α}, Plain result →
    readings (liftM result) (liftM result)
  bind : ∀ {α β : Type} {first first' : Reading α} {next next' : α → Reading β},
    readings first first' → (∀ value, readings (next value) (next' value)) →
      readings (first >>= next) (first' >>= next')
  named : ∀ {α : Type} {reading reading' : Reading α} (kind : NodeKind) (name : String),
    readings reading reading' →
      readings (reading.mapError (.failed kind name)) (reading'.mapError (.failed kind name))
  skipped : ∀ key : Tree, readings (Reading.note (.statusKeySkipped key))
    (Reading.note (.statusKeySkipped key))
  /-- A directive leads to the same text in both sources, or fails alike. -/
  text : ∀ {source other : Source} {tree : Tree}, visits source other tree →
    isInclude tree → readings (source.readText tree) (other.readText tree)
  /-- A directive leads to the same tree in sources that are compared again, or fails alike. -/
  included : ∀ {α : Type} {source other : Source} {tree : Tree} {fragment : Option FragmentKind}
    {read : Included source → Reading α} {read' : Included other → Reading α},
    visits source other tree → isInclude tree →
      (∀ inner inner' content nested nested', visits inner inner' content →
        readings (read ⟨inner, content, nested⟩) (read' ⟨inner', content, nested'⟩)) →
      readings (source.resolve tree fragment >>= read) (other.resolve tree fragment >>= read')

namespace Agreement

variable {α β : Type} {agreement : Agreement} {source other : Source}

theorem pure (agreement : Agreement) (value : α) :
    agreement.readings (Pure.pure value) (Pure.pure value) :=
  agreement.plain (.ok value)

theorem fail (agreement : Agreement) {error : Error}
    (h : ∀ target, error ≠ .includesUnavailable target) :
    agreement.readings (Reading.fail error : Reading α) (Reading.fail error) :=
  agreement.plain (Plain.error h)

theorem bindPlain (agreement : Agreement) {result : Except Error α} (h : Plain result)
    {next next' : α → Reading β} (hnext : ∀ value, agreement.readings (next value) (next' value)) :
    agreement.readings (liftM result >>= next) (liftM result >>= next') :=
  agreement.bind (agreement.plain h) hnext

theorem map {reading reading' : Reading α} (f : α → β) (h : agreement.readings reading reading') :
    agreement.readings (f <$> reading) (f <$> reading') :=
  agreement.bind h fun value => agreement.pure (f value)

theorem mapM {read read' : α → Reading β} {items : List α}
    (h : ∀ item ∈ items, agreement.readings (read item) (read' item)) :
    agreement.readings (items.mapM read) (items.mapM read') := by
  induction items with
  | nil => exact agreement.pure []
  | cons item items ih =>
    rw [List.mapM_cons, List.mapM_cons]
    refine agreement.bind (h item List.mem_cons_self) fun value => ?_
    have hrest := ih fun item hitem => h item (List.mem_cons_of_mem _ hitem)
    exact agreement.bind hrest fun values => agreement.pure _

/-- The values of some entries are among the trees that are read. -/
def Covers (agreement : Agreement) (source other : Source) (entries : Entries) : Prop :=
  ∀ entry ∈ entries, agreement.visits source other entry.2

theorem covers_mapping {entries : Entries} (h : agreement.visits source other (.mapping entries)) :
    agreement.Covers source other entries :=
  fun _ hentry => agreement.part h (List.mem_map_of_mem hentry)

namespace Covers

theorem nil : agreement.Covers source other [] := fun _ h => by cases h

theorem head {entry : Tree × Tree} {entries : Entries}
    (h : agreement.Covers source other (entry :: entries)) :
    agreement.visits source other entry.2 := h entry List.mem_cons_self

theorem tail {entry : Tree × Tree} {entries : Entries}
    (h : agreement.Covers source other (entry :: entries)) :
    agreement.Covers source other entries :=
  fun entry hentry => h entry (List.mem_cons_of_mem _ hentry)

theorem field {entries : Entries} {key : String} {value : Tree}
    (h : agreement.Covers source other entries) (hvalue : Entries.field? entries key = some value) :
    agreement.visits source other value := by
  obtain ⟨entry, hentry, rfl⟩ := Option.map_eq_some_iff.1 (Option.filter_eq_some_iff.1 hvalue).1
  exact h entry (List.mem_of_find?_eq_some hentry)

end Covers

/-! ## Slots, blocks and fields -/

/-- Readers of what stands in a slot agree if they do on equal contents in sources that are
compared. -/
theorem openSlot {tree : Tree} (ht : agreement.visits source other tree)
    (fragment : Option FragmentKind)
    {read : Slot source tree → Reading α} {read' : Slot other tree → Reading α}
    (h : ∀ origin origin' content within within', agreement.visits origin origin' content →
        agreement.readings (read ⟨origin, content, within⟩) (read' ⟨origin', content, within'⟩)) :
    agreement.readings (source.openSlot fragment tree >>= read)
      (other.openSlot fragment tree >>= read') := by
  unfold Source.openSlot
  split
  next hinclude =>
    simp only [map_eq_pure_bind, bind_assoc, pure_bind]
    exact agreement.included ht hinclude fun _ _ _ _ _ ht => h _ _ _ _ _ ht
  next =>
    split
    next => exact agreement.fail fun _ => Error.noConfusion
    next =>
      simp only [pure_bind]
      exact h _ _ _ _ _ ht

/-- The same for what stands behind all directives in the place of a block. -/
theorem openBlock {source other : Source} {tree : Tree} (ht : agreement.visits source other tree)
    {read : Slot source tree → Reading α} {read' : Slot other tree → Reading α}
    (h : ∀ origin origin' content within within', agreement.visits origin origin' content →
        agreement.readings (read ⟨origin, content, within⟩) (read' ⟨origin', content, within'⟩)) :
    agreement.readings (source.openBlock tree >>= read) (other.openBlock tree >>= read') := by
  rw [Source.openBlock, Source.openBlock]
  split
  next hinclude =>
    simp only [bind_assoc, pure_bind]
    refine agreement.included ht hinclude fun inner inner' content nested nested' ht => ?_
    exact openBlock ht fun _ _ _ _ _ ht => h _ _ _ _ _ ht
  next =>
    simp only [pure_bind]
    exact h _ _ _ _ _ ht
termination_by source.remaining

end Agreement

section Readers

variable {α : Type} {agreement : Agreement} {source other : Source}

theorem agree_readEntries (construct : String) {read read' : String → Tree → Reading α}
    {entries : Entries} (hcovers : agreement.Covers source other entries)
    (h : ∀ name value, agreement.visits source other value →
      agreement.readings (read name value) (read' name value)) :
    agreement.readings (readEntries construct read entries)
      (readEntries construct read' entries) := by
  induction entries with
  | nil => exact agreement.pure []
  | cons entry entries ih =>
    refine agreement.bindPlain (misfits_keyText construct entry.1).plain fun name => ?_
    refine agreement.bind (h name entry.2 hcovers.head) fun item => ?_
    exact agreement.bind (ih hcovers.tail) fun items => agreement.pure _

/-- Readers of a block under a field agree if the readers of its declarations do. -/
theorem agree_readBlock (key construct field : String)
    {read : Source → String → Tree → Reading α} {entries : Entries}
    (hcovers : agreement.Covers source other entries)
    (h : ∀ source other name value, agreement.visits source other value →
      agreement.readings (read source name value) (read other name value)) :
    agreement.readings (readBlock source key construct read (Entries.field? entries field))
      (readBlock other key construct read (Entries.field? entries field)) := by
  cases hfield : Entries.field? entries field with
  | none => exact agreement.pure none
  | some tree =>
    refine Agreement.openBlock (hcovers.field hfield) fun _ _ content _ _ ht => ?_
    cases content with
    | mapping entries =>
      exact Agreement.map _ (agree_readEntries construct (Agreement.covers_mapping ht)
        fun name value hvalue => h _ _ name value hvalue)
    | null => exact agreement.pure none
    | _ => exact agreement.fail fun _ => Error.noConfusion

namespace Field

theorem agree_text {entries : Entries}
    (hcovers : agreement.Covers source other entries) (key : String) :
    agreement.readings (text entries key source) (text entries key other) := by
  unfold text
  cases hfield : Entries.field? entries key with
  | none => exact agreement.pure none
  | some tree =>
    dsimp only
    split
    next hinclude =>
      exact Agreement.map _ (agreement.text (hcovers.field hfield) hinclude)
    next => exact agreement.plain (misfits_of entries key _ _).plain

end Field

end Readers

end RamlDoc
