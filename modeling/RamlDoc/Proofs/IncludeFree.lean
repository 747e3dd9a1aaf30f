import RamlDoc.Proofs.DocumentsAgree

/-!
# Trees without include directives

A tree without include directives (`IncludeFree`) holds only what is written in it, apart from
libraries that are used by their path alone. Two readings of it that involve no library have equal
results, in whatever sources (`Agreement.alike`), and so have those of libraries that are written
out (`Library.alike_readContent`). Where one of the sources has no file, the results are equal and
not the error that includes are unavailable, or the reading without a file fails with that error
inside a named declaration (`Document.agrees_ofTree`).
-/

namespace RamlDoc

open Yaml

/-- A tree holds no include directive. -/
def IncludeFree (tree : Tree) : Prop := firstInclude? tree = none

instance (tree : Tree) : Decidable (IncludeFree tree) :=
  inferInstanceAs (Decidable (firstInclude? tree = none))

namespace IncludeFree

theorem isInclude {tree : Tree} (h : IncludeFree tree) : isInclude tree = false := by
  unfold IncludeFree at h
  rw [firstInclude?_eq, Option.or_eq_none_iff] at h
  rw [RamlDoc.isInclude, h.1, Option.isSome_none]

theorem part {tree part : Tree} (h : IncludeFree tree) (hpart : part ∈ tree.parts) :
    IncludeFree part := by
  unfold IncludeFree at h
  rw [firstInclude?_eq, Option.or_eq_none_iff, List.findSome?_eq_none_iff] at h
  exact h.2 part hpart

end IncludeFree

/-! ## Any two sources -/

/-- On trees without directives, readings that involve no library have equal results. -/
def Agreement.alike : Agreement where
  visits _ _ := IncludeFree
  readings reading reading' := reading.result = reading'.result
  part := IncludeFree.part
  plain _ := rfl
  bind hfirst hnext := by
    simp only [Reading.result_bind, hfirst]
    exact congrArg _ (funext hnext)
  named kind name h := by simp only [Reading.result_mapError, h]
  skipped _ := rfl
  text ht hinclude := by simp [ht.isInclude] at hinclude
  included ht hinclude := by simp [ht.isInclude] at hinclude

/-! ## Libraries that are written out -/

namespace Library

/-- In a block, and in the blocks of the libraries in it, no library is used by its path alone. -/
inductive WrittenOut : Tree → Prop
  | block {tree : Tree}
    (hpath : ∀ entries, tree = .mapping entries → ∀ entry ∈ entries, pathOf? entry.2 = none)
    (huses : ∀ entries, tree = .mapping entries → ∀ entry ∈ entries, ∀ inner used,
      entry.2 = .mapping inner → Entries.field? inner "uses" = some used → WrittenOut used) :
    WrittenOut tree

variable {source other : Source} {tree : Tree}

theorem alike_readUses {entries : Entries}
    (hcovers : Agreement.alike.Covers source other entries)
    (hused : ∀ used, Entries.field? entries "uses" = some used →
      (readContent source used).result = (readContent other used).result) :
    (readUses source entries).result = (readUses other entries).result := by
  rw [readUses, readUses]
  split
  · rfl
  · next used hfield =>
    have hinline := (hcovers.field hfield).isInclude
    rw [Source.openBlock_of_inline hinline, Source.openBlock_of_inline hinline]
    exact hused used hfield

/-- A library that is written in place is read alike in all sources if those it uses are. -/
theorem alike_read (hfree : IncludeFree tree) (hpath : pathOf? tree = none)
    (hused : ∀ entries used, tree = .mapping entries → Entries.field? entries "uses" = some used →
      (readContent source used).result = (readContent other used).result) (identifier : String) :
    (read source identifier tree).result = (read other identifier tree).result := by
  rw [read, read]
  split
  · next htarget => rw [hpath] at htarget; cases htarget
  · cases tree with
    | mapping entries =>
      have hcovers : Agreement.alike.Covers source other entries := Agreement.covers_mapping hfree
      rw [readInPlace, readInPlace]
      exact agree_ofEntries hcovers identifier (alike_readUses hcovers (hused entries · rfl))
    | null =>
      rw [readInPlace, readInPlace]
      have hcovers : Agreement.alike.Covers source other [] := .nil
      exact agree_ofEntries hcovers identifier rfl
    | _ =>
      unfold readInPlace
      rfl

theorem alike_readEntries {entries : Entries}
    (h : ∀ entry ∈ entries, ∀ identifier,
      (read source identifier entry.2).result = (read other identifier entry.2).result) :
    (readEntries source entries).result = (readEntries other entries).result := by
  induction entries with
  | nil => rw [readEntries, readEntries]
  | cons entry entries ih =>
    have hentries := ih fun inner hinner => h inner (List.mem_cons_of_mem _ hinner)
    rw [readEntries, readEntries]
    refine Agreement.alike.bindPlain (misfits_keyText _ _).plain fun name => ?_
    refine Agreement.alike.bind (Agreement.alike.named _ _ (h entry List.mem_cons_self name)) ?_
    exact fun _ => Agreement.alike.bind hentries fun _ => rfl

/-- Libraries that are written out are read alike in all sources. -/
theorem alike_readContent (h : WrittenOut tree) (hfree : IncludeFree tree) :
    (readContent source tree).result = (readContent other tree).result := by
  induction h with
  | @block tree hpath huses ih =>
    cases tree with
    | mapping entries =>
      rw [readContent, readContent]
      refine Agreement.alike.map _ (alike_readEntries fun entry hentry => ?_)
      have hlibrary : IncludeFree entry.2 := hfree.part (List.mem_map_of_mem hentry)
      refine alike_read hlibrary (hpath entries rfl entry hentry) fun inner used hinner hfield => ?_
      have hcovers : Agreement.alike.Covers source other inner :=
        Agreement.covers_mapping (hinner ▸ hlibrary)
      exact ih entries rfl entry hentry inner used hinner hfield (hcovers.field hfield)
    | null => rw [readContent, readContent]
    | _ =>
      unfold readContent
      rfl

end Library

/-! ## A source without a file -/

/-- The results of reading in a source without a file and in any source. -/
inductive Agrees {α : Type} : Except Error α → Except Error α → Prop
  | same {result : Except Error α} (h : Plain result) : Agrees result result
  | barred {kind : NodeKind} {name : String} {source : Error} {target : String}
    {other : Except Error α} (h : source.rootCause = .includesUnavailable target) :
    Agrees (.error (.failed kind name source)) other

namespace Agrees

variable {α β : Type}

theorem andThen {first first' : Except Error α} {next next' : α → Except Error β}
    (hfirst : Agrees first first') (hnext : ∀ value, Agrees (next value) (next' value)) :
    Agrees (first >>= next) (first' >>= next') := by
  cases hfirst with
  | same h =>
    cases first with
    | error error => exact .same (Plain.error fun target heq => h target (congrArg _ heq))
    | ok value => exact hnext value
  | barred h => exact .barred h

/-- Telling an error with the name of the declaration it arises in keeps the agreement. -/
theorem named {result result' : Except Error α} (kind : NodeKind) (name : String)
    (h : Agrees result result') :
    Agrees (result.mapError (.failed kind name)) (result'.mapError (.failed kind name)) := by
  cases h with
  | same =>
    refine .same ?_
    cases result with
    | error error => exact Plain.error fun _ => Error.noConfusion
    | ok value => exact .ok value
  | barred h => exact .barred h

theorem plain {result result' : Except Error α} (h : Agrees result result') : Plain result := by
  cases h with
  | same h => exact h
  | barred => exact Plain.error fun _ => Error.noConfusion

theorem eq_of_rootCause {result result' : Except Error α} (h : Agrees result result')
    (hroot : ∀ error target, result = .error error →
      error.rootCause ≠ .includesUnavailable target) : result' = result := by
  cases h with
  | same => rfl
  | barred h => exact absurd h (hroot (.failed _ _ _) _ rfl)

end Agrees

/-- Without a file no target leads anywhere. -/
theorem Source.result_resolveTarget_alone {alone : Source} (hfile : alone.context.file = none)
    (target : String) (fragment : Option FragmentKind) :
    (alone.resolveTarget target fragment).result = .error (.includesUnavailable target) := by
  unfold resolveTarget FileContext.resolvePath
  rw [Reading.result_bind, hfile]
  rfl

/-- The readings of a tree without directives in a source without a file and in any source. -/
def LibraryAgreement.withoutFile : LibraryAgreement where
  visits alone _ tree := alone.context.file = none ∧ IncludeFree tree
  readings reading reading' := Agrees reading.result reading'.result
  part h hpart := ⟨h.1, h.2.part hpart⟩
  plain h := .same h
  bind hfirst hnext := by
    rw [Reading.result_bind, Reading.result_bind]
    exact hfirst.andThen hnext
  named kind name h := h.named kind name
  skipped _ := .same (.ok ())
  text h hinclude := by simp [h.2.isInclude] at hinclude
  included h hinclude := by simp [h.2.isInclude] at hinclude
  library := by
    -- the one error of a source without a file is wrapped with the name of the library
    intro _ source other tree target name read read' ⟨hfile, _⟩ _ _
    rw [Reading.result_mapError, Reading.result_bind, Source.result_resolveTarget_alone hfile]
    exact .barred rfl

/-- The readers of documents agree on a tree without directives. -/
theorem Document.agrees_ofTree {alone other : Source} (hfile : alone.context.file = none)
    {tree : Tree} (hfree : IncludeFree tree) :
    Agrees (ofTree alone tree).result (ofTree other tree).result :=
  agree_ofTree .withoutFile ⟨hfile, hfree⟩

end RamlDoc
