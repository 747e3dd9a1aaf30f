import RamlDoc.Read.Field

/-!
# Slots and blocks

A node may be written in its place or included from a file. A slot is what stands in such a place
once a directive there has been followed. A block of declarations may be included too, also through
several files. Either way, what is read next lies in the same source and is no larger, or it lies in
a source where fewer includes can be nested: the facts on which readers terminate.
-/

namespace RamlDoc

open Yaml

/-- A tree to read in place of another: the same or a part of it, or a tree from an included
file. -/
structure Slot (source : Source) (tree : Tree) where
  origin : Source
  content : Tree
  within : origin.remaining < source.remaining ∨
    (origin.remaining = source.remaining ∧ sizeOf content ≤ sizeOf tree)

namespace Slot

variable {source : Source} {tree : Tree}

/-- The slot of a node that is written in its place. -/
def inPlace (source : Source) (tree : Tree) : Slot source tree := ⟨source, tree, .inr ⟨rfl, by simp⟩⟩

/-- The slot of a node that is included. -/
def ofIncluded (included : Included source) : Slot source tree :=
  ⟨included.source, included.tree, .inl included.nested⟩

/-- A slot found in an included file. -/
def inIncluded (included : Included source) (slot : Slot included.source included.tree) :
    Slot source tree :=
  ⟨slot.origin, slot.content, .inl <| by
    have := included.nested
    rcases slot.within with h | h <;> omega⟩

end Slot

namespace Source

/-- What stands in the place of a node. Where a kind of fragment is wanted, a text must be a
directive. -/
def openSlot (source : Source) (fragment : Option FragmentKind) (tree : Tree) :
    Reading (Slot source tree) :=
  if isInclude tree then Slot.ofIncluded <$> source.resolve tree fragment
  else
    match fragment, tree with
    | some _, .string text => Reading.fail (.notAnInclude text)
    | _, tree => pure (.inPlace source tree)

/-- What stands in the place of a block, behind all directives. -/
def openBlock (source : Source) (tree : Tree) : Reading (Slot source tree) :=
  if isInclude tree then do
    let included ← source.resolve tree none
    return .inIncluded included (← openBlock included.source included.tree)
  else pure (.inPlace source tree)
termination_by source.remaining
decreasing_by exact included.nested

theorem openSlot_of_inline {source : Source} {tree : Tree} (h : isInclude tree = false) :
    source.openSlot none tree = pure (.inPlace source tree) := by
  unfold openSlot
  rw [h]
  rfl

theorem openBlock_of_inline {source : Source} {tree : Tree} (h : isInclude tree = false) :
    source.openBlock tree = pure (.inPlace source tree) := by
  rw [openBlock, h]
  rfl

end Source

/-- Reads each entry of a block of declarations. -/
def readEntries {α : Type} (construct : String) (read : String → Tree → Reading α) :
    Entries → Reading (List α)
  | [] => pure []
  | (key, value) :: entries => do
    let name ← keyText construct key
    let item ← read name value
    return item :: (← readEntries construct read entries)

/-- Reads a block of declarations under a key. -/
def readBlock {α : Type} (source : Source) (key construct : String)
    (read : Source → String → Tree → Reading α) : Option Tree → Reading (Block α)
  | none => pure none
  | some tree => do
    let slot ← source.openBlock tree
    match slot.content with
    | .mapping entries => Block.ofList <$> readEntries construct (read slot.origin) entries
    | .null => pure none
    | other => Reading.fail (.unexpected key "a mapping" other)

end RamlDoc
