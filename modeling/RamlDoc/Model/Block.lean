/-!
# Blocks

A block is the list of nodes that a field of a node holds, in the order they are declared, or
nothing if the field is absent. Reading never gives a block without elements.
-/

namespace RamlDoc

/-- The nodes that a field holds, if it is there. -/
abbrev Block (α : Type) := Option (List α)

namespace Block

variable {α β : Type}

/-- The block of some nodes; without nodes it is absent. -/
def ofList (items : List α) : Block α := if items.isEmpty then none else some items

/-- The nodes of a block. -/
def elements (block : Block α) : List α := block.getD []

/-- The block with each node changed. -/
def mapElements (change : α → β) (block : Block α) : Block β := block.map (List.map change)

/-- The first node with a given key. -/
def find? {κ : Type} [DecidableEq κ] (keyOf : α → κ) (block : Block α) (key : κ) : Option α :=
  block.elements.find? fun item => keyOf item = key

@[simp] theorem elements_none : Block.elements (none : Block α) = [] := rfl

@[simp] theorem elements_some (items : List α) : Block.elements (some items) = items := rfl

@[simp] theorem elements_ofList (items : List α) : (ofList items).elements = items := by
  cases items <;> rfl

@[simp] theorem elements_mapElements (change : α → β) (block : Block α) :
    (block.mapElements change).elements = block.elements.map change := by
  cases block <;> rfl

/-- Changing the nodes of a block again does nothing if it does nothing to each of them. -/
theorem mapElements_mapElements_eq {change change' : α → α} {block : Block α}
    (h : ∀ item ∈ block.elements, change' (change item) = change item) :
    (block.mapElements change).mapElements change' = block.mapElements change := by
  cases block with
  | none => rfl
  | some items => simpa [mapElements] using h

end Block

end RamlDoc
