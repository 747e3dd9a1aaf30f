import RamlDoc.Yaml.Node
import RamlDoc.Yaml.Token.Scanner

/-!
# Reading YAML

A text becomes a tree in three steps: tokens, the node of its one document, and the tree in which
scalars have values and aliases are replaced by what they refer to. Nesting is limited, and so is
the number of aliases followed, in proportion to the size of the document.
-/

namespace RamlDoc.Yaml

/-- How many collections may be nested. -/
def maxNesting : Nat := 128

/-- Expanding nodes to trees; the state is how many more aliases may be followed. -/
abbrev Expansion := StateT Nat (Except ReadError)

namespace Tree

/-- A text without the exclamation mark in front, which a lone mark keeps. -/
def withoutMark : List Char → List Char
  | ['!'] => ['!']
  | '!' :: rest => rest
  | cs => cs

/-- The name of a local tag: the tag without the mark that makes it local and without one more mark
in front. A tag whose escapes encode no text has none. -/
def localTag? (tag : TagText) : Option String :=
  if tag.isLocal then
    tag.text?.map fun text => String.ofList (withoutMark (withoutMark text.toList))
  else none

/-- A value under a tag: a local tag with a name is kept, another one has no effect on a
collection. -/
def withTag (tag : Option TagText) (value : Tree) : Tree :=
  match tag.bind localTag? with
  | some name => .tagged name value
  | none => value

/-- The value of a scalar without a core tag. -/
def untaggedScalar? (text : List Char) (plain : Bool) : Option Tree :=
  if plain then Scalar.plainValue? text else some (.string (String.ofList text))

/-- The value of a scalar. -/
def ofScalar (tag : Option TagText) (text : List Char) (plain : Bool) : Except ReadError Tree :=
  let value? : Option Tree :=
    match tag with
    | none => untaggedScalar? text plain
    | some tag =>
      if tag.isLocal then untaggedScalar? text plain
      else
        match tag.text? with
        | some tag => Scalar.taggedValue? tag text
        | none => some (.string (String.ofList text))
  match value? with
  | some value => .ok (withTag tag value)
  | none => .error .unfitScalar

/-- Adds an entry to a mapping, which must not have the key yet. -/
def addEntry (entries : Entries) (key value : Tree) : Except ReadError Entries :=
  if entries.any fun entry => entry.1.same key then .error .repeatedKey
  else .ok (entries ++ [(key, value)])

/-- The node that an alias refers to; any other node stands for itself. -/
def referent (table : List (Nat × Node)) : Node → Expansion Node
  | .alias anchor => do
    if (← get) = 0 then throw .tooManyAliases
    modify (· - 1)
    match table.reverse.lookup anchor with
    | some node => return node
    | none => throw .unexpectedToken
  | node => return node

/-- The tree of a node that is not an alias, given how to expand the nodes inside a collection where
more nesting is allowed. -/
def ofNodeWith (inside : Option (Node → Expansion Tree)) : Node → Expansion Tree
  | .alias _ => throw .unexpectedToken
  | .scalar marks text plain => ofScalar marks.tag text plain
  | .sequence marks items => do
    match inside with
    | none => throw .nestedTooDeeply
    | some expand => return withTag marks.tag (.sequence (← items.mapM expand))
  | .mapping marks entries => do
    match inside with
    | none => throw .nestedTooDeeply
    | some expand =>
      let pairs ← entries.mapM fun (key, value) => return (← expand key, ← expand value)
      let entries ← pairs.foldlM (fun entries (key, value) => addEntry entries key value) []
      return withTag marks.tag (.mapping entries)

/-- The tree of a node below which a number of collections may be nested. -/
def ofNode (table : List (Nat × Node)) : (nesting : Nat) → Node → Expansion Tree
  | 0, node => do ofNodeWith none (← referent table node)
  | nesting + 1, node => do ofNodeWith (some (ofNode table nesting)) (← referent table node)

end Tree

/-- Reads a text of at most one document. A text without any is null. -/
def read (text : List Char) : Except ReadError Tree := do
  let node ← Node.ofTokens (← scan text)
  let (tree, _) ← (Tree.ofNode node.anchored maxNesting node).run (100 * node.weight)
  return tree

end RamlDoc.Yaml
