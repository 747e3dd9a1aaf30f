import RamlDoc.Fixup.TextPass
import RamlDoc.Yaml.Tree

/-!
# Restoring empty values

The keys that the text pass records lead to entries of the tree; each such entry gets a null for its
value. A step of a path takes the first entry whose key has the text of the step.
-/

namespace RamlDoc.Fixup

open Yaml

/-- Whether a key has a text: a string has its own, numbers and booleans the one they are written
with. -/
def keyHasText (key : Tree) (text : String) : Bool :=
  match key with
  | .string s => s = text
  | .number n => n.text = text
  | .bool b => toString b = text
  | _ => false

/-- The entries with the value of the first whose key satisfies `p` changed. -/
def changeFirst (p : Tree → Bool) (change : Tree → Tree) : Entries → Entries
  | [] => []
  | (key, value) :: rest =>
    if p key then (key, change value) :: rest else (key, value) :: changeFirst p change rest

/-- The tree with null at the end of a path, if the path leads through mappings to an entry. -/
def clearAt : KeyPath → Tree → Tree
  | [], _ => .null
  | step :: path, .mapping entries =>
    .mapping (changeFirst (keyHasText · step) (clearAt path) entries)
  | _ :: _, tree => tree

/-- The tree with null at the end of each path. -/
def restore (tree : Tree) (paths : List KeyPath) : Tree :=
  paths.foldl (fun tree path => clearAt path tree) tree

end RamlDoc.Fixup
