import RamlDoc.Error
import RamlDoc.Yaml.Tree

/-!
# Events

What the reader notes while it reads a document, for whoever wants to follow it.
-/

namespace RamlDoc

/-- Something worth noting while a document is read. -/
inductive Event where
  /-- The text pass has run. -/
  | textFixed (emptyKeys quotedDecimals : Nat)
  /-- The text of the document has become a tree. -/
  | documentStarted (file : Option Path)
  /-- An include directive leads to a file that holds a fragment. -/
  | includeResolved (target : String) (path : Path) (fragment : Option FragmentKind) (depth : Nat)
  /-- An include directive leads to a file that is taken as text. -/
  | textIncludeResolved (target : String) (path : Path)
  /-- A key under `responses` is no status code. -/
  | statusKeySkipped (key : Yaml.Tree)
  /-- The document has been read. -/
  | documentRead (title : String) (resources libraries : Nat)

end RamlDoc
