import RamlDoc.Yaml.Token

/-!
# YAML nodes

The structure of a document before its scalars have values: nodes with their tags and anchors, read
from tokens by recursive descent. An alias refers to its anchor by number. The number of an anchor
is the count of different names met before it, so a name that is given again can share its number
with a later name; a number stands for the last node that bears it.
-/

namespace RamlDoc.Yaml

/-- What is attached to a node: the number of its anchor and its tag in full. -/
structure NodeMarks where
  anchor : Option Nat
  tag : Option TagText
deriving DecidableEq, Repr

/-- A node of a document. -/
inductive Node where
  | alias (number : Nat)
  | scalar (marks : NodeMarks) (text : List Char) (plain : Bool)
  | sequence (marks : NodeMarks) (items : List Node)
  | mapping (marks : NodeMarks) (entries : List (Node × Node))
deriving Repr, Inhabited

namespace Node

/-- The node that stands where a node is missing. -/
def missing : Node := .scalar ⟨none, none⟩ [] true

/-- The marks of a node; an alias has none. -/
def marks : Node → NodeMarks
  | .alias _ => ⟨none, none⟩
  | .scalar marks .. | .sequence marks _ | .mapping marks _ => marks

mutual

/-- The nodes with an anchor, by number, each before the nodes inside it. -/
def anchored : Node → List (Nat × Node)
  | .alias _ => []
  | .scalar marks text plain =>
    marks.anchor.toList.map fun number => (number, .scalar marks text plain)
  | .sequence marks items =>
    (marks.anchor.toList.map fun number => (number, .sequence marks items)) ++ anchoredItems items
  | .mapping marks entries =>
    (marks.anchor.toList.map fun number => (number, .mapping marks entries)) ++
      anchoredEntries entries

/-- The nodes with an anchor in a list of nodes. -/
def anchoredItems : List Node → List (Nat × Node)
  | [] => []
  | item :: items => anchored item ++ anchoredItems items

/-- The nodes with an anchor in a list of entries. -/
def anchoredEntries : List (Node × Node) → List (Nat × Node)
  | [] => []
  | (key, value) :: entries => anchored key ++ anchored value ++ anchoredEntries entries

end

mutual

/-- The size of a node: one for a scalar or an alias, two for a collection and its end. -/
def weight : Node → Nat
  | .alias _ => 1
  | .scalar .. => 1
  | .sequence _ items => 2 + weightItems items
  | .mapping _ entries => 2 + weightEntries entries

/-- The size of a list of nodes. -/
def weightItems : List Node → Nat
  | [] => 0
  | item :: items => weight item + weightItems items

/-- The size of a list of entries. -/
def weightEntries : List (Node × Node) → Nat
  | [] => 0
  | (key, value) :: entries => weight key + weight value + weightEntries entries

end

/-- What is left to read, with the anchors met and the tag handles in force. -/
structure Source where
  tokens : List Token
  anchors : List (String × Nat)
  handles : List (String × TagText)

/-- Recursive descent over tokens. -/
abbrev Parsing := StateT Source (Except ReadError)

namespace Parsing

/-- The next token; behind the last one the end goes on. -/
def peek : Parsing Token := return (← get).tokens.headD .streamEnd

/-- Passes the next token. -/
def advance : Parsing Unit := modify fun s => { s with tokens := s.tokens.tail }

/-- The number of an anchor that an alias names. -/
def lookup (name : String) : Parsing Nat := do
  match (← get).anchors.lookup name with
  | some number => return number
  | none => throw (.unknownAlias name)

/-- Notes an anchor and gives its number. -/
def define (name : String) : Parsing Nat := do
  let s ← get
  let number := s.anchors.length
  set { s with anchors := (name, number) :: s.anchors.filter (·.1 ≠ name) }
  return number

/-- The tag that a handle and a suffix write. -/
def expandTag (handle : String) (suffix : TagText) : Parsing TagText := do
  if handle.isEmpty then return suffix
  match (← get).handles.lookup handle with
  | some expansion => return expansion ++ suffix
  | none => throw (.undeclaredTagHandle handle)

/-- Reads an anchor and a tag, in either order. -/
def readMarks : Parsing (Option String × Option (String × TagText)) := do
  match ← peek with
  | .anchor name =>
    advance
    match ← peek with
    | .tag handle suffix => advance; return (some name, some (handle, suffix))
    | _ => return (some name, none)
  | .tag handle suffix =>
    advance
    match ← peek with
    | .anchor name => advance; return (some name, some (handle, suffix))
    | _ => return (none, some (handle, suffix))
  | _ => return (none, none)

mutual

/-- Reads a node. Inside a block, blocks may begin; as the value of a mapping entry, a sequence may
begin at the indentation of the mapping. -/
def readNode (block indentless : Bool) : (fuel : Nat) → Parsing Node
  | 0 => throw .unexpectedToken
  | fuel + 1 => do
    if let .alias name ← peek then
      advance
      return .alias (← lookup name)
    let (anchorName, tagParts) ← readMarks
    let tag ← tagParts.mapM fun (handle, suffix) => expandTag handle suffix
    let anchor ← anchorName.mapM define
    let marks : NodeMarks := ⟨anchor, tag⟩
    match ← peek with
    | .scalar text plain =>
      advance
      return .scalar marks text plain
    | .flowSequenceStart =>
      advance
      return .sequence marks (← readFlowItems true fuel)
    | .flowMappingStart =>
      advance
      return .mapping marks (← readFlowEntries true fuel)
    | .blockSequenceStart =>
      if block then
        advance
        return .sequence marks (← readBlockItems fuel)
      else readMissing marks
    | .blockMappingStart =>
      if block then
        advance
        return .mapping marks (← readBlockEntries fuel)
      else readMissing marks
    | .blockEntry =>
      if indentless then return .sequence marks (← readIndentlessItems fuel)
      else readMissing marks
    | _ => readMissing marks

/-- A node that consists of an anchor or a tag only. -/
def readMissing (marks : NodeMarks) : Parsing Node :=
  if marks = ⟨none, none⟩ then throw .unexpectedToken else return .scalar marks [] true

/-- Reads the items of a block sequence. -/
def readBlockItems : (fuel : Nat) → Parsing (List Node)
  | 0 => throw .unexpectedToken
  | fuel + 1 => do
    match ← peek with
    | .blockEntry =>
      advance
      let item ← match ← peek with
        | .blockEntry | .blockEnd => pure missing
        | _ => readNode true false fuel
      return item :: (← readBlockItems fuel)
    | .blockEnd => advance; return []
    | _ => throw .unexpectedToken

/-- Reads the items of a sequence at the indentation of the mapping around it. -/
def readIndentlessItems : (fuel : Nat) → Parsing (List Node)
  | 0 => throw .unexpectedToken
  | fuel + 1 => do
    match ← peek with
    | .blockEntry =>
      advance
      let item ← match ← peek with
        | .blockEntry | .key | .value | .blockEnd => pure missing
        | _ => readNode true false fuel
      return item :: (← readIndentlessItems fuel)
    | _ => return []

/-- Reads the entries of a block mapping. -/
def readBlockEntries : (fuel : Nat) → Parsing (List (Node × Node))
  | 0 => throw .unexpectedToken
  | fuel + 1 => do
    match ← peek with
    | .key =>
      advance
      let key ← readBlockPart fuel
      let value ← readBlockValue fuel
      return (key, value) :: (← readBlockEntries fuel)
    | .blockEnd => advance; return []
    | _ => throw .unexpectedToken

/-- Reads a key or value of a block mapping, which may be missing. -/
def readBlockPart : (fuel : Nat) → Parsing Node
  | 0 => throw .unexpectedToken
  | fuel + 1 => do
    match ← peek with
    | .key | .value | .blockEnd => return missing
    | _ => readNode true true fuel

/-- Reads the value of a block mapping's entry, with its colon if there is one. -/
def readBlockValue : (fuel : Nat) → Parsing Node
  | 0 => throw .unexpectedToken
  | fuel + 1 => do
    match ← peek with
    | .value => advance; readBlockPart fuel
    | _ => return missing

/-- Reads the items of a flow sequence. An item that begins with a key is a mapping of one entry. -/
def readFlowItems (first : Bool) : (fuel : Nat) → Parsing (List Node)
  | 0 => throw .unexpectedToken
  | fuel + 1 => do
    match ← peek with
    | .flowSequenceEnd => advance; return []
    | token =>
      if !first then
        if token = .flowEntry then advance else throw .unexpectedToken
      match ← peek with
      | .key =>
        advance
        let key ← match ← peek with
          | .value | .flowEntry | .flowSequenceEnd => advance; pure missing
          | _ => readNode false false fuel
        let value ← readFlowItemValue fuel
        return .mapping ⟨none, none⟩ [(key, value)] :: (← readFlowItems false fuel)
      | .flowSequenceEnd => advance; return []
      | _ =>
        let item ← readNode false false fuel
        return item :: (← readFlowItems false fuel)

/-- Reads the value of an entry that is an item of a flow sequence. -/
def readFlowItemValue : (fuel : Nat) → Parsing Node
  | 0 => throw .unexpectedToken
  | fuel + 1 => do
    match ← peek with
    | .value =>
      advance
      match ← peek with
      | .flowEntry | .flowSequenceEnd => return missing
      | _ => readNode false false fuel
    | _ => return missing

/-- Reads the entries of a flow mapping. -/
def readFlowEntries (first : Bool) : (fuel : Nat) → Parsing (List (Node × Node))
  | 0 => throw .unexpectedToken
  | fuel + 1 => do
    match ← peek with
    | .flowMappingEnd => advance; return []
    | token =>
      if !first then
        if token = .flowEntry then advance else throw .unexpectedToken
      match ← peek with
      | .key =>
        advance
        let key ← match ← peek with
          | .value | .flowEntry | .flowMappingEnd => pure missing
          | _ => readNode false false fuel
        let value ← readFlowValue fuel
        return (key, value) :: (← readFlowEntries false fuel)
      | .flowMappingEnd => advance; return []
      | _ =>
        let key ← readNode false false fuel
        return (key, missing) :: (← readFlowEntries false fuel)

/-- Reads the value of a flow mapping's entry, with its colon if there is one. -/
def readFlowValue : (fuel : Nat) → Parsing Node
  | 0 => throw .unexpectedToken
  | fuel + 1 => do
    match ← peek with
    | .value =>
      advance
      match ← peek with
      | .flowEntry | .flowMappingEnd => return missing
      | _ => readNode false false fuel
    | _ => return missing

end

/-- The tag handles in force where no directive declares any. -/
def standardHandles : List (String × TagText) :=
  [("!", .ofString "!"), ("!!", .ofString "tag:yaml.org,2002:")]

/-- Reads the directives before a document. -/
def readDirectives (version : Bool) (handles : List (String × TagText)) :
    (fuel : Nat) → Parsing Unit
  | 0 => throw .unexpectedToken
  | fuel + 1 => do
    match ← peek with
    | .versionDirective major minor =>
      advance
      if version then throw .repeatedDirective
      if major ≠ 1 ∨ (minor ≠ 1 ∧ minor ≠ 2) then throw .unsupportedVersion
      readDirectives true handles fuel
    | .tagDirective handle expansion =>
      advance
      if (handles.lookup handle).isSome then throw .repeatedDirective
      readDirectives version (handles ++ [(handle, expansion)]) fuel
    | _ => modify fun s => { s with handles := handles ++ standardHandles }

/-- Passes the tokens that end documents. -/
def skipDocumentEnds : Parsing Unit :=
  modify fun s => { s with tokens := s.tokens.dropWhile (· = .documentEnd) }

/-- Reads the node of a document behind its opening mark, which may be missing. -/
def readContent (fuel : Nat) : Parsing Node := do
  match ← peek with
  | .versionDirective .. | .tagDirective .. | .documentStart | .documentEnd | .streamEnd =>
    return missing
  | _ => readNode true false fuel

/-- Reads a text of at most one document. -/
def readStream (fuel : Nat) : Parsing Node := do
  let node ← match ← peek with
    | .streamEnd => pure missing
    | .versionDirective .. | .tagDirective .. | .documentStart =>
      readDirectives false [] fuel
      if (← peek) ≠ .documentStart then throw .unexpectedToken
      advance
      readContent fuel
    | _ => readNode true false fuel
  skipDocumentEnds
  if (← peek) ≠ .streamEnd then throw .severalDocuments
  return node

end Parsing

/-- The node of a text of tokens; a text without a document has a missing node. A node takes at most
two calls for a token. -/
def ofTokens (tokens : List Token) : Except ReadError Node := do
  let source : Source := ⟨tokens, [], Parsing.standardHandles⟩
  let (node, _) ← (Parsing.readStream (3 * tokens.length + 8)).run source
  return node

end Node

end RamlDoc.Yaml
