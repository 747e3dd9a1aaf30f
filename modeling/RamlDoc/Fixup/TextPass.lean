import RamlDoc.Fixup.Line

/-!
# The text pass

A pass over the lines of a document before YAML reads it. A key with no value and no block below it
is recorded with the keys around it, and a value such as `1,5` is put in quotes so that it stays
text. Block scalars and flow collections that stay open at the end of a line are passed over.
The pass gives a result for each line; the fixed text, the recorded keys and the number of quoted
values are read off the results.
-/

namespace RamlDoc.Fixup

/-- The keys from the root of a document down to an entry. -/
abbrev KeyPath := List String

/-- What the pass knows before a line. -/
structure PassState where
  /-- The entries and items around the line with their indentation, innermost first; an item has no
  key. -/
  enclosing : List (Nat × Option String)
  /-- The indentation beyond which lines are passed over. -/
  block : Option Nat
deriving DecidableEq, Repr

/-- What the pass makes of a line. -/
structure LineResult where
  /-- The line after the pass. -/
  text : List Char
  /-- The path of its key, if that has no value. -/
  emptyKey : Option KeyPath
  /-- Whether its value has been put in quotes. -/
  quoted : Bool
deriving DecidableEq, Repr

namespace LineResult

/-- The result for a line that stays as it is. -/
def unchanged (line : List Char) : LineResult := ⟨line, none, false⟩

end LineResult

namespace PassState

/-- The state before the first line. -/
def start : PassState := ⟨[], none⟩

/-- Whether a line with an indentation is inside an open block. -/
def covers (state : PassState) (indent : Nat) : Bool :=
  state.block.any fun block => block < indent

/-- The state before a line with an indentation: the block is closed, and so are the entries and
items that are not further left. -/
def leave (state : PassState) (indent : Nat) : PassState :=
  ⟨state.enclosing.dropWhile fun level => indent ≤ level.1, none⟩

/-- The keys around the line, unless there is an item among the lines around it. -/
def path? (state : PassState) : Option KeyPath :=
  state.enclosing.reverse.mapM Prod.snd

end PassState

/-- Whether the lines below an entry with an indentation belong to it: the next content line is
further right, or an item at the same indentation. -/
def hasBlockBelow (indent : Nat) (following : List (List Char)) : Bool :=
  match following.find? fun line => !isSkipped line with
  | none => false
  | some next =>
    indent < indentation next ||
      (indentation next = indent && isItem (Text.trimStart next))

/-- The state behind a sequence item. A key on the line of the item stands at the column of the
item's content. -/
def afterItem (state : PassState) (line : List Char) : PassState :=
  let indent := indentation line
  let content := Text.trimStart ((Text.trimStart line).drop 1)
  let enclosing := (indent, none) :: state.enclosing
  if opensBlock content then ⟨enclosing, some indent⟩
  else
    match entry? content with
    | none => ⟨enclosing, state.block⟩
    | some (key, value) =>
      let column := Text.byteLength line - Text.byteLength content
      ⟨(column, some (unquoted key)) :: enclosing,
        if opensBlock value then some column else state.block⟩

/-- The path that an entry without a value records. -/
def recordedKey? (state : PassState) (indent : Nat) (key : String) (value : List Char)
    (following : List (List Char)) : Option KeyPath :=
  if value.isEmpty && !hasBlockBelow indent following then state.path?.map (· ++ [key]) else none

/-- The state behind a mapping entry, and the result for its line. -/
def afterEntry (state : PassState) (line key value : List Char) (following : List (List Char)) :
    PassState × LineResult :=
  let indent := indentation line
  let value := if value.head? = some '#' then [] else value
  let name := unquoted key
  let block := if opensBlock value then some indent else state.block
  let quoted := quotedDecimal? line
  (⟨(indent, some name) :: state.enclosing, block⟩,
    ⟨quoted.getD line, recordedKey? state indent name value following, quoted.isSome⟩)

/-- The state behind a line, and the result for it. -/
def passLine (state : PassState) (line : List Char) (following : List (List Char)) :
    PassState × LineResult :=
  if isSkipped line || state.covers (indentation line) then (state, .unchanged line)
  else
    let state := state.leave (indentation line)
    if isItem (Text.trimStart line) then (afterItem state line, .unchanged line)
    else
      match entry? line with
      | none => (state, .unchanged line)
      | some (key, value) => afterEntry state line key value following

/-- The results for the lines of a document from a state on. -/
def passLines (state : PassState) : List (List Char) → List LineResult
  | [] => []
  | line :: following =>
    let (next, result) := passLine state line following
    result :: passLines next following

/-- The outcome of the text pass. -/
structure FixedText where
  /-- The text for the YAML reader. -/
  text : List Char
  /-- The paths of the keys without a value, in document order. -/
  emptyKeys : List KeyPath
  /-- How many values have been put in quotes. -/
  quotedDecimals : Nat
deriving DecidableEq, Repr

/-- The results for the lines of a text. -/
def results (text : List Char) : List LineResult := passLines .start (Text.lines text)

/-- The text pass. -/
def fixText (text : List Char) : FixedText :=
  let results := results text
  let body := Text.joinWith ['\n'] (results.map (·.text))
  { text := if text.getLast? = some '\n' then body ++ ['\n'] else body
    emptyKeys := results.filterMap (·.emptyKey)
    quotedDecimals := results.countP (·.quoted) }

end RamlDoc.Fixup
