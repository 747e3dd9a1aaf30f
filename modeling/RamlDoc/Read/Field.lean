import RamlDoc.Include.Resolve
import RamlDoc.Model.Block

/-!
# Fields

Reading the entries of a mapping that have fixed keys. An entry whose value is null counts as absent.
Each function gives the value in the form that is wanted, nothing if the field is absent, or an error
that names the field, what it must be and what it is.
-/

namespace RamlDoc

open Yaml

/-- The error for a value of the wrong kind. -/
def Error.unexpected (key expected : String) (found : Tree) : Error :=
  .wrongKind key expected found.kind

/-- The text of a string, a number or a boolean. -/
def scalarText? : Tree → Option String
  | .string s => some s
  | .number n => some n.text
  | .bool b => some (toString b)
  | _ => none

/-- The text of a key that must be a string, for a kind of construct. -/
def keyText (construct : String) (key : Tree) : Except Error String :=
  match key.asString? with
  | some text => .ok text
  | none => .error (.keyNotString construct)

/-- The entries of a node that must be a mapping; null has none. -/
def entriesOf (key : String) : Tree → Except Error Entries
  | .mapping entries => .ok entries
  | .null => .ok []
  | tree => .error (.unexpected key "a mapping" tree)

namespace Field

variable (entries : Entries) (key : String)

/-- A field that holds a value of a kind. -/
def of {α : Type} (expected : String) (value? : Tree → Option α) : Except Error (Option α) :=
  match Entries.field? entries key with
  | none => .ok none
  | some tree =>
    match value? tree with
    | some value => .ok (some value)
    | none => .error (.unexpected key expected tree)

/-- A field that holds a text, which may be written as a number or a boolean. -/
def string : Except Error (Option String) := of entries key "a string" scalarText?

/-- A field that holds a boolean. -/
def boolean : Except Error (Option Bool) :=
  of entries key "a boolean" fun
    | .bool b => some b
    | _ => none

/-- A field that holds a natural number. -/
def natural : Except Error (Option Nat) :=
  of entries key "a non-negative integer" fun tree => tree.asNumber?.bind Number.natural?

/-- A field that holds a number. -/
def number : Except Error (Option Binary64) :=
  of entries key "a number" fun tree => tree.asNumber?.map Number.toBinary64

/-- A field that holds a mapping. -/
def mapping : Except Error (Option Entries) :=
  of entries key "a mapping" fun
    | .mapping inner => some inner
    | _ => none

/-- A field that holds a text or a sequence of texts. -/
def strings : Except Error (Option (List String)) :=
  match Entries.field? entries key with
  | none => .ok none
  | some (.sequence items) =>
    some <$> items.mapM fun item =>
      match scalarText? item with
      | some text => .ok text
      | none => .error (.unexpected key "a list of strings" item)
  | some tree =>
    match scalarText? tree with
    | some text => .ok (some [text])
    | none => .error (.unexpected key "a string or list of strings" tree)

/-- A field that holds a text, or the directive to include a file as text. -/
def text (source : Source) : Reading (Option String) :=
  match Entries.field? entries key with
  | none => pure none
  | some tree =>
    if isInclude tree then some <$> source.readText tree else Reading.lift (string entries key)

/-- The value of a field that must not be absent. -/
def required {α : Type} (context : String) : Option α → Except Error α
  | some value => .ok value
  | none => .error (.missingKey key context)

end Field

end RamlDoc
