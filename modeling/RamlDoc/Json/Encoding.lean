import RamlDoc.Json.Value
import RamlDoc.Model.Block
import RamlDoc.Yaml.Tree

/-!
# Encoding as JSON

Nodes are encoded as objects whose members come in a fixed order; members of absent fields are left
out. A YAML value becomes the JSON value of the same form. This fails only if a mapping in it has a
key without a text: a string, a boolean and a finite number have one.
-/

namespace RamlDoc

open Yaml

/-- Why a value has no JSON form. -/
inductive EncodingError where
  /-- A key of a mapping is null, a sequence, a mapping or a tagged value. -/
  | keyNotText
  /-- A key of a mapping is a number that is not finite. -/
  | keyNotFinite
deriving DecidableEq, Repr

/-- The wording of the error. -/
def EncodingError.message : EncodingError → String
  | .keyNotText => "key must be a string"
  | .keyNotFinite => "float key must be finite (got NaN or +/-inf)"

/-- A JSON value, or the reason why there is none. -/
abbrev Encoding := Except EncodingError Json

namespace Encoding

/-- The members of an object that are present. -/
def members : List (String × Option Encoding) → Except EncodingError (List (String × Json))
  | [] => .ok []
  | (_, none) :: rest => members rest
  | (name, some value) :: rest => do
    let value ← value
    return (name, value) :: (← members rest)

/-- An object without the members that are absent. -/
def object (fields : List (String × Option Encoding)) : Encoding := .object <$> members fields

/-- An object with one member. -/
def single (name : String) (value : Encoding) : Encoding := object [(name, some value)]

/-- An array. -/
def array {α : Type} (encode : α → Encoding) (items : List α) : Encoding :=
  .array <$> items.mapM encode

/-- A member for a block of nodes. -/
def block {α : Type} (encode : α → Encoding) (items : Block α) : Option Encoding :=
  items.map (array encode)

/-- A string. -/
def string (s : String) : Encoding := .ok (.string s)

/-- A member for a string that is always there. -/
def text (s : String) : Option Encoding := some (string s)

/-- A member for a string. -/
def string? (s : Option String) : Option Encoding := s.map string

/-- A member for a list of strings. -/
def strings? (items : Option (List String)) : Option Encoding := items.map (array string)

/-- A member for a natural number. -/
def natural? (n : Option Nat) : Option Encoding := n.map fun n => .ok (.integer n)

/-- A member for a boolean. -/
def bool? (b : Option Bool) : Option Encoding := b.map fun b => .ok (.bool b)

/-- A floating-point number; what is not finite becomes null. -/
def float (x : Binary64) : Encoding := .ok (if x.isFinite then .float x else .null)

/-- A member for a floating-point number. -/
def float? (x : Option Binary64) : Option Encoding := x.map float

end Encoding

namespace Yaml.Tree

/-- The text of a key. -/
def keyText : Tree → Except EncodingError String
  | .string s => .ok s
  | .bool b => .ok (toString b)
  | .number (.integer n) => .ok (toString n)
  | .number (.float x) =>
    if x.isFinite then .ok (String.ofList (Json.floatText x)) else .error .keyNotFinite
  | .null | .sequence _ | .mapping _ | .tagged .. => .error .keyNotText

mutual

/-- The JSON value of a YAML value. -/
def toJson : Tree → Encoding
  | .null => .ok .null
  | .bool b => .ok (.bool b)
  | .number (.integer n) => .ok (.integer n)
  | .number (.float x) => Encoding.float x
  | .string s => .ok (.string s)
  | .sequence items => .array <$> itemsToJson items
  | .mapping entries => .object <$> entriesToJson entries
  | .tagged tag value => do return .object [("!" ++ tag, ← toJson value)]

/-- The JSON values of the items of a sequence. -/
def itemsToJson : List Tree → Except EncodingError (List Json)
  | [] => .ok []
  | item :: items => do
    let item ← toJson item
    return item :: (← itemsToJson items)

/-- The members of a mapping's JSON object. -/
def entriesToJson : List (Tree × Tree) → Except EncodingError (List (String × Json))
  | [] => .ok []
  | (key, value) :: entries => do
    let key ← keyText key
    let value ← toJson value
    return (key, value) :: (← entriesToJson entries)

end

/-- A member for a YAML value. -/
def encoded? (value : Option Tree) : Option Encoding := value.map toJson

/-- A member for the entries of a mapping. -/
def entriesEncoded? (entries : Option Entries) : Option Encoding :=
  entries.map fun entries => .object <$> entriesToJson entries

end Yaml.Tree

end RamlDoc
