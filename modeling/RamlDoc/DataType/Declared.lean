import RamlDoc.DataType.Expression
import RamlDoc.Error
import RamlDoc.Yaml.Tree

/-!
# The type that a value declares

A value declares a type by an expression, or as a mapping that has it under a key, at any depth.
-/

namespace RamlDoc.DataType

open Yaml

mutual

/-- The type that a value declares, looked up under `key` in mappings. Null declares none, nor does
a mapping without the key. -/
def ofTree? (key : Option String) : Tree → Except Error (Option DataType)
  | .null => .ok none
  | .string s => .ok (some (ofString s))
  | .mapping entries => ofEntries? key entries
  | .tagged tag _ => .error (.internal ("unexpected tag !" ++ tag ++ " in type expression"))
  | .bool b => .error (.wrongKind (key.getD "type") "a type expression" (Tree.bool b).kind)
  | .number n => .error (.wrongKind (key.getD "type") "a type expression" (Tree.number n).kind)
  | .sequence items =>
    .error (.wrongKind (key.getD "type") "a type expression" (Tree.sequence items).kind)

/-- The type that the first entry with the key declares. -/
def ofEntries? (key : Option String) : List (Tree × Tree) → Except Error (Option DataType)
  | [] => .ok none
  | (k, v) :: rest =>
    if key.any fun key => k = .string key then ofTree? key v else ofEntries? key rest

end

end RamlDoc.DataType
