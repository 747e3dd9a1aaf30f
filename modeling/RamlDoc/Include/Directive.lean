import RamlDoc.Error
import RamlDoc.Text.Blank
import RamlDoc.Yaml.Tree

/-!
# Include directives

An include directive is a text with the tag `include`, or an untagged text that spells the directive
out. `firstInclude?` finds the first directive of a tree in document order, keys apart.
-/

namespace RamlDoc

open Yaml

/-- The tag of an include directive. -/
def includeTag : String := "include"

/-- How a directive that is spelled out begins. -/
def includeWord : List Char := "!include".toList

/-- The target of a directive that is spelled out. -/
def spelledTarget? (text : String) : Option String :=
  (Text.afterStart? includeWord text.toList).bind fun rest =>
    if rest.head?.any Text.isBlank then some (String.ofList (Text.trim rest)) else none

/-- The target of an include directive. -/
def includeTarget? : Tree → Option String
  | .tagged tag value => if tag = includeTag then value.asString?.map Text.trimmed else none
  | .string text => spelledTarget? text
  | _ => none

/-- Whether a value is an include directive. -/
def isInclude (tree : Tree) : Bool := (includeTarget? tree).isSome

mutual

/-- The target of the first include directive in a tree. -/
def firstInclude? : Tree → Option String
  | .sequence items => firstIncludeOfItems? items
  | .mapping entries => firstIncludeOfEntries? entries
  | .tagged tag value => (includeTarget? (.tagged tag value)).or (firstInclude? value)
  | .string text => spelledTarget? text
  | .null | .bool _ | .number _ => none

/-- The target of the first include directive in a list of trees. -/
def firstIncludeOfItems? : List Tree → Option String
  | [] => none
  | item :: items => (firstInclude? item).or (firstIncludeOfItems? items)

/-- The target of the first include directive in the values of a list of entries. -/
def firstIncludeOfEntries? : List (Tree × Tree) → Option String
  | [] => none
  | (_, value) :: entries => (firstInclude? value).or (firstIncludeOfEntries? entries)

end

/-- Refuses a tree that holds an include directive. -/
def ensureNoIncludes (tree : Tree) : Except Error Unit :=
  match firstInclude? tree with
  | some target => .error (.includesUnavailable target)
  | none => .ok ()

end RamlDoc
