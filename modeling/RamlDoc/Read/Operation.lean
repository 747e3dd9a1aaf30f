import RamlDoc.Model.Operation
import RamlDoc.Read.Declaration

/-!
# Reading operations

Reading methods, and the parameters, payloads, bodies and responses that they exchange.
-/

namespace RamlDoc

open Yaml

namespace Protocol

/-- Reads the name of a protocol. -/
def read (name : String) : Except Error Protocol :=
  match ofName? name with
  | some protocol => .ok protocol
  | none => .error (.invalidValue "protocol" name)

/-- Reads the `protocols` field of a node. -/
def readAll (entries : Entries) : Except Error (Block Protocol) := do
  match ← Field.strings entries "protocols" with
  | none => return none
  | some names => return Block.ofList (← names.mapM read)

end Protocol

namespace Parameter

/-- Reads a parameter of a known type from the entries of a mapping. -/
def ofEntries (source : Source) (name : String) (type : Option DataType) (entries : Entries) :
    Reading Parameter := do
  let displayName ← Field.text entries "displayName" source
  let description ← Field.text entries "description" source
  let required ← Field.boolean entries "required"
  let pattern ← Field.string entries "pattern"
  let admitted ← Field.strings entries "enum"
  let examples ← Example.readAll source entries
  return { name, type, displayName, description, required, pattern, admitted
           default := Entries.field? entries "default"
           examples
           annotations := annotationsOf entries }

/-- Reads a parameter. -/
def read (source : Source) (name : String) (tree : Tree) : Reading Parameter := do
  let slot ← source.openSlot none tree
  match slot.content with
  | .null => return { name }
  | .string expression => return { name, type := some (DataType.ofString expression) }
  | .mapping entries =>
    let type ← DataType.ofTree? (some "type") (.mapping entries)
    ofEntries slot.origin name type entries
  | other => Reading.fail (.unexpected name "a parameter declaration" other)

/-- Reads the `headers` field of a node. -/
def readHeaders (source : Source) (entries : Entries) : Reading (Block Parameter) :=
  readBlock source "headers" "Header" read (Entries.field? entries "headers")

/-- Reads a field of URI parameters. -/
def readOfUri (source : Source) (key : String) (entries : Entries) :
    Reading (Block Parameter) :=
  readBlock source key "URI Parameter" read (Entries.field? entries key)

end Parameter

namespace Payload

/-- The payload of a type expression. -/
def ofExpression (expression : String) : Payload := { type := some (DataType.ofString expression) }

/-- Reads a payload from the entries of a mapping. -/
def ofEntries (source : Source) (entries : Entries) : Reading Payload := do
  let type ← DataType.ofTree? (some "type") (.mapping entries)
  let properties ← Property.readAll source (Entries.field? entries "properties")
  let examples ← Example.readAll source entries
  return { type, properties, examples }

/-- Reads the `queryString` field of a node. -/
def readQueryString (source : Source) (entries : Entries) : Reading (Option Payload) :=
  match Entries.field? entries "queryString" with
  | none => pure none
  | some (.string expression) => pure (some (ofExpression expression))
  | some (.mapping entries) => some <$> ofEntries source entries
  | some other => Reading.fail (.unexpected "queryString" "a mapping or type expression" other)

end Payload

namespace MediaTypeBody

/-- Reads what is sent in a media type. -/
def read (source : Source) (identifier : MediaType) (tree : Tree) : Reading MediaTypeBody := do
  let slot ← source.openSlot none tree
  match slot.content with
  | .null => return { identifier }
  | .string expression => return { identifier, payload := .ofExpression expression }
  | .mapping entries => return { identifier, payload := ← Payload.ofEntries slot.origin entries }
  | other => Reading.fail (.unexpected identifier "a mapping or type expression" other)

/-- Reads the media types among the entries of a body. -/
def readAll (source : Source) : Entries → Reading (List MediaTypeBody)
  | [] => pure []
  | (key, value) :: entries => do
    let identifier ← keyText "Body" key
    if MediaType.isValid identifier then
      let mediaType ← read source identifier value
      return mediaType :: (← readAll source entries)
    else readAll source entries

end MediaTypeBody

namespace Body

/-- Reads the body that stands in a slot. -/
def ofTree (source : Source) : Tree → Reading (Option Body)
  | .null => pure none
  | .string expression => pure (some { payload := .ofExpression expression })
  | .mapping entries => do
    let mediaTypes ← MediaTypeBody.readAll source entries
    let payload ← Payload.ofEntries source entries
    return some { payload, mediaTypes := Block.ofList mediaTypes }
  | other => Reading.fail (.unexpected "body" "a mapping or type expression" other)

/-- Reads the `body` field of a node. -/
def read (source : Source) (entries : Entries) : Reading (Option Body) :=
  match Entries.field? entries "body" with
  | none => pure none
  | some tree => do
    let slot ← source.openSlot none tree
    ofTree slot.origin slot.content

end Body

namespace Response

/-- The number that a text of digits stands for, a plus sign before it allowed. -/
def codeOfText? (text : List Char) : Option Nat :=
  let digits := (Text.afterStart? ['+'] text).getD text
  if digits.isEmpty || !digits.all Char.isDigit then none
  else some (digits.foldl (fun code digit => 10 * code + (digit.toNat - '0'.toNat)) 0)

/-- The largest status code. -/
def maxCode : Nat := UInt16.size - 1

/-- The status code that a key stands for. -/
def code? (key : Tree) : Option Nat :=
  let code : Option Nat :=
    match key with
    | .number n => n.natural?
    | .string s => codeOfText? (Text.trim s.toList)
    | _ => none
  code.filter (· ≤ maxCode)

/-- Reads a response from the entries of a mapping. -/
def ofEntries (source : Source) (code : Nat) (entries : Entries) : Reading Response := do
  let description ← Field.text entries "description" source
  let headers ← Parameter.readHeaders source entries
  let body ← Body.read source entries
  return { code, description, annotations := annotationsOf entries, headers, body }

/-- Reads a response. -/
def read (source : Source) (code : Nat) (tree : Tree) : Reading Response := do
  let entries ← entriesOf (toString code) tree
  ofEntries source code entries

/-- Reads the responses among the entries of a mapping. -/
def ofCodes (source : Source) : Entries → Reading (List Response)
  | [] => pure []
  | (key, value) :: entries =>
    match code? key with
    | none => do
      Reading.note (.statusKeySkipped key)
      ofCodes source entries
    | some code => do
      let response ← read source code value
      return response :: (← ofCodes source entries)

/-- Reads the `responses` field of a node. -/
def readAll (source : Source) (entries : Entries) : Reading (Block Response) :=
  match Entries.field? entries "responses" with
  | none => pure none
  | some tree => do
    let codes ← entriesOf "responses" tree
    Block.ofList <$> ofCodes source codes

end Response

namespace Exchange

/-- Reads the `queryParameters` field of a node. -/
def readQueryParameters (source : Source) (entries : Entries) :
    Reading (Block Property) :=
  Property.readAll source (Entries.field? entries "queryParameters")

/-- Reads what a trait or a security scheme exchanges, the headers first. -/
def read (source : Source) (entries : Entries) : Reading Exchange := do
  let headers ← Parameter.readHeaders source entries
  let queryParameters ← readQueryParameters source entries
  let queryString ← Payload.readQueryString source entries
  let responses ← Response.readAll source entries
  return { headers, queryParameters, queryString, responses }

/-- Reads what a method exchanges, the query parameters first. -/
def readOfMethod (source : Source) (entries : Entries) : Reading Exchange := do
  let queryParameters ← readQueryParameters source entries
  let headers ← Parameter.readHeaders source entries
  let queryString ← Payload.readQueryString source entries
  let responses ← Response.readAll source entries
  return { headers, queryParameters, queryString, responses }

end Exchange

namespace Method

/-- The verb that a key stands for, and whether a question mark makes the method optional. Only
where optional methods are allowed is such a key a verb. -/
def verbOf? (allowOptional : Bool) (key : String) : Option (Verb × Bool) :=
  match Text.beforeEnd? ['?'] key.toList with
  | some verb =>
    if allowOptional then (Verb.ofName? (String.ofList verb)).map (·, true) else none
  | none => (Verb.ofName? key).map (·, false)

/-- Reads a method from the entries of a mapping. -/
def ofEntries (source : Source) (verb : Verb) (optional : Bool) (entries : Entries) :
    Reading Method := do
  let displayName ← Field.text entries "displayName" source
  let description ← Field.text entries "description" source
  let exchange ← Exchange.readOfMethod source entries
  let body ← Body.read source entries
  let protocols ← Protocol.readAll entries
  let traits ← readTraitUsages entries
  let securedBy ← readSecuredBy entries
  return { verb, optional, displayName, description
           annotations := annotationsOf entries
           exchange, body, protocols, traits, securedBy }

/-- Reads a method. -/
def read (source : Source) (verb : Verb) (optional : Bool) (tree : Tree) : Reading Method := do
  let entries ← entriesOf verb.name tree
  ofEntries source verb optional entries

/-- Reads the methods among the entries of a mapping. -/
def ofVerbs (source : Source) (allowOptional : Bool) : Entries → Reading (List Method)
  | [] => pure []
  | (key, value) :: entries =>
    match key.asString?.bind (verbOf? allowOptional) with
    | none => ofVerbs source allowOptional entries
    | some (verb, optional) => do
      let method ← read source verb optional value
      return method :: (← ofVerbs source allowOptional entries)

/-- Reads the methods of a resource or a resource type. -/
def readAll (source : Source) (allowOptional : Bool) (entries : Entries) :
    Reading (Block Method) :=
  Block.ofList <$> ofVerbs source allowOptional entries

end Method

end RamlDoc
