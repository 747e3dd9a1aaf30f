import RamlDoc.Proofs.DeclarationsReordered

/-!
# Reordered operations

Reading reordered entries gives reordered parameters, payloads, bodies, responses and methods. The
loops over media types, status codes and verbs pick the same entries in either order.
-/

namespace RamlDoc

open Yaml

variable {source : Source} {first second : Entries} {tree tree' : Tree}

/-- The same parameter but for the order in its default, its examples and its annotations. -/
structure Parameter.Reorders (first second : Parameter) : Prop where
  frame :
    { second with
      default := first.default
      examples := first.examples
      annotations := first.annotations } = first
  default : Option.Rel Tree.Reorders first.default second.default
  examples : Block.Reordered Example.Reorders first.examples second.examples
  annotations : Block.Reordered AnnotationUse.Reorders first.annotations second.annotations

namespace Parameter

theorem carries_ofEntries (name : String) (type : Option DataType)
    (h : Entries.Rearranged first second) :
    Carries Reorders (ofEntries source name type first).result
      (ofEntries source name type second).result := by
  unfold ofEntries
  simp only [h.text, h.boolean, h.string, h.strings]
  refine .bindSame fun _ => .bindSame fun _ => .bindSame fun _ => .bindSame fun _ => ?_
  refine .bindSame fun _ => .bind (Example.carries_readAll h) fun _ _ hexamples => ?_
  exact .ok ⟨rfl, rel_field h "default", hexamples, reordered_annotationsOf h⟩

/-- Reading a parameter carries over, also if it is given by its type alone. -/
theorem carries_read (name : String) (h : tree.Rearranged tree') :
    Carries Reorders (read source name tree).result (read source name tree').result := by
  refine .openSlot h ?_
  cases h.reorders with
  | null => exact .ok ⟨rfl, .none, .none, .none⟩
  | string expression => exact .ok ⟨rfl, .none, .none, .none⟩
  | mapping =>
    dsimp only [Slot.inPlace]
    rw [DataType.ofTree?_eq_of_rearranged h]
    exact .bindSame fun type => carries_ofEntries name type h
  | _ => exact .error

/-- Headers are reordered with the mapping that declares them. -/
theorem carries_readHeaders (h : Entries.Rearranged first second) :
    Carries (Block.Reordered Reorders) (readHeaders source first).result
      (readHeaders source second).result :=
  carries_readBlock (fun name _ _ => carries_read name) (h.field "headers")

/-- Parameters of a URI are reordered with the mapping that declares them. -/
theorem carries_readOfUri (h : Entries.Rearranged first second) (key : String) :
    Carries (Block.Reordered Reorders) (readOfUri source key first).result
      (readOfUri source key second).result :=
  carries_readBlock (fun name _ _ => carries_read name) (h.field key)

end Parameter

theorem Protocol.readAll_eq_of_rearranged (h : Entries.Rearranged first second) :
    readAll second = readAll first := by
  unfold readAll
  rw [h.strings]

/-! ## Payloads and bodies -/

/-- A payload of the same type with reordered properties and examples. -/
structure Payload.Reorders (first second : Payload) : Prop where
  type : second.type = first.type
  properties : Block.Reordered Property.Reorders first.properties second.properties
  examples : Block.Reordered Example.Reorders first.examples second.examples

namespace Payload

theorem reorders_ofExpression (expression : String) :
    (ofExpression expression).Reorders (ofExpression expression) := ⟨rfl, .none, .none⟩

theorem carries_ofEntries (h : Entries.Rearranged first second) :
    Carries Reorders (ofEntries source first).result (ofEntries source second).result := by
  unfold ofEntries
  rw [DataType.ofTree?_eq_of_rearranged h]
  refine .bindSame fun type => .bind (Property.carries_readAll h _) fun _ _ hproperties => ?_
  exact .bind (Example.carries_readAll h) fun _ _ hexamples => .ok ⟨rfl, hproperties, hexamples⟩

/-- A query string carries over, whether it is a mapping or a type expression. -/
theorem carries_readQueryString (h : Entries.Rearranged first second) :
    Carries (Option.Rel Reorders) (readQueryString source first).result
      (readQueryString source second).result := by
  have hfield := h.field "queryString"
  unfold readQueryString
  generalize Entries.field? first _ = value, Entries.field? second _ = value' at hfield ⊢
  cases hfield with
  | none => exact .ok .none
  | some hvalue =>
    cases hvalue.reorders with
    | string expression => exact .ok (.some (reorders_ofExpression expression))
    | mapping => exact .mapReading (carries_ofEntries hvalue) fun _ _ hpayload => .some hpayload
    | _ => exact .error

end Payload

/-- A body of the same media type with a reordered payload. -/
structure MediaTypeBody.Reorders (first second : MediaTypeBody) : Prop where
  identifier : second.identifier = first.identifier
  payload : first.payload.Reorders second.payload

namespace MediaTypeBody

theorem carries_read (identifier : MediaType) (h : tree.Rearranged tree') :
    Carries Reorders (read source identifier tree).result
      (read source identifier tree').result := by
  refine .openSlot h ?_
  cases h.reorders with
  | null => exact .ok ⟨rfl, rfl, .none, .none⟩
  | string expression => exact .ok ⟨rfl, Payload.reorders_ofExpression expression⟩
  | mapping =>
    exact .bind (Payload.carries_ofEntries h) fun _ _ hpayload => .ok ⟨rfl, hpayload⟩
  | _ => exact .error

/-- The loop over media types picks the same entries in either order. -/
theorem carries_readAll (h : Entries.Rearranged first second) :
    Carries (Reordered Reorders) (readAll source first).result (readAll source second).result := by
  rw [result_readAll, result_readAll]
  refine .collect h.entries fun entry entry' hentry => ?_
  unfold outcome?
  rw [keyText_eq_of_reorders hentry.1]
  cases keyText "Body" entry.1 with
  | error => exact .some .error
  | ok identifier =>
    dsimp only
    by_cases hvalid : MediaType.isValid identifier
    · rw [if_pos hvalid, if_pos hvalid]
      exact .some (carries_read identifier hentry.2)
    · rw [if_neg hvalid, if_neg hvalid]
      exact .none

end MediaTypeBody

/-- A body with a reordered payload and reordered variants. -/
structure Body.Reorders (first second : Body) : Prop where
  payload : first.payload.Reorders second.payload
  mediaTypes : Block.Reordered MediaTypeBody.Reorders first.mediaTypes second.mediaTypes

namespace Body

theorem carries_ofTree (h : tree.Rearranged tree') :
    Carries (Option.Rel Reorders) (ofTree source tree).result (ofTree source tree').result := by
  cases h.reorders with
  | null => exact .ok .none
  | string expression => exact .ok (.some ⟨Payload.reorders_ofExpression expression, .none⟩)
  | mapping =>
    refine .bind (MediaTypeBody.carries_readAll h) fun _ _ hmediaTypes => ?_
    refine .bind (Payload.carries_ofEntries h) fun _ _ hpayload => ?_
    exact .ok (.some ⟨hpayload, hmediaTypes.ofList⟩)
  | _ => exact .error

/-- Reading a body carries over, also if it is included from a file. -/
theorem carries_read (h : Entries.Rearranged first second) :
    Carries (Option.Rel Reorders) (read source first).result (read source second).result := by
  have hfield := h.field "body"
  unfold read
  generalize Entries.field? first _ = value, Entries.field? second _ = value' at hfield ⊢
  cases hfield with
  | none => exact .ok .none
  | some hvalue => exact .openSlot hvalue (carries_ofTree hvalue)

end Body

/-! ## Responses -/

/-- The same response but for the order in its annotations, its headers and its body. -/
structure Response.Reorders (first second : Response) : Prop where
  frame :
    { second with
      annotations := first.annotations
      headers := first.headers
      body := first.body } = first
  annotations : Block.Reordered AnnotationUse.Reorders first.annotations second.annotations
  headers : Block.Reordered Parameter.Reorders first.headers second.headers
  body : Option.Rel Body.Reorders first.body second.body

namespace Response

theorem code?_eq_of_reorders (h : tree.Reorders tree') : code? tree' = code? tree := by
  cases h <;> rfl

theorem carries_ofEntries (code : Nat) (h : Entries.Rearranged first second) :
    Carries Reorders (ofEntries source code first).result
      (ofEntries source code second).result := by
  unfold ofEntries
  rw [h.text]
  refine .bindSame fun _ => .bind (Parameter.carries_readHeaders h) fun _ _ hheaders => ?_
  refine .bind (Body.carries_read h) fun _ _ hbody => ?_
  exact .ok ⟨rfl, reordered_annotationsOf h, hheaders, hbody⟩

theorem carries_read (code : Nat) (h : tree.Rearranged tree') :
    Carries Reorders (read source code tree).result (read source code tree').result :=
  .bind (carries_entriesOf _ h) fun _ _ => carries_ofEntries code

/-- The loop over status codes picks the same entries in either order. -/
theorem carries_ofCodes (h : Entries.Rearranged first second) :
    Carries (Reordered Reorders) (ofCodes source first).result (ofCodes source second).result := by
  rw [result_ofCodes, result_ofCodes]
  refine .collect h.entries fun entry entry' hentry => ?_
  unfold outcome?
  rw [code?_eq_of_reorders hentry.1]
  cases code? entry.1 with
  | none => exact .none
  | some code => exact .some (carries_read code hentry.2)

/-- Responses are reordered with the mapping that declares them. -/
theorem carries_readAll (h : Entries.Rearranged first second) :
    Carries (Block.Reordered Reorders) (readAll source first).result
      (readAll source second).result := by
  have hfield := h.field "responses"
  unfold readAll
  generalize Entries.field? first _ = value, Entries.field? second _ = value' at hfield ⊢
  cases hfield with
  | none => exact .ok .none
  | some hvalue =>
    refine .bind (carries_entriesOf _ hvalue) fun _ _ hcodes => ?_
    exact .mapReading (carries_ofCodes hcodes) fun _ _ hresponses => hresponses.ofList

end Response

/-! ## Exchanges and methods -/

/-- An exchange with reordered headers, query parameters, query string and responses. -/
structure Exchange.Reorders (first second : Exchange) : Prop where
  headers : Block.Reordered Parameter.Reorders first.headers second.headers
  queryParameters :
    Block.Reordered Property.Reorders first.queryParameters second.queryParameters
  queryString : Option.Rel Payload.Reorders first.queryString second.queryString
  responses : Block.Reordered Response.Reorders first.responses second.responses

namespace Exchange

/-- The four parts of an exchange carry over each by itself. -/
theorem carries_read (h : Entries.Rearranged first second) :
    Carries Reorders (read source first).result (read source second).result := by
  refine .bind (Parameter.carries_readHeaders h) fun _ _ hheaders => ?_
  refine .bind (Property.carries_readAll h _) fun _ _ hqueryParameters => ?_
  refine .bind (Payload.carries_readQueryString h) fun _ _ hqueryString => ?_
  refine .bind (Response.carries_readAll h) fun _ _ hresponses => ?_
  exact .ok ⟨hheaders, hqueryParameters, hqueryString, hresponses⟩

theorem carries_readOfMethod (h : Entries.Rearranged first second) :
    Carries Reorders (readOfMethod source first).result (readOfMethod source second).result := by
  refine .bind (Property.carries_readAll h _) fun _ _ hqueryParameters => ?_
  refine .bind (Parameter.carries_readHeaders h) fun _ _ hheaders => ?_
  refine .bind (Payload.carries_readQueryString h) fun _ _ hqueryString => ?_
  refine .bind (Response.carries_readAll h) fun _ _ hresponses => ?_
  exact .ok ⟨hheaders, hqueryParameters, hqueryString, hresponses⟩

end Exchange

/-- The same method, with usages in their order and all else reordered. -/
structure Method.Reorders (first second : Method) : Prop where
  frame :
    { second with
      annotations := first.annotations
      exchange := first.exchange
      body := first.body
      traits := first.traits
      securedBy := first.securedBy } = first
  annotations : Block.Reordered AnnotationUse.Reorders first.annotations second.annotations
  exchange : first.exchange.Reorders second.exchange
  body : Option.Rel Body.Reorders first.body second.body
  traits : Block.InOrder Usage.Reorders first.traits second.traits
  securedBy : Block.InOrder Usage.Reorders first.securedBy second.securedBy

namespace Method

theorem carries_ofEntries (verb : Verb) (optional : Bool) (h : Entries.Rearranged first second) :
    Carries Reorders (ofEntries source verb optional first).result
      (ofEntries source verb optional second).result := by
  unfold ofEntries
  simp only [h.text, Protocol.readAll_eq_of_rearranged h]
  refine .bindSame fun _ => .bindSame fun _ => ?_
  refine .bind (Exchange.carries_readOfMethod h) fun _ _ hexchange => ?_
  refine .bind (Body.carries_read h) fun _ _ hbody => .bindSame fun _ => ?_
  refine .bind (carries_readTraitUsages h) fun _ _ htraits => ?_
  refine .bind (carries_readSecuredBy h) fun _ _ hsecuredBy => ?_
  exact .ok ⟨rfl, reordered_annotationsOf h, hexchange, hbody, htraits, hsecuredBy⟩

/-- The loop over verbs picks the same entries in either order. -/
theorem carries_ofVerbs (allowOptional : Bool) (h : Entries.Rearranged first second) :
    Carries (Reordered Reorders) (ofVerbs source allowOptional first).result
      (ofVerbs source allowOptional second).result := by
  rw [result_ofVerbs, result_ofVerbs]
  refine .collect h.entries fun entry entry' hentry => ?_
  unfold outcome?
  rw [hentry.1.asString?_eq]
  cases entry.1.asString?.bind (verbOf? allowOptional) with
  | none => exact .none
  | some verb =>
    refine .some (.bind (carries_entriesOf _ hentry.2) fun _ _ hentries => ?_)
    exact carries_ofEntries verb.1 verb.2 hentries

/-- Methods are reordered with the mapping that they stand in. -/
theorem carries_readAll (allowOptional : Bool) (h : Entries.Rearranged first second) :
    Carries (Block.Reordered Reorders) (readAll source allowOptional first).result
      (readAll source allowOptional second).result :=
  .mapReading (carries_ofVerbs allowOptional h) fun _ _ hmethods => hmethods.ofList

end Method

end RamlDoc
