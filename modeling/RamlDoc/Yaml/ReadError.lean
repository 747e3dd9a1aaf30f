/-!
# Why a YAML text is refused

The causes for which the reader gives up, with the wording of each.
-/

namespace RamlDoc.Yaml

/-- A cause for refusing a YAML text. -/
inductive ReadError where
  /-- A control character that YAML does not allow stands in the text. -/
  | controlCharacter
  /-- No token can begin with this character. -/
  | unexpectedCharacter (c : Char)
  /-- A directive line is malformed. -/
  | malformedDirective
  /-- A directive is given twice for one document. -/
  | repeatedDirective
  /-- The document asks for another version of YAML. -/
  | unsupportedVersion
  /-- The name of an anchor or alias is missing or badly delimited. -/
  | malformedAnchor
  /-- A tag is malformed. -/
  | malformedTag
  /-- A tag uses a handle that no directive declares. -/
  | undeclaredTagHandle (handle : String)
  /-- The line that opens a block scalar is malformed. -/
  | malformedBlockHeader
  /-- A tab stands where indentation needs spaces. -/
  | tabInIndentation
  /-- A quoted scalar has no end. -/
  | unclosedQuote
  /-- A line of a quoted scalar looks like a document boundary. -/
  | boundaryInQuote
  /-- An escape sequence of a double-quoted scalar is malformed. -/
  | malformedEscape
  /-- A colon stands inside an unquoted scalar of a flow collection. -/
  | unexpectedColon
  /-- A sequence entry stands where none may begin. -/
  | misplacedEntry
  /-- A mapping key stands where none may begin. -/
  | misplacedKey
  /-- A mapping value stands where none may begin. -/
  | misplacedValue
  /-- A line that has to be a mapping key has no colon. -/
  | missingColon
  /-- The structure of the document breaks off or continues in the wrong way. -/
  | unexpectedToken
  /-- The text holds more than one document. -/
  | severalDocuments
  /-- An alias names no earlier anchor. -/
  | unknownAlias (name : String)
  /-- Aliases are followed too many times. -/
  | tooManyAliases
  /-- Collections are nested too deeply. -/
  | nestedTooDeeply
  /-- A mapping has a key twice. -/
  | repeatedKey
  /-- A scalar does not fit its tag, or its integer is too large. -/
  | unfitScalar
deriving DecidableEq, Repr

/-- The wording of a cause. -/
def ReadError.message : ReadError → String
  | .controlCharacter => "control characters are not allowed"
  | .unexpectedCharacter c => s!"no token can start with '{c}'"
  | .malformedDirective => "malformed directive"
  | .repeatedDirective => "repeated directive"
  | .unsupportedVersion => "unsupported YAML version"
  | .malformedAnchor => "malformed anchor or alias"
  | .malformedTag => "malformed tag"
  | .undeclaredTagHandle handle => s!"undeclared tag handle '{handle}'"
  | .malformedBlockHeader => "malformed block scalar header"
  | .tabInIndentation => "tab character in indentation"
  | .unclosedQuote => "quoted scalar without end"
  | .boundaryInQuote => "document boundary inside a quoted scalar"
  | .malformedEscape => "malformed escape sequence"
  | .unexpectedColon => "unexpected ':' in a flow collection"
  | .misplacedEntry => "sequence entry not allowed here"
  | .misplacedKey => "mapping key not allowed here"
  | .misplacedValue => "mapping value not allowed here"
  | .missingColon => "expected ':' after a mapping key"
  | .unexpectedToken => "unexpected token"
  | .severalDocuments => "more than one document"
  | .unknownAlias name => s!"unknown anchor '{name}'"
  | .tooManyAliases => "too many aliases"
  | .nestedTooDeeply => "nesting limit exceeded"
  | .repeatedKey => "duplicate mapping key"
  | .unfitScalar => "scalar does not fit its kind"

/-- Where two steps succeed one after the other, the first does. -/
theorem exists_of_bind_eq_ok {ε α β : Type} {r : Except ε α} {k : α → Except ε β} {b : β}
    (h : (r >>= k) = .ok b) : ∃ a, r = .ok a ∧ k a = .ok b := by
  cases r with
  | error => cases h
  | ok a => exact ⟨a, rfl, h⟩

end RamlDoc.Yaml
