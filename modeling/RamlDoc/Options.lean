/-!
# Reading options
-/

namespace RamlDoc

/-- What a caller may choose about reading a document. -/
structure Options where
  /-- How many includes may be nested below the root document. -/
  maxIncludeDepth : Nat := 64
  /-- Whether the text is fixed up before YAML reads it. -/
  fixText : Bool := true
deriving DecidableEq, Repr

end RamlDoc
