import RamlDoc.Fixup.Restore
import RamlDoc.Reading
import RamlDoc.Options
import RamlDoc.Yaml.Reader

/-!
# The tree of a text

A text without content stands for null. Any other text is read as YAML, with the fix-ups around the
reading if they are wanted.
-/

namespace RamlDoc.Fixup

open Yaml

/-- Whether a text holds nothing but blank lines and comments. -/
def isVoid (text : List Char) : Bool := (Text.lines text).all isSkipped

/-- Reads a text as YAML. -/
def readYaml (text : List Char) : Except Error Tree := (Yaml.read text).mapError .yaml

/-- Reads the tree of a text. -/
def readTree (options : Options) (text : List Char) : Reading Tree :=
  if isVoid text then pure .null
  else if !options.fixText then Reading.lift (readYaml text)
  else do
    let fixed := fixText text
    Reading.note (.textFixed fixed.emptyKeys.length fixed.quotedDecimals)
    let tree ← Reading.lift (readYaml fixed.text)
    return restore tree fixed.emptyKeys

end RamlDoc.Fixup
