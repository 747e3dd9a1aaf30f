import RamlDoc.Text.Blank
import RamlDoc.Yaml.ReadError

/-!
# YAML tokens

The tokens of a YAML text and the cursor that reads them. Indentation is already resolved in them:
a block collection has a token where it starts and one where it ends, and a key has its own token
also when the text gives it no question mark.
-/

namespace RamlDoc.Yaml

/-- The text of a tag. Percent escapes write bytes; the bytes of one escaped character that encode
none give `none`. -/
abbrev TagText := List (Option Char)

namespace TagText

/-- A text as the text of a tag. -/
def ofString (s : String) : TagText := s.toList.map some

/-- The text, if all its escapes encode characters. -/
def text? (tag : TagText) : Option String := (tag.mapM id).map String.ofList

/-- Whether a tag is local: it begins with an exclamation mark. -/
def isLocal (tag : TagText) : Bool := tag.head? = some (some '!')

end TagText

/-- A token of a YAML text. -/
inductive Token where
  | versionDirective (major minor : Nat)
  | tagDirective (handle : String) (expansion : TagText)
  | documentStart
  | documentEnd
  | streamEnd
  | blockSequenceStart
  | blockMappingStart
  | blockEnd
  | flowSequenceStart
  | flowSequenceEnd
  | flowMappingStart
  | flowMappingEnd
  | blockEntry
  | flowEntry
  | key
  | value
  | alias (name : String)
  | anchor (name : String)
  | tag (handle : String) (suffix : TagText)
  /-- A scalar; `plain` holds of one that is neither quoted nor a block. -/
  | scalar (text : List Char) (plain : Bool)
deriving DecidableEq, Repr

/-- A place in the text: what is left to read, and where it stands. -/
structure Cursor where
  rest : List Char
  /-- How many bytes come before it. -/
  offset : Nat
  line : Nat
  column : Nat
  /-- The length of the whole text in bytes. -/
  size : Nat

/-- Whether a character ends a line. -/
def isBreak (c : Char) : Bool :=
  c = '\n' || c = '\r' || c = '\u0085' || c = '\u2028' || c = '\u2029'

/-- Whether a character is a space or a tab. -/
def isSpace (c : Char) : Bool := c = ' ' || c = '\t'

/-- Whether a character may stand in the name of an anchor, a directive or a tag handle. -/
def isNameChar (c : Char) : Bool := c.isAlphanum || c = '_' || c = '-'

/-- Whether YAML allows a character in a text. -/
def isAllowed (c : Char) : Bool :=
  let n := c.toNat
  n = 0x9 || n = 0xA || n = 0xD || (0x20 ≤ n && n ≤ 0x7E) || n = 0x85 ||
    (0xA0 ≤ n && n ≤ 0xFFFD) || 0x10000 ≤ n

namespace Cursor

/-- The cursor at the start of a text. -/
def start (text : List Char) : Cursor := ⟨text, 0, 0, 0, Text.byteLength text⟩

/-- A bound on the rounds of a loop that passes a character in each but the last. What is left to
read has `size - offset` bytes, and no more characters. -/
def rounds (c : Cursor) : Nat := c.size - c.offset + 1

/-- The next character. -/
def peek? (c : Cursor) : Option Char := c.rest.head?

/-- Whether the next character is a given one. -/
def sees (c : Cursor) (char : Char) : Bool := c.peek? = some char

/-- Whether the character a number of places ahead satisfies `p`; the end of the text does too. -/
def endOr (p : Char → Bool) (c : Cursor) (ahead : Nat) : Bool :=
  (c.rest[ahead]?).all p

/-- Whether a space, a tab, a line break or the end of the text is a number of places ahead. -/
def blankAt (c : Cursor) (ahead : Nat) : Bool :=
  c.endOr (fun x => isSpace x || isBreak x) ahead

/-- Whether a line break or the end of the text is next. -/
def atLineEnd (c : Cursor) : Bool := c.endOr isBreak 0

/-- The cursor a number of characters further on the same line. -/
def skip (c : Cursor) (count : Nat) : Cursor :=
  { c with
    rest := c.rest.drop count
    offset := c.offset + Text.byteLength (c.rest.take count)
    column := c.column + count }

/-- The cursor at the start of the next line, behind a line break of a number of bytes. -/
def nextLine (c : Cursor) (rest : List Char) (bytes : Nat) : Cursor :=
  { c with rest, offset := c.offset + bytes, line := c.line + 1, column := 0 }

/-- The characters from the cursor on that satisfy `p`. -/
def takeWhile (p : Char → Bool) (c : Cursor) : List Char := c.rest.takeWhile p

/-- The cursor behind the characters that satisfy `p`, none of them a line break. -/
def skipWhile (p : Char → Bool) (c : Cursor) : Cursor :=
  c.skip (c.takeWhile p).length

/-- The line break at the cursor, as the text holds it afterwards, and the cursor behind it. Breaks
are unified to line feeds, except the line and paragraph separators. -/
def readBreak (c : Cursor) : List Char × Cursor :=
  match c.rest with
  | '\r' :: '\n' :: rest => (['\n'], c.nextLine rest 2)
  | x :: rest =>
    if isBreak x then
      let text := if x = '\u2028' || x = '\u2029' then x else '\n'
      ([text], c.nextLine rest x.utf8Size)
    else ([], c)
  | [] => ([], c)

/-- The cursor behind the line break it stands at. -/
def skipBreak (c : Cursor) : Cursor := c.readBreak.2

/-- The cursor behind a comment, which a number sign opens and the line ends. -/
def skipComment (c : Cursor) : Cursor :=
  if c.sees '#' then c.skipWhile fun x => !isBreak x else c

/-- Whether the line starts with three given characters that stand alone. -/
def atBoundary (c : Cursor) (mark : Char) : Bool :=
  c.column = 0 && c.rest.take 3 = [mark, mark, mark] && c.blankAt 3

end Cursor

end RamlDoc.Yaml
