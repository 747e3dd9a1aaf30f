import RamlDoc.Yaml.Token

/-!
# Pages

The page on which block YAML is written. It knows the column that is reached and what stands on the
line so far. From this it decides whether a word needs a space in front of it, and whether the next
line has to be begun or is begun already: a mark such as a dash opens the lines inside its block on
its own line.
-/

namespace RamlDoc.Yaml

/-- A page and the place reached on it. -/
structure Page where
  /-- What is written, last character first. -/
  written : List Char
  column : Nat
  /-- Whether a word needs no space in front of it. -/
  spaced : Bool
  /-- Whether nothing stands on the line but indentation and marks of blocks. -/
  fresh : Bool

namespace Page

/-- The empty page. -/
def empty : Page := ⟨[], 0, true, true⟩

/-- The text of a page. -/
def text (page : Page) : List Char := page.written.reverse

/-- Writes one character. -/
def put (page : Page) (c : Char) : Page :=
  { page with written := c :: page.written, column := page.column + 1 }

/-- Writes a line break. -/
def putBreak (page : Page) (c : Char) : Page :=
  { page with written := c :: page.written, column := 0, fresh := true }

/-- Writes characters right behind what stands there. -/
def glue (page : Page) (cs : List Char) : Page :=
  { cs.foldl put page with spaced := false, fresh := false }

/-- Writes a space where a word needs one. -/
def putSpace (page : Page) : Page := if page.spaced then page else page.put ' '

/-- Writes a word. -/
def word (page : Page) (cs : List Char) : Page := page.putSpace.glue cs

/-- Writes the mark of a block, which leaves a fresh line fresh. -/
def mark (page : Page) (c : Char) : Page := { page.putSpace.put c with spaced := false }

/-- Begins a line at an indentation, on the present one if it is fresh and not too far to the
right. -/
def startLine (page : Page) (indent : Nat) : Page :=
  let begun := page.fresh && (page.column < indent || (page.column = indent && page.spaced))
  let page := if begun then page else page.putBreak '\n'
  { (List.replicate (indent - page.column) ' ').foldl put page with spaced := true, fresh := true }

/-- Begins a line at an indentation where a line break has just been written. -/
def resumeLine (page : Page) (indent : Nat) : Page :=
  if page.column = 0 then page.startLine indent else page

/-- Writes one character of a text that may go over several lines. -/
def putLines (indent : Nat) (page : Page) (c : Char) : Page :=
  if isBreak c then page.putBreak c
  else { (page.resumeLine indent).put c with fresh := false }

end Page

end RamlDoc.Yaml
