import RamlDoc.Text.Blank
import RamlDoc.Text.Lines
import RamlDoc.Yaml.Page
import RamlDoc.Yaml.Scalar

/-!
# Writing YAML

A tree as block YAML, indented by two spaces; a sequence that is the value of a mapping entry stands
at the indentation of the mapping. Strings are left unquoted where they read back as strings. Not
every tree has a written form (`isWritable`).
-/

namespace RamlDoc.Yaml.Writer

/-- The ways to write a scalar. -/
inductive Style where
  | plain
  | single
  | double
  | literal
deriving DecidableEq

/-- Whether the writer shows a character as itself. -/
def isPrintable (c : Char) : Bool :=
  let n := c.toNat
  n = 0xA || (0x20 ≤ n && n ≤ 0x7E) || (0xA0 ≤ n && n ≤ 0xFFFD && n ≠ 0xFEFF) || 0x10000 ≤ n

/-- Whether a text has two adjacent characters of which the first satisfies `p` and the second
`q`. -/
def hasPair (p q : Char → Bool) : List Char → Bool
  | a :: b :: rest => (p a && q b) || hasPair p q (b :: rest)
  | _ => false

/-- Whether a text begins or continues with an indicator of YAML, so that it cannot stand
unquoted. -/
def hasIndicator (cs : List Char) : Bool :=
  let blankOrEnd (c? : Option Char) : Bool := c?.all fun c => isSpace c || isBreak c
  let start := match cs with
    | [] => false
    | c :: rest =>
      c ∈ ['#', ',', '[', ']', '\x7b', '\x7d', '&', '*', '!', '|', '>', '\'', '"', '%', '@',
        '\x60'] ||
      (c ∈ ['?', ':', '-'] && blankOrEnd rest.head?)
  let boundary := cs.take 3 = ['-', '-', '-'] || cs.take 3 = ['.', '.', '.']
  let colon := cs.getLast? = some ':' || hasPair (· = ':') (fun c => isSpace c || isBreak c) cs
  let comment := hasPair (fun c => isSpace c || isBreak c) (· = '#') cs
  start || boundary || colon || comment

/-- Whether a text can be written between single quotes. -/
def fitsSingle (cs : List Char) : Bool :=
  cs.all isPrintable && !hasPair (· = ' ') isBreak cs && !hasPair isBreak (· = ' ') cs

/-- Whether a text can be written without quotes inside a block. -/
def fitsPlain (cs : List Char) : Bool :=
  fitsSingle cs && !cs.any isBreak && cs.head? ≠ some ' ' && cs.getLast? ≠ some ' ' &&
    !hasIndicator cs

/-- Whether a text can be written as a literal block. -/
def fitsLiteral (cs : List Char) : Bool :=
  !cs.isEmpty && cs.all isPrintable && !hasPair (· = ' ') isBreak cs && cs.getLast? ≠ some ' '

/-- Whether an unquoted string would be read as another kind of value. -/
def isAmbiguous (cs : List Char) : Bool :=
  match Scalar.plainValue? cs with
  | some (.string _) => Scalar.hasExtraZero cs
  | _ => true

/-- The style of a string. -/
def stringStyle (cs : List Char) : Style :=
  if '\n' ∈ cs then
    if fitsLiteral cs then .literal else .double
  else if !isAmbiguous cs && fitsPlain cs then .plain
  else if fitsSingle cs then .single
  else .double

/-- A number in a given count of hexadecimal digits, in upper case. -/
def hexText (count n : Nat) : List Char :=
  let digits := (Nat.toDigits 16 n).map Char.toUpper
  List.replicate (count - digits.length) '0' ++ digits

/-- How a character is written between double quotes. -/
def doubleQuotedChar (c : Char) : List Char :=
  let n := c.toNat
  if isPrintable c && !isBreak c && c ≠ '"' && c ≠ '\\' then [c]
  else
    match [(0x0, '0'), (0x7, 'a'), (0x8, 'b'), (0x9, 't'), (0xA, 'n'), (0xB, 'v'), (0xC, 'f'),
        (0xD, 'r'), (0x1B, 'e'), (0x22, '"'), (0x5C, '\\'), (0x85, 'N'), (0xA0, '_'),
        (0x2028, 'L'), (0x2029, 'P')].lookup n with
    | some letter => ['\\', letter]
    | none =>
      if n ≤ 0xFF then '\\' :: 'x' :: hexText 2 n
      else if n ≤ 0xFFFF then '\\' :: 'u' :: hexText 4 n
      else '\\' :: 'U' :: hexText 8 n

/-- What becomes of the breaks at the end of a literal block: a minus sign drops the one that the
writer has to add, a plus sign keeps empty lines. -/
def endSign (cs : List Char) : List Char :=
  match cs.reverse with
  | [] => ['-']
  | [c] => if isBreak c then ['+'] else ['-']
  | c :: d :: _ => if !isBreak c then ['-'] else if isBreak d then ['+'] else []

/-- Writes a literal block: the signs that give its indentation, if its first line does not show it,
and its end, then its lines. -/
def literal (indent : Nat) (cs : List Char) (page : Page) : Page :=
  let indentSign := if cs.head?.any fun c => c = ' ' || isBreak c then ['2'] else []
  let page := (page.word ('|' :: indentSign ++ endSign cs)).putBreak '\n'
  cs.foldl (Page.putLines indent) { page with spaced := true }

/-- Writes a text between single quotes, which are doubled inside. -/
def singleQuoted (indent : Nat) (cs : List Char) (page : Page) : Page :=
  let doubled := cs.flatMap fun c => if c = '\'' then ['\'', '\''] else [c]
  ((doubled.foldl (Page.putLines indent) (page.word ['\''])).resumeLine indent).glue ['\'']

/-- Writes a string, whose further lines stand at an indentation. -/
def string (indent : Nat) (cs : List Char) (page : Page) : Page :=
  match stringStyle cs with
  | .plain => page.word cs
  | .single => singleQuoted indent cs page
  | .double => page.word ('"' :: cs.flatMap doubleQuotedChar ++ ['"'])
  | .literal => literal indent cs page

/-- Whether a character stands for itself in a tag. -/
def isTagChar (c : Char) : Bool :=
  isNameChar c ||
    c ∈ [';', '/', '?', ':', '@', '&', '=', '+', '$', ',', '.', '~', '*', '\'', '(', ')', '[', ']']

/-- How a character is written in a tag: as itself or as its escaped bytes. -/
def tagChar (c : Char) : List Char :=
  if isTagChar c then [c]
  else (String.utf8EncodeChar c).flatMap fun byte => '%' :: hexText 2 byte.toNat

/-- A tag in full: its name behind an exclamation mark, unless the name begins with one. -/
def fullTag (name : String) : List Char :=
  match name.toList with
  | '!' :: rest => '!' :: rest
  | cs => '!' :: cs

/-- The text of a tag. A lone exclamation mark is written as a verbatim tag. -/
def tagText (name : String) : List Char :=
  match fullTag name with
  | '!' :: c :: rest => '!' :: (c :: rest).flatMap tagChar
  | cs => '!' :: '<' :: cs.flatMap tagChar ++ ['>']

/-- Whether a value can be written as a key before its colon: it is a scalar without line breaks or
an empty collection, and has at most a given number of bytes. -/
def fitsKey (bytes : Nat) : Tree → Bool
  | .null => 4 ≤ bytes
  | .bool b => (toString b).utf8ByteSize ≤ bytes
  | .number n => n.text.utf8ByteSize ≤ bytes
  | .string s => s.utf8ByteSize ≤ bytes && !s.toList.any isBreak
  | .sequence items => items.isEmpty
  | .mapping entries => entries.isEmpty
  | .tagged .. => false

/-- Whether a key, with its tag, can be written before its colon. -/
def isSimpleKey : Tree → Bool
  | .tagged tag value =>
    let length := Text.byteLength (fullTag tag)
    length ≤ 128 && fitsKey (128 - length) value
  | value => fitsKey 128 value

/-- The indentation of a block inside the one at an indentation, if it is inside any. -/
def innerIndent (outer : Option Nat) : Nat := (outer.map (· + 2)).getD 0

mutual

/-- Writes a value inside the block at an indentation. A sequence that is part of a mapping's entry
keeps the indentation of the mapping, unless it opens on a fresh line. -/
def value (outer : Option Nat) (inEntry : Bool) : Tree → Page → Page
  | .tagged tag v, page => value outer inEntry v (page.word (tagText tag))
  | .sequence [], page => page.word ['[', ']']
  | .sequence (item :: rest), page =>
    items (if inEntry && !page.fresh then outer.getD 0 else innerIndent outer) (item :: rest) page
  | .mapping [], page => page.word ['\x7b', '\x7d']
  | .mapping (entry :: rest), page => entries (innerIndent outer) (entry :: rest) page
  | .null, page => page.word "null".toList
  | .bool b, page => page.word (toString b).toList
  | .number n, page => page.word n.text.toList
  | .string s, page => string (outer.getD 0 + 2) s.toList page

/-- Writes the items of a sequence. -/
def items (indent : Nat) : List Tree → Page → Page
  | [], page => page
  | item :: rest, page =>
    items indent rest (value (some indent) false item ((page.startLine indent).mark '-'))

/-- Writes the entries of a mapping. -/
def entries (indent : Nat) : List (Tree × Tree) → Page → Page
  | [], page => page
  | (key, v) :: rest, page =>
    let page := page.startLine indent
    let page :=
      if isSimpleKey key then (value (some indent) true key page).glue [':']
      else ((value (some indent) true key (page.mark '?')).startLine indent).mark ':'
    entries indent rest (value (some indent) true v page)

end

/-- Whether a value begins like the single entry of a mapping that gives a tag: it has a tag or is a
mapping of one entry. -/
def looksTagged : Tree → Bool
  | .tagged .. => true
  | .mapping [_] => true
  | _ => false

mutual

/-- Whether a tree has a written form: in a mapping of one entry, unless a tag stands before it, the
key is neither tagged nor a mapping of one entry. -/
def isWritable (underTag : Bool) : Tree → Bool
  | .sequence items => areWritable items
  | .mapping entries =>
    (underTag || !(entries.length = 1 && entries.any fun entry => looksTagged entry.1)) &&
      areWritableEntries entries
  | .tagged _ value => !underTag && isWritable true value
  | .null | .bool _ | .number _ | .string _ => true

/-- Whether all trees of a list have written forms. -/
def areWritable : List Tree → Bool
  | [] => true
  | item :: rest => isWritable false item && areWritable rest

/-- Whether all trees in a list of entries have written forms. -/
def areWritableEntries : List (Tree × Tree) → Bool
  | [] => true
  | (key, value) :: rest =>
    isWritable false key && isWritable false value && areWritableEntries rest

end

/-- A tree as a document, if it has a written form. -/
def write? (tree : Tree) : Option String :=
  if isWritable false tree then
    some (String.ofList ((value none false tree Page.empty).startLine 0).text)
  else none

end RamlDoc.Yaml.Writer
