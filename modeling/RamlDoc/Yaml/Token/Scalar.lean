import RamlDoc.Yaml.Token
import RamlDoc.Yaml.Scalar

/-!
# Scanning scalars

The three families of scalars: unquoted, quoted and block. Inside an unquoted or quoted scalar a gap
of spaces and line breaks is folded: a single break becomes a space, several breaks lose the first.
A block scalar keeps its lines, or folds those that do not start with a space.
-/

namespace RamlDoc.Yaml

/-- A run of spaces and line breaks inside a scalar. -/
structure Gap where
  /-- The spaces before the first line break, last first. -/
  spaces : List Char
  /-- The first line break. -/
  firstBreak : List Char
  /-- The line breaks after the first. -/
  moreBreaks : List Char
  /-- Whether a line break has been passed. -/
  broken : Bool

namespace Gap

/-- The gap that holds nothing. -/
def empty : Gap := ⟨[], [], [], false⟩

/-- What a gap contributes to the text of its scalar. -/
def folded (gap : Gap) : List Char :=
  if gap.broken then
    if gap.firstBreak = ['\n'] then
      if gap.moreBreaks.isEmpty then [' '] else gap.moreBreaks
    else gap.firstBreak ++ gap.moreBreaks
  else gap.spaces.reverse

/-- Reads the rest of a gap. Where the indentation of continued lines matters, a tab left of it is
refused. -/
def read (indent? : Option Nat) : (fuel : Nat) → Gap → Cursor → Except ReadError (Gap × Cursor)
  | 0, gap, c => .ok (gap, c)
  | fuel + 1, gap, c =>
    match c.peek? with
    | none => .ok (gap, c)
    | some x =>
      if isSpace x then
        if gap.broken then
          if x = '\t' && (indent?.any fun indent => c.column < indent) then
            .error .tabInIndentation
          else read indent? fuel gap (c.skip 1)
        else read indent? fuel { gap with spaces := x :: gap.spaces } (c.skip 1)
      else if isBreak x then
        let (text, c) := c.readBreak
        if gap.broken then
          read indent? fuel { gap with moreBreaks := gap.moreBreaks ++ text } c
        else read indent? fuel ⟨[], text, [], true⟩ c
      else .ok (gap, c)

end Gap

/-- A scanned scalar: its text, whether a line break was passed at its end, and the cursor behind
it. -/
structure ScannedScalar where
  text : List Char
  broken : Bool
  cursor : Cursor

namespace Plain

/-- Whether a character ends an unquoted scalar inside a flow collection. -/
def isFlowIndicator (x : Char) : Bool :=
  x = ',' || x = '[' || x = ']' || x = '\x7b' || x = '\x7d'

/-- How many of the next characters belong to an unquoted scalar without a gap. In a flow collection
a colon just before an indicator is refused. -/
def runLength (flow : Bool) : List Char → Except ReadError Nat
  | [] => .ok 0
  | x :: rest =>
    if isSpace x || isBreak x then .ok 0
    else if flow && x = ':' && rest.head?.any (fun y => isFlowIndicator y || y = '?') then
      .error .unexpectedColon
    else if x = ':' && rest.head?.all (fun y => isSpace y || isBreak y) then .ok 0
    else if flow && isFlowIndicator x then .ok 0
    else (runLength flow rest).map (· + 1)

/-- Reads an unquoted scalar, given what is read of it with the last character first and the gap
behind that. The text ends before a comment, a colon that marks a value, a document boundary, an
indicator of a flow collection, or a line that is not indented enough. -/
def readFrom (flow : Bool) (indent : Nat) :
    (fuel : Nat) → (before : List Char) → Gap → Cursor → Except ReadError ScannedScalar
  | 0, before, gap, c => .ok ⟨before.reverse, gap.broken, c⟩
  | fuel + 1, before, gap, c => do
    if c.atBoundary '-' || c.atBoundary '.' || c.sees '#' then
      return ⟨before.reverse, gap.broken, c⟩
    let count ← runLength flow c.rest
    let (before, gap) :=
      if count = 0 then (before, gap)
      else ((c.rest.take count).reverse ++ (gap.folded.reverse ++ before), Gap.empty)
    let c := c.skip count
    match c.peek? with
    | some x =>
      if isSpace x || isBreak x then
        let (gap, c) ← gap.read (some indent) c.rounds c
        if !flow && c.column < indent then return ⟨before.reverse, gap.broken, c⟩
        readFrom flow indent fuel before gap c
      else return ⟨before.reverse, gap.broken, c⟩
    | none => return ⟨before.reverse, gap.broken, c⟩

/-- Reads an unquoted scalar. -/
def read (flow : Bool) (indent : Nat) (c : Cursor) : Except ReadError ScannedScalar :=
  readFrom flow indent c.rounds [] Gap.empty c

end Plain

namespace Quoted

/-- The number of hexadecimal digits behind an escape letter that is followed by some. -/
def escapeDigits? (x : Char) : Option Nat :=
  if x = 'x' then some 2 else if x = 'u' then some 4 else if x = 'U' then some 8 else none

/-- The character that an escape letter stands for by itself. -/
def escapeChar? (x : Char) : Option Char :=
  match x with
  | '0' => some '\x00'
  | 'a' => some '\x07'
  | 'b' => some '\x08'
  | 't' | '\t' => some '\t'
  | 'n' => some '\n'
  | 'v' => some '\x0b'
  | 'f' => some '\x0c'
  | 'r' => some '\r'
  | 'e' => some '\x1b'
  | ' ' => some ' '
  | '"' => some '"'
  | '/' => some '/'
  | '\\' => some '\\'
  | 'N' => some '\u0085'
  | '_' => some '\u00a0'
  | 'L' => some '\u2028'
  | 'P' => some '\u2029'
  | _ => none

/-- The character that an escape sequence stands for, and how many characters the sequence takes
behind its backslash. -/
def escape? (afterBackslash : List Char) : Option (Char × Nat) :=
  match afterBackslash with
  | [] => none
  | x :: rest =>
    match escapeDigits? x with
    | some count =>
      let digits := rest.take count
      if digits.length < count then none
      else
        match Scalar.digits? 16 digits with
        | some n => if n.isValidChar then some (Char.ofNat n, count + 1) else none
        | none => none
    | none => (escapeChar? x).map fun y => (y, 1)

/-- What stopped a run of characters in a quoted scalar: an escaped line break, or a quote, a
space, a break or the end. -/
inductive Stop where
  | escapedBreak
  | other
deriving DecidableEq

/-- Reads the characters of a quoted scalar up to the next gap or its end. -/
def readRun (single : Bool) :
    (fuel : Nat) → (before : List Char) → Cursor → Except ReadError (List Char × Stop × Cursor)
  | 0, before, c => .ok (before, .other, c)
  | fuel + 1, before, c =>
    match c.rest with
    | [] => .ok (before, .other, c)
    | x :: rest =>
      if isSpace x || isBreak x then .ok (before, .other, c)
      else if single then
        if x = '\'' then
          if rest.head? = some '\'' then readRun single fuel ('\'' :: before) (c.skip 2)
          else .ok (before, .other, c)
        else readRun single fuel (x :: before) (c.skip 1)
      else if x = '"' then .ok (before, .other, c)
      else if x = '\\' then
        if rest.head?.any isBreak then .ok (before, .escapedBreak, (c.skip 1).skipBreak)
        else
          match escape? rest with
          | some (y, count) => readRun single fuel (y :: before) (c.skip (count + 1))
          | none => .error .malformedEscape
      else readRun single fuel (x :: before) (c.skip 1)

/-- Reads a quoted scalar behind its opening quote, given what is read of it with the last character
first. -/
def readFrom (single : Bool) :
    (fuel : Nat) → (before : List Char) → Cursor → Except ReadError ScannedScalar
  | 0, _, _ => .error .unclosedQuote
  | fuel + 1, before, c => do
    if c.atBoundary '-' || c.atBoundary '.' then throw .boundaryInQuote
    if c.rest.isEmpty then throw .unclosedQuote
    let (before, stop, c) ← readRun single c.rounds before c
    if c.sees (if single then '\'' else '"') then
      return ⟨before.reverse, false, c.skip 1⟩
    let gap : Gap := { Gap.empty with broken := stop = .escapedBreak }
    let (gap, c) ← gap.read none c.rounds c
    readFrom single fuel (gap.folded.reverse ++ before) c

/-- Reads a quoted scalar from its opening quote on. -/
def read (single : Bool) (c : Cursor) : Except ReadError ScannedScalar :=
  readFrom single c.rounds [] (c.skip 1)

end Quoted

namespace Block

/-- What becomes of the line breaks at the end of a block scalar. -/
inductive Chomping where
  /-- All are dropped. -/
  | strip
  /-- The first is kept. -/
  | clip
  /-- All are kept. -/
  | keep
deriving DecidableEq

/-- The chomping that a sign asks for. -/
def chomping? (c : Cursor) : Option Chomping :=
  if c.sees '+' then some .keep else if c.sees '-' then some .strip else none

/-- The indentation that a digit asks for; zero is refused. -/
def increment? (c : Cursor) : Except ReadError (Option Nat) :=
  match c.peek? with
  | some x =>
    if x = '0' then .error .malformedBlockHeader
    else if x.isDigit then .ok (some (x.toNat - '0'.toNat))
    else .ok none
  | none => .ok none

/-- Reads the two signs behind the indicator of a block scalar, in either order. -/
def readSigns (c : Cursor) : Except ReadError (Chomping × Option Nat × Cursor) :=
  match chomping? c with
  | some chomping => do
    let c := c.skip 1
    let increment ← increment? c
    return (chomping, increment, if increment.isSome then c.skip 1 else c)
  | none => do
    let increment ← increment? c
    if increment.isNone then return (.clip, none, c)
    let c := c.skip 1
    match chomping? c with
    | some chomping => return (chomping, increment, c.skip 1)
    | none => return (.clip, increment, c)

/-- Reads the line that opens a block scalar: its signs, then at most a comment. -/
def readHeader (c : Cursor) : Except ReadError (Chomping × Option Nat × Cursor) := do
  let (chomping, increment, c) ← readSigns (c.skip 1)
  let c := (c.skipWhile isSpace).skipComment
  if !c.atLineEnd then throw .malformedBlockHeader
  return (chomping, increment, c.skipBreak)

/-- Reads the indentation of the next line and the breaks of empty lines before it. While the
indentation is not known all spaces are passed, and the greatest column reached is kept. -/
def readBreaks (indent : Nat) :
    (fuel : Nat) → (breaks : List Char) → (deepest : Nat) → Cursor →
      Except ReadError (List Char × Nat × Cursor)
  | 0, breaks, deepest, c => .ok (breaks, deepest, c)
  | fuel + 1, breaks, deepest, c =>
    let spaces := c.takeWhile (· = ' ')
    let c := c.skip (if indent = 0 then spaces.length else min spaces.length (indent - c.column))
    let deepest := max deepest c.column
    if (indent = 0 || c.column < indent) && c.sees '\t' then .error .tabInIndentation
    else if c.peek?.any isBreak then
      let (text, c) := c.readBreak
      readBreaks indent fuel (breaks ++ text) deepest c
    else .ok (breaks, deepest, c)

/-- The text of a block scalar read so far. -/
structure Content where
  /-- The text, last character first. -/
  before : List Char
  /-- The line break behind it. -/
  lastBreak : List Char
  /-- The breaks of empty lines behind that. -/
  moreBreaks : List Char
  /-- Whether the last line starts with a space. -/
  spaced : Bool

/-- The text with the pending breaks before a next line: in a folded scalar, between two lines
neither of which starts with a space, the break becomes a space or gives way to the empty lines. -/
def Content.joined (literal nextSpaced : Bool) (content : Content) : List Char :=
  let lead :=
    if !literal && content.lastBreak = ['\n'] && !content.spaced && !nextSpaced then
      if content.moreBreaks.isEmpty then [' '] else []
    else content.lastBreak
  content.moreBreaks.reverse ++ (lead.reverse ++ content.before)

/-- Reads the lines of a block scalar that stand at its indentation. -/
def readLines (literal : Bool) (indent : Nat) :
    (fuel : Nat) → Content → Cursor → Except ReadError (Content × Cursor)
  | 0, content, c => .ok (content, c)
  | fuel + 1, content, c => do
    if c.column ≠ indent || c.rest.isEmpty then return (content, c)
    let nextSpaced := c.peek?.any isSpace
    let before := content.joined literal nextSpaced
    let line := c.takeWhile fun x => !isBreak x
    let (lastBreak, c) := (c.skip line.length).readBreak
    let (moreBreaks, _, c) ← readBreaks indent c.rounds [] 0 c
    readLines literal indent fuel ⟨line.reverse ++ before, lastBreak, moreBreaks, nextSpaced⟩ c

/-- Reads a block scalar from its indicator on, inside a block of a given indentation. -/
def read (literal : Bool) (parent : Int) (c : Cursor) : Except ReadError ScannedScalar := do
  let (chomping, increment, c) ← readHeader c
  let known := match increment with
    | some n => if 0 ≤ parent then parent.toNat + n else n
    | none => 0
  let (breaks, deepest, c) ← readBreaks known c.rounds [] 0 c
  let indent := if known = 0 then max (max deepest (parent + 1).toNat) 1 else known
  let (content, c) ← readLines literal indent c.rounds ⟨[], [], breaks, false⟩ c
  let ending := match chomping with
    | .strip => []
    | .clip => content.lastBreak
    | .keep => content.lastBreak ++ content.moreBreaks
  return ⟨content.before.reverse ++ ending, true, c⟩

end Block

end RamlDoc.Yaml
