import RamlDoc.Yaml.Token.Scalar

/-!
# Scanning tokens

The scanner turns a text into tokens. It keeps the indentation of the open blocks and, for each
level of flow collections, the place where a key without a question mark may have begun. When a
colon follows such a place on the same line and not too far away, the token of the key is put in
there, and with it the start of a block mapping if the key is indented more than its block.
-/

namespace RamlDoc.Yaml

/-- A place where a key may have begun. -/
structure PossibleKey where
  /-- How many tokens come before it. -/
  position : Nat
  offset : Nat
  line : Nat
  column : Nat
  /-- Whether the line has to be a key, because it starts at the indentation of its block. -/
  required : Bool

/-- The state of the scanner. -/
structure Scanner where
  cursor : Cursor
  /-- The tokens found, last first. -/
  tokens : List Token
  /-- How many tokens these are. -/
  count : Nat
  /-- The indentation of the innermost block, and of those around it. -/
  indent : Int
  outerIndents : List Int
  /-- Whether a key without a question mark may begin here. -/
  keyAllowed : Bool
  /-- The possible key of the innermost flow level, and of those around it. -/
  possibleKey : Option PossibleKey
  outerKeys : List (Option PossibleKey)

namespace Scanner

/-- The scanner at the start of a text. -/
def start (text : List Char) : Scanner := ⟨Cursor.start text, [], 0, -1, [], true, none, []⟩

/-- Whether the scanner is inside a flow collection. -/
def inFlow (s : Scanner) : Bool := !s.outerKeys.isEmpty

/-- Adds a token. -/
def push (s : Scanner) (token : Token) : Scanner :=
  { s with tokens := token :: s.tokens, count := s.count + 1 }

/-- Puts a token in behind the first `position` tokens. -/
def insert (s : Scanner) (position : Nat) (token : Token) : Scanner :=
  let later := s.count - position
  { s with tokens := s.tokens.take later ++ token :: s.tokens.drop later, count := s.count + 1 }

/-- Moves the cursor. -/
def goto (s : Scanner) (cursor : Cursor) : Scanner := { s with cursor }

/-- Adds a token of a number of characters. -/
def pushMark (s : Scanner) (token : Token) (length : Nat) : Scanner :=
  (s.push token).goto (s.cursor.skip length)

/-- Opens a block at a column that is further right than the innermost block. -/
def openBlock (s : Scanner) (column : Nat) (token : Token) (position : Nat) : Scanner :=
  if s.inFlow || (column : Int) ≤ s.indent then s
  else { s.insert position token with indent := column, outerIndents := s.indent :: s.outerIndents }

/-- Closes the blocks further right than a column, given the blocks around the innermost. -/
def closeBlocksFrom (column : Int) : (outer : List Int) → Scanner → Scanner
  | [], s => s
  | indent :: outer, s =>
    if column < s.indent then
      closeBlocksFrom column outer
        { s.push .blockEnd with indent, outerIndents := outer }
    else s

/-- Closes the blocks further right than a column. -/
def closeBlocks (s : Scanner) (column : Int) : Scanner :=
  if s.inFlow then s else closeBlocksFrom column s.outerIndents s

/-- Gives up the possible key of the innermost level, which must not be required. -/
def dropKey (s : Scanner) : Except ReadError Scanner :=
  if s.possibleKey.any (·.required) then .error .missingColon
  else .ok { s with possibleKey := none }

/-- Notes that a key may begin here. -/
def noteKey (s : Scanner) : Except ReadError Scanner :=
  if s.keyAllowed then do
    let s ← s.dropKey
    let c := s.cursor
    let required := !s.inFlow && s.indent = c.column
    return { s with possibleKey := some ⟨s.count, c.offset, c.line, c.column, required⟩ }
  else .ok s

/-- A possible key, unless the line has ended or more than 1024 bytes have passed since; a required
key must not be given up. -/
def freshKey (c : Cursor) : Option PossibleKey → Except ReadError (Option PossibleKey)
  | none => .ok none
  | some key =>
    if key.line < c.line ∨ key.offset + 1024 < c.offset then
      if key.required then .error .missingColon else .ok none
    else .ok (some key)

/-- Gives up the possible keys that are out of reach. -/
def dropStaleKeys (s : Scanner) : Except ReadError Scanner := do
  let outerKeys ← s.outerKeys.mapM (freshKey s.cursor)
  let possibleKey ← freshKey s.cursor s.possibleKey
  return { s with possibleKey, outerKeys }

/-- Passes spaces, comments and line breaks up to the next token. A tab counts as space inside flow
collections and where no key may begin. A byte-order mark may open a line and takes a column. -/
def skipToToken : (fuel : Nat) → Scanner → Scanner
  | 0, s => s
  | fuel + 1, s =>
    let c := s.cursor
    let c := if c.column = 0 && c.sees '\ufeff' then c.skip 1 else c
    let tabs := s.inFlow || !s.keyAllowed
    let c := (c.skipWhile fun x => x = ' ' || (tabs && x = '\t')).skipComment
    if c.peek?.any isBreak then
      skipToToken fuel { s with cursor := c.skipBreak, keyAllowed := s.keyAllowed || !s.inFlow }
    else s.goto c

/-- Reads the name of an anchor or alias. -/
def readAnchor (c : Cursor) : Except ReadError (String × Cursor) :=
  let name := c.takeWhile isNameChar
  let c := c.skip name.length
  let delimited := c.blankAt 0 ||
    c.peek?.any fun x => x ∈ ['?', ':', ',', ']', '\x7d', '%', '@', '\x60']
  if name.isEmpty || !delimited then .error .malformedAnchor
  else .ok (String.ofList name, c)

/-- The length of a code point's encoding that begins with a given byte, and the bits it gives. -/
def leadByte? (byte : Nat) : Option (Nat × Nat) :=
  if byte < 0x80 then some (1, byte)
  else if 0xC0 ≤ byte ∧ byte < 0xE0 then some (2, byte % 0x20)
  else if 0xE0 ≤ byte ∧ byte < 0xF0 then some (3, byte % 0x10)
  else if 0xF0 ≤ byte ∧ byte < 0xF8 then some (4, byte % 0x08)
  else none

/-- The byte that a percent sign and two hexadecimal digits write. -/
def escapedByte? : List Char → Option (Nat × List Char)
  | '%' :: a :: b :: rest => (Scalar.digits? 16 [a, b]).map fun byte => (byte, rest)
  | _ => none

/-- The value of a code point from the escaped bytes behind its first. -/
def escapedTail? : (count value : Nat) → List Char → Option (Nat × List Char)
  | 0, value, rest => some (value, rest)
  | count + 1, value, rest =>
    match escapedByte? rest with
    | some (byte, rest) =>
      if 0x80 ≤ byte ∧ byte < 0xC0 then escapedTail? count (value * 0x40 + byte % 0x40) rest
      else none
    | none => none

/-- The character of a code point that is encoded in a number of bytes, if the code point is one of
a character and needs that many. -/
def encodedChar? (length n : Nat) : Option Char :=
  if n.isValidChar ∧ (Char.ofNat n).utf8Size = length then some (Char.ofNat n) else none

/-- The character that escaped bytes encode, if they encode one, and how many characters of the text
the escape takes. Bytes that do not even form a sequence of the announced length are refused. -/
def escapedChar? (cs : List Char) : Option (Option Char × Nat) :=
  match escapedByte? cs with
  | none => none
  | some (byte, rest) =>
    match leadByte? byte with
    | none => none
    | some (length, bits) =>
      (escapedTail? (length - 1) bits rest).map fun (n, _) => (encodedChar? length n, 3 * length)

/-- Whether a character may stand in a tag; the flow indicators may in a verbatim tag only. -/
def isTagChar (verbatim : Bool) (x : Char) : Bool :=
  isNameChar x ||
    x ∈ [';', '/', '?', ':', '@', '&', '=', '+', '$', '.', '%', '!', '~', '*', '\'', '(', ')'] ||
    (verbatim && x ∈ [',', '[', ']'])

/-- Reads the characters of a tag, given those read before with the last first. -/
def readTagChars (verbatim : Bool) :
    (fuel : Nat) → (before : TagText) → Cursor → Except ReadError (TagText × Cursor)
  | 0, before, c => .ok (before.reverse, c)
  | fuel + 1, before, c =>
    match c.peek? with
    | none => .ok (before.reverse, c)
    | some x =>
      if !isTagChar verbatim x then .ok (before.reverse, c)
      else if x = '%' then
        match escapedChar? c.rest with
        | some (y, count) => readTagChars verbatim fuel (y :: before) (c.skip count)
        | none => .error .malformedTag
      else readTagChars verbatim fuel (some x :: before) (c.skip 1)

/-- Reads the characters of a tag; where nothing comes before them there has to be one. An escaped
null ends the tag, and what follows it is passed. -/
def readTagText (verbatim : Bool) (head : List Char) (c : Cursor) :
    Except ReadError (TagText × Cursor) := do
  let (text, next) ← readTagChars verbatim c.rounds [] c
  if head.isEmpty && text.isEmpty then throw .malformedTag
  return (((head.drop 1).map some ++ text).takeWhile (· ≠ some '\x00'), next)

/-- Reads an exclamation mark, the name behind it and a second exclamation mark if there is one. -/
def readTagHandle (c : Cursor) : Except ReadError (List Char × Cursor) :=
  if !c.sees '!' then .error .malformedTag
  else
    let name := (c.skip 1).takeWhile isNameChar
    let c := c.skip (name.length + 1)
    if c.sees '!' then .ok ('!' :: name ++ ['!'], c.skip 1) else .ok ('!' :: name, c)

/-- Reads a tag: a verbatim one between angle brackets, one with a declared handle, or a local one.
A lone exclamation mark has no handle and is its own suffix. -/
def readTag (flow : Bool) (c : Cursor) : Except ReadError (Token × Cursor) := do
  let (handle, suffix, c) ←
    if c.rest[1]? = some '<' then do
      let (suffix, c) ← readTagText true [] (c.skip 2)
      if !c.sees '>' then throw .malformedTag
      pure ([], suffix, c.skip 1)
    else do
      let (handle, c) ← readTagHandle c
      if 1 < handle.length && handle.getLast? = some '!' then do
        let (suffix, c) ← readTagText false [] c
        pure (handle, suffix, c)
      else do
        let (suffix, c) ← readTagText false handle c
        pure (if suffix.isEmpty then ([], [some '!'], c) else (['!'], suffix, c))
  if !(flow && c.sees ',') && !c.blankAt 0 then throw .malformedTag
  return (.tag (String.ofList handle) suffix, c)

/-- Reads a number of a version: at most nine digits. -/
def readVersionNumber (c : Cursor) : Except ReadError (Nat × Cursor) :=
  let digits := c.takeWhile Char.isDigit
  if 9 < digits.length then .error .malformedDirective
  else
    match Scalar.digits? 10 digits with
    | some n => .ok (n, c.skip digits.length)
    | none => .error .malformedDirective

/-- Reads a directive from its percent sign to the end of its line. -/
def readDirective (c : Cursor) : Except ReadError (Token × Cursor) := do
  let c := c.skip 1
  let name := c.takeWhile isNameChar
  let c := c.skip name.length
  if name.isEmpty || !c.blankAt 0 then throw .malformedDirective
  let c := c.skipWhile isSpace
  let (token, c) ←
    if name = "YAML".toList then do
      let (major, c) ← readVersionNumber c
      if !c.sees '.' then throw .malformedDirective
      let (minor, c) ← readVersionNumber (c.skip 1)
      pure (Token.versionDirective major minor, c)
    else if name = "TAG".toList then do
      let (handle, c) ← readTagHandle c
      if handle ≠ ['!'] && !(1 < handle.length && handle.getLast? = some '!') then
        throw .malformedTag
      if !c.peek?.any isSpace then throw .malformedDirective
      let (expansion, c) ← readTagText true [] (c.skipWhile isSpace)
      if !c.blankAt 0 then throw .malformedDirective
      pure (Token.tagDirective (String.ofList handle) expansion, c)
    else throw .malformedDirective
  let c := (c.skipWhile isSpace).skipComment
  if !c.atLineEnd then throw .malformedDirective
  return (token, c.skipBreak)

/-- Adds the token of a flow collection's start and enters the collection. -/
def openFlow (s : Scanner) (token : Token) : Except ReadError Scanner := do
  let s ← s.noteKey
  return { s.pushMark token 1 with
    possibleKey := none, outerKeys := s.possibleKey :: s.outerKeys, keyAllowed := true }

/-- Adds the token of a flow collection's end and leaves the collection. -/
def closeFlow (s : Scanner) (token : Token) : Except ReadError Scanner := do
  let s ← s.dropKey
  let s := match s.outerKeys with
    | key :: outerKeys => { s with possibleKey := key, outerKeys }
    | [] => s
  return { s.pushMark token 1 with keyAllowed := false }

/-- Adds the token of a document boundary or directive, which closes all blocks. -/
def leaveBlocks (s : Scanner) : Except ReadError Scanner := do
  let s ← (s.closeBlocks (-1)).dropKey
  return { s with keyAllowed := false }

/-- Adds the token of a comma in a flow collection. -/
def addFlowEntry (s : Scanner) : Except ReadError Scanner := do
  let s ← s.dropKey
  return { s.pushMark .flowEntry 1 with keyAllowed := true }

/-- Adds the token of a sequence entry. -/
def addBlockEntry (s : Scanner) : Except ReadError Scanner := do
  if !s.inFlow && !s.keyAllowed then throw .misplacedEntry
  let s := s.openBlock s.cursor.column .blockSequenceStart s.count
  let s ← s.dropKey
  return { s.pushMark .blockEntry 1 with keyAllowed := true }

/-- Adds the token of a key with a question mark. -/
def addKey (s : Scanner) : Except ReadError Scanner := do
  if !s.inFlow && !s.keyAllowed then throw .misplacedKey
  let s := s.openBlock s.cursor.column .blockMappingStart s.count
  let s ← s.dropKey
  return { s.pushMark .key 1 with keyAllowed := !s.inFlow }

/-- Adds the token of a value, and the tokens of its key if one may have begun before. -/
def addValue (s : Scanner) : Except ReadError Scanner :=
  match s.possibleKey with
  | some key =>
    let s := s.insert key.position .key
    let s := s.openBlock key.column .blockMappingStart key.position
    .ok { s.pushMark .value 1 with possibleKey := none, keyAllowed := false }
  | none => do
    if !s.inFlow && !s.keyAllowed then throw .misplacedValue
    let s := s.openBlock s.cursor.column .blockMappingStart s.count
    return { s.pushMark .value 1 with keyAllowed := !s.inFlow }

/-- Adds the token of an alias or anchor. -/
def addAnchor (s : Scanner) (token : String → Token) : Except ReadError Scanner := do
  let s ← s.noteKey
  let (name, c) ← readAnchor (s.cursor.skip 1)
  return { (s.push (token name)).goto c with keyAllowed := false }

/-- Adds the token of a tag. -/
def addTag (s : Scanner) : Except ReadError Scanner := do
  let s ← s.noteKey
  let (token, c) ← readTag s.inFlow s.cursor
  return { (s.push token).goto c with keyAllowed := false }

/-- Adds the token of a block scalar. -/
def addBlockScalar (s : Scanner) (literal : Bool) : Except ReadError Scanner := do
  let s ← s.dropKey
  let scalar ← Block.read literal s.indent s.cursor
  return { (s.push (.scalar scalar.text false)).goto scalar.cursor with keyAllowed := true }

/-- Adds the token of a quoted scalar. -/
def addQuotedScalar (s : Scanner) (single : Bool) : Except ReadError Scanner := do
  let s ← s.noteKey
  let scalar ← Quoted.read single s.cursor
  return { (s.push (.scalar scalar.text false)).goto scalar.cursor with keyAllowed := false }

/-- Adds the token of an unquoted scalar. Behind one that is followed by a line break a key may
begin. -/
def addPlainScalar (s : Scanner) : Except ReadError Scanner := do
  let s ← s.noteKey
  let scalar ← Plain.read s.inFlow (s.indent + 1).toNat s.cursor
  return { (s.push (.scalar scalar.text true)).goto scalar.cursor with
    keyAllowed := scalar.broken }

/-- Whether an unquoted scalar can begin with the next characters. -/
def startsPlain (s : Scanner) : Bool :=
  let c := s.cursor
  match c.peek? with
  | none => false
  | some x =>
    if x = '-' then !(c.rest[1]?.any isSpace)
    else if x = '?' || x = ':' then !s.inFlow && !c.blankAt 1
    else
      !(isSpace x || isBreak x) &&
        x ∉ [',', '[', ']', '\x7b', '\x7d', '#', '&', '*', '!', '|', '>', '\'', '"', '%', '@',
          '\x60']

/-- Adds the token that begins with a given next character. -/
def addToken (s : Scanner) (x : Char) : Except ReadError Scanner :=
  let c := s.cursor
  if c.column = 0 && x = '%' then do
    let s ← s.leaveBlocks
    let (token, c) ← readDirective s.cursor
    return (s.push token).goto c
  else if c.atBoundary '-' then return (← s.leaveBlocks).pushMark .documentStart 3
  else if c.atBoundary '.' then return (← s.leaveBlocks).pushMark .documentEnd 3
  else if x = '[' then s.openFlow .flowSequenceStart
  else if x = '\x7b' then s.openFlow .flowMappingStart
  else if x = ']' then s.closeFlow .flowSequenceEnd
  else if x = '\x7d' then s.closeFlow .flowMappingEnd
  else if x = ',' then s.addFlowEntry
  else if x = '-' && c.blankAt 1 then s.addBlockEntry
  else if x = '?' && (s.inFlow || c.blankAt 1) then s.addKey
  else if x = ':' && (s.inFlow || c.blankAt 1) then s.addValue
  else if x = '*' then s.addAnchor .alias
  else if x = '&' then s.addAnchor .anchor
  else if x = '!' then s.addTag
  else if x = '|' && !s.inFlow then s.addBlockScalar true
  else if x = '>' && !s.inFlow then s.addBlockScalar false
  else if x = '\'' then s.addQuotedScalar true
  else if x = '"' then s.addQuotedScalar false
  else if s.startsPlain then s.addPlainScalar
  else .error (.unexpectedCharacter x)

/-- Adds the end of the text, which closes all blocks. -/
def finish (s : Scanner) : Except ReadError (List Token) := do
  let s ← s.leaveBlocks
  return (s.push .streamEnd).tokens.reverse

/-- Scans up to the end of the text. Each round passes at least one character. -/
def run : (fuel : Nat) → Scanner → Except ReadError (List Token)
  | 0, s => s.finish
  | fuel + 1, s => do
    let s := s.skipToToken s.cursor.rounds
    let s ← s.dropStaleKeys
    let s := s.closeBlocks s.cursor.column
    match s.cursor.peek? with
    | none => s.finish
    | some x => run fuel (← s.addToken x)

end Scanner

/-- The tokens of a text. -/
def scan (text : List Char) : Except ReadError (List Token) :=
  if text.all isAllowed then (Scanner.start text).run (text.length + 1)
  else .error .controlCharacter

end RamlDoc.Yaml
