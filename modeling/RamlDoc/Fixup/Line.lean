import RamlDoc.Text.Lines
import RamlDoc.Text.Blank

/-!
# Lines of a document

What the text fix-ups see in a single line: its indentation, whether it is content at all, the key
and value of a mapping entry, and whether a value opens a block of lines that must not be touched.
The patterns of keys and decimals know ASCII blanks only; indentation knows all blanks and counts
bytes.
-/

namespace RamlDoc.Fixup

/-- The bytes of blanks at the start of a line. -/
def indentation (line : List Char) : Nat := Text.byteLength (line.takeWhile Text.isBlank)

/-- Whether a line is blank or a comment. -/
def isSkipped (line : List Char) : Bool :=
  match Text.trimStart line with
  | [] => true
  | c :: _ => c = '#'

/-- Whether a line without the blanks at its start is a sequence item. -/
def isItem (content : List Char) : Bool :=
  match content with
  | ['-'] => true
  | '-' :: ' ' :: _ => true
  | _ => false

/-- The text before the first colon that ends a key, and the text behind that colon. A key has at
least one character and no number sign; a colon ends it before a blank or the end. -/
def cutKey? (before : List Char) : List Char → Option (List Char × List Char)
  | [] => none
  | c :: rest =>
    if c = '#' then none
    else if c = ':' && !before.isEmpty && rest.head?.all Text.isAsciiBlank then
      some (before.reverse, rest)
    else cutKey? (c :: before) rest

/-- A text without ASCII blanks at both ends. -/
def trimAscii (cs : List Char) : List Char :=
  Text.dropTailWhile Text.isAsciiBlank (cs.dropWhile Text.isAsciiBlank)

/-- The key and the value of a line that is a mapping entry; the value may be empty. -/
def entry? (line : List Char) : Option (List Char × List Char) :=
  (cutKey? [] (line.dropWhile Text.isAsciiBlank)).map fun (key, rest) => (key, trimAscii rest)

/-- A text inside a pair of quotes, if it stands in one. -/
def insideQuotes? (quote : Char) (cs : List Char) : Option (List Char) :=
  (Text.afterStart? [quote] cs).bind (Text.beforeEnd? [quote])

/-- A key without blanks around it and without quotes. -/
def unquoted (key : List Char) : String :=
  let key := Text.trim key
  let inside := (insideQuotes? '"' key).orElse fun _ => insideQuotes? '\'' key
  String.ofList (inside.getD key)

/-- A value without the comment at its end. -/
def withoutComment : List Char → List Char
  | [] => []
  | c :: rest => if c = ' ' && rest.head? = some '#' then [] else c :: withoutComment rest

/-- Whether a value opens a block scalar, or a flow collection that the line does not close. -/
def opensBlock (value : List Char) : Bool :=
  let value := Text.trimEnd (withoutComment value)
  match value with
  | [] => false
  | c :: rest =>
    if c = '|' || c = '>' then rest.all fun d => d = '+' || d = '-' || d.isDigit
    else (c = '[' && value.getLast? ≠ some ']') || (c = '\x7b' && value.getLast? ≠ some '\x7d')

theorem head?_withoutComment {value : List Char} {c : Char}
    (h : (withoutComment value).head? = some c) : value.head? = some c := by
  cases value with
  | nil => exact h
  | cons first rest =>
    rw [withoutComment] at h
    split at h
    · cases h
    · exact h

/-- A value opens a block only with one of four characters. -/
theorem opensBlock_eq_false_of_head {value : List Char}
    (h : ∀ c ∈ value.head?, c ≠ '|' ∧ c ≠ '>' ∧ c ≠ '[' ∧ c ≠ '\x7b') :
    opensBlock value = false := by
  unfold opensBlock
  dsimp only
  split
  · rfl
  next c rest heq =>
    have hhead : (Text.trimEnd (withoutComment value)).head? = some c := by
      rw [heq, List.head?_cons]
    have hne := h c (head?_withoutComment (Text.head?_trimEnd hhead))
    simp [hne]

/-- The line of an entry whose value is two numbers with a comma between them, with the value in
double quotes and without blanks at its end. -/
def quotedDecimal? (line : List Char) : Option (List Char) :=
  let reversed := line.reverse.dropWhile Text.isAsciiBlank
  let after := reversed.takeWhile Char.isDigit
  match reversed.dropWhile Char.isDigit with
  | ',' :: rest =>
    let before := rest.takeWhile Char.isDigit
    let front := rest.dropWhile Char.isDigit
    let blanks := front.takeWhile Text.isAsciiBlank
    match front.dropWhile Text.isAsciiBlank with
    | ':' :: key =>
      match key.reverse.dropWhile Text.isAsciiBlank with
      | c :: _ =>
        if after.isEmpty || before.isEmpty || blanks.isEmpty || c = '-' || '#' ∈ key then none
        else
          some (front.reverse ++ '"' :: (before.reverse ++ ',' :: after.reverse) ++ ['"'])
      | [] => none
    | _ => none
  | _ => none

end RamlDoc.Fixup
