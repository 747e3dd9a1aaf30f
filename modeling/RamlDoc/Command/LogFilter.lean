import RamlDoc.Command.LogRecord
import RamlDoc.Text.Blank
import RamlDoc.Text.Lines
import RamlDoc.Text.Lowercase

/-!
# Log filters

A filter is a list of directives with commas between them. A directive gives a level of detail to the
records of some targets, of all targets, or to records within a span; the most specific directive
that cares about a record decides. There are no spans here, so directives with a span are read and
never decide.

A directive is read character by character. The blanks at the start of a directive are passed over
while reading, but its parts are cut from the text with the blanks, so such blanks shift the parts.
-/

namespace RamlDoc.Command

/-- A directive of a filter. -/
structure Directive where
  /-- The most detail that is shown; zero shows nothing. -/
  detail : Nat
  /-- How the target of a record must begin. -/
  target : Option String
  /-- The span that a record must be in. -/
  span : Option String
  /-- The fields that a record must have; with a value, in a span. -/
  fields : List String
deriving DecidableEq, Repr

namespace Directive

/-- The number that a text stands for. -/
def number? (text : List Char) : Option Nat :=
  let digits := (Text.afterStart? ['+'] text).getD text
  if digits.isEmpty || !digits.all Char.isDigit then none
  else some (digits.foldl (fun n digit => 10 * n + (digit.toNat - '0'.toNat)) 0)

/-- The level of detail that a text names, by a number or by a word in any ASCII case. -/
def detail? (text : List Char) : Option Nat :=
  match number? text with
  | some n => if n ≤ 5 then some n else none
  | none =>
    let word := (String.ofList text).toUpper
    if word = "OFF" then some 0
    else (Level.all.find? fun level => level.name = word).map Level.detail

/-- How far a directive has been read. Parts are given by the position at which they start. -/
inductive State where
  | start
  | levelOrTarget (first : Nat)
  | span (first : Nat)
  | field (first : Nat)
  | fields
  | target
  | level (first : Nat)
deriving DecidableEq, Repr

/-- The directive that shows everything. -/
def everything : Directive := ⟨5, none, none, []⟩

/-- The part of a text between two positions. -/
def part (text : List Char) (first last : Nat) : List Char := (text.take last).drop first

/-- Whether a directive may start with a character: a letter or digit, also beyond ASCII, or one of
three marks. -/
def isStart (c : Char) : Bool :=
  c.isAlphanum || c = '-' || c = ':' || c = '_' || (0x80 ≤ c.toNat && !Text.isBlank c)

/-- Reads on by the character at a position. -/
def step (text : List Char) (state : State) (found : Directive) (position : Nat) (c : Char) :
    Option (State × Directive) :=
  match state with
  | .start =>
    if c = '[' then some (.span (position + 1), found)
    else if isStart c then some (.levelOrTarget position, found)
    else none
  | .levelOrTarget first =>
    let target := some (String.ofList (part text first position))
    if c = '=' then some (.level (position + 1), { found with target })
    else if c = '[' then some (.span (position + 1), { found with target })
    else some (state, found)
  | .target => if c = '=' then some (.level (position + 1), found) else none
  | .span first =>
    let name := part text first position
    if c = ']' then some (.target, { found with span := some (String.ofList name) })
    else if c = '\x7b' then
      some (.field (position + 1),
        { found with span := if name.isEmpty then none else some (String.ofList name) })
    else some (state, found)
  | .field first =>
    if c = '\x7d' then
      let field := part text first position
      if field.isEmpty then none
      else some (.fields, { found with fields := found.fields ++ [String.ofList field] })
    else some (state, found)
  | .fields => if c = ']' then some (.target, found) else none
  | .level _ => some (state, found)

/-- Reads a directive to its end. -/
def finish (text : List Char) : State → Directive → Option Directive
  | .levelOrTarget first, found =>
    match detail? (text.drop first) with
    | some detail => some { found with detail, target := none }
    | none => some { found with target := some (String.ofList (text.drop first)) }
  | .level first, found =>
    if (text.drop first).isEmpty then some found
    else (detail? (text.drop first)).map fun detail => { found with detail }
  | .target, found => some found
  | _, _ => none

/-- Reads a directive from a state on. -/
def readFrom (text : List Char) (state : State) (found : Directive) (position : Nat) :
    List Char → Option Directive
  | [] => finish text state found
  | c :: rest =>
    match step text state found position c with
    | some (state, found) => readFrom text state found (position + 1) rest
    | none => none

/-- Reads a directive. -/
def read? (text : List Char) : Option Directive :=
  readFrom text .start everything 0 (Text.trim text)

/-- Whether a field is wanted with a value. -/
def hasValue (field : String) : Bool := '=' ∈ field.toList

/-- Whether a directive can decide about a record outside all spans. -/
def isStatic (directive : Directive) : Bool :=
  directive.span.isNone && !directive.fields.any hasValue

/-- Whether a directive cares about a record. -/
def cares (directive : Directive) (record : LogRecord) : Bool :=
  (directive.target.all fun target =>
    (Text.afterStart? target.toList record.target.toList).isSome) &&
    directive.fields.all fun field => field ∈ record.names

/-- Whether a directive is more specific than another, or as specific and later by name. -/
def precedes (first second : Directive) : Bool :=
  let length (directive : Directive) : Nat :=
    (directive.target.map fun target => target.utf8ByteSize + 1).getD 0
  if length first ≠ length second then length second < length first
  else if first.fields.length ≠ second.fields.length then
    second.fields.length < first.fields.length
  else second.fields < first.fields

end Directive

/-- A filter of log records. -/
abbrev LogFilter := List Directive

namespace LogFilter

/-- Reads a filter. -/
def read? (text : String) : Option LogFilter :=
  ((Text.splitOn ',' text.toList).filter fun part => !part.isEmpty).mapM Directive.read?

/-- The more specific of two directives; of equal ones the later. -/
def choose (best : Option Directive) (next : Directive) : Option Directive :=
  match best with
  | none => some next
  | some best => if best.precedes next then some best else some next

/-- The directive that decides about a record. -/
def deciding? (filter : LogFilter) (record : LogRecord) : Option Directive :=
  (filter.filter fun directive => directive.isStatic && directive.cares record).foldl choose none

/-- Whether a record is shown. Without directives only errors are. -/
def shows (filter : LogFilter) (record : LogRecord) : Bool :=
  match filter with
  | [] => record.level = .error
  | filter => (filter.deciding? record).any fun directive => record.level.detail ≤ directive.detail

end LogFilter

/-- The forms of log records. -/
inductive LogFormat where
  | json
  | pretty
deriving DecidableEq, Repr

namespace LogFormat

/-- The name of a log format. -/
def name : LogFormat → String
  | .json => "Json"
  | .pretty => "Pretty"

/-- The log format with a given name, in any case. -/
def ofName? (s : String) : Option LogFormat :=
  match Text.lowercase s with
  | "json" => some .json
  | "pretty" => some .pretty
  | _ => none

end LogFormat

end RamlDoc.Command
