import RamlDoc.Text.Blank
import RamlDoc.Yaml.Tree

/-!
# The value of a scalar

An unquoted scalar is null, a boolean, an integer, a floating-point number or else a string, in this
order of preference. Integers are decimal, or hexadecimal, octal or binary behind `0x`, `0o`, `0b`;
a decimal with a superfluous zero in front is no number at all. An integer that needs more than 64
bits but not more than 128 is refused; a longer one is read as a floating-point number. A quoted
scalar is a string. The core tags ask for one kind and refuse every other text.
-/

namespace RamlDoc.Yaml.Scalar

/-- The value of a digit in bases up to sixteen. -/
def digitValue? (c : Char) : Option Nat :=
  if '0' ≤ c ∧ c ≤ '9' then some (c.toNat - '0'.toNat)
  else if 'a' ≤ c ∧ c ≤ 'f' then some (c.toNat - 'a'.toNat + 10)
  else if 'A' ≤ c ∧ c ≤ 'F' then some (c.toNat - 'A'.toNat + 10)
  else none

/-- The number that digits of a base write behind the digits of `value`. -/
def digitsAfter? (base value : Nat) : List Char → Option Nat
  | [] => some value
  | c :: cs =>
    match digitValue? c with
    | some d => if d < base then digitsAfter? base (value * base + d) cs else none
    | none => none

/-- The number that a nonempty text of digits of a base writes. -/
def digits? (base : Nat) (cs : List Char) : Option Nat :=
  if cs.isEmpty then none else digitsAfter? base 0 cs

/-- Whether a text is a decimal, signed or not, with a superfluous zero in front. -/
def hasExtraZero (cs : List Char) : Bool :=
  let unsigned := match cs with
    | '-' :: rest | '+' :: rest => rest
    | _ => cs
  match unsigned with
  | '0' :: c :: rest => (c :: rest).all Char.isDigit
  | _ => false

/-- The natural number that digits write, with a base mark or in base ten. -/
def natural? (cs : List Char) (extraZero : Bool) : Option Nat :=
  let marked := match cs with
    | '0' :: 'x' :: rest => digits? 16 rest
    | '0' :: 'o' :: rest => digits? 8 rest
    | '0' :: 'b' :: rest => digits? 2 rest
    | _ => none
  match marked with
  | some n => some n
  | none => if extraZero then none else digits? 10 cs

/-- The integer that a text writes, of any size. -/
def integer? (cs : List Char) : Option Int :=
  match cs with
  | '-' :: rest => (natural? rest (hasExtraZero cs)).map fun n => -(n : Int)
  | '+' :: rest => (natural? rest (hasExtraZero cs)).map Int.ofNat
  | _ => (natural? cs (hasExtraZero cs)).map Int.ofNat

/-- The power of ten that follows the digits of a number: nothing, or the letter `e`, a sign and
digits. -/
def power? (cs : List Char) : Option Int :=
  match cs with
  | [] => some 0
  | e :: rest =>
    if e = 'e' ∨ e = 'E' then
      match rest with
      | '-' :: digits => (digits? 10 digits).map fun n => -(n : Int)
      | '+' :: digits => (digits? 10 digits).map Int.ofNat
      | digits => (digits? 10 digits).map Int.ofNat
    else none

/-- The finite value of a decimal fraction: digits with a point somewhere, at least one digit, and
a power of ten. -/
def fraction? (negative : Bool) (cs : List Char) : Option Binary64 :=
  let whole := cs.takeWhile Char.isDigit
  let rest := cs.dropWhile Char.isDigit
  let (part, rest) := match rest with
    | '.' :: rest => (rest.takeWhile Char.isDigit, rest.dropWhile Char.isDigit)
    | _ => ([], rest)
  match digits? 10 (whole ++ part), power? rest with
  | some digits, some power =>
    let value := Binary64.ofDecimal negative digits (power - part.length)
    if value.isFinite then some value else none
  | _, _ => none

/-- The floating-point number that a text writes. -/
def float? (cs : List Char) : Option Binary64 :=
  let unsigned := match cs with
    | '+' :: rest => rest
    | _ => cs
  if unsigned ∈ [".inf".toList, ".Inf".toList, ".INF".toList] then some (.infinite false)
  else if cs ∈ ["-.inf".toList, "-.Inf".toList, "-.INF".toList] then some (.infinite true)
  else if cs ∈ [".nan".toList, ".NaN".toList, ".NAN".toList] then some .nan
  else
    match cs with
    | '-' :: rest => fraction? true rest
    | _ => fraction? false unsigned

/-- Whether a text spells null. -/
def isNullText (cs : List Char) : Bool :=
  cs ∈ ["null".toList, "Null".toList, "NULL".toList, "~".toList]

/-- The boolean that a text spells. -/
def bool? (cs : List Char) : Option Bool :=
  if cs ∈ ["true".toList, "True".toList, "TRUE".toList] then some true
  else if cs ∈ ["false".toList, "False".toList, "FALSE".toList] then some false
  else none

/-- How a text fares as an integer. -/
inductive IntegerText where
  /-- It is no integer, or one of more than 128 bits. -/
  | none
  /-- It is an integer that a tree can hold. -/
  | fits (value : Int)
  /-- It is an integer of more than 64 and at most 128 bits. -/
  | tooLarge

/-- The integer that a text writes, with the limits on its size. -/
def integerText (cs : List Char) : IntegerText :=
  match integer? cs with
  | .none => .none
  | some n =>
    if -(1 <<< 63 : Nat) ≤ n ∧ n < (1 <<< 64 : Nat) then .fits n
    else if -(1 <<< 127 : Nat) ≤ n ∧ n < (1 <<< 128 : Nat) then .tooLarge
    else .none

/-- The value of an unquoted scalar, or nothing if its integer is refused. -/
def plainValue? (cs : List Char) : Option Tree :=
  if cs.isEmpty || isNullText cs then some .null
  else
    match bool? cs with
    | some b => some (.bool b)
    | none =>
      match integerText cs with
      | .fits n => some (.number (.integer n))
      | .tooLarge => none
      | .none =>
        match if hasExtraZero cs then none else float? cs with
        | some x => some (.number (.float x))
        | none => some (.string (String.ofList cs))

/-- The value of a scalar under a core tag: the tags of booleans, integers, floating-point numbers
and null accept the texts of their kind, and every other tag keeps the text. -/
def taggedValue? (tag : String) (cs : List Char) : Option Tree :=
  if tag = "tag:yaml.org,2002:bool" then (bool? cs).map Tree.bool
  else if tag = "tag:yaml.org,2002:int" then
    match integerText cs with
    | .fits n => some (.number (.integer n))
    | _ => none
  else if tag = "tag:yaml.org,2002:float" then (float? cs).map fun x => .number (.float x)
  else if tag = "tag:yaml.org,2002:null" then if isNullText cs then some .null else none
  else some (.string (String.ofList cs))

end RamlDoc.Yaml.Scalar
