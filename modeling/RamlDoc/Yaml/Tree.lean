import RamlDoc.Yaml.Number

/-!
# YAML trees

The value of a YAML document: a scalar, a sequence, a mapping whose entries keep their order, or a
value with a local tag. `Tree.same` is the equality that decides whether a mapping has a key twice;
it ignores the order of entries. Tags are transparent to the accessors that ask for a text, a
natural number, a number, a mapping or null, and opaque to pattern matching.
-/

namespace RamlDoc.Yaml

/-- A YAML value. -/
inductive Tree where
  | null
  | bool (value : Bool)
  | number (value : Number)
  | string (value : String)
  | sequence (items : List Tree)
  | mapping (entries : List (Tree × Tree))
  /-- A value with a local tag, kept without its exclamation mark. -/
  | tagged (tag : String) (value : Tree)
deriving Repr, Inhabited

/-- The entries of a mapping, in order. -/
abbrev Entries := List (Tree × Tree)

namespace Tree

mutual

/-- Equality of values as keys. -/
def same : Tree → Tree → Bool
  | .null, .null => true
  | .bool a, .bool b => a = b
  | .number a, .number b => a.same b
  | .string a, .string b => a = b
  | .sequence a, .sequence b => sameItems a b
  | .mapping a, .mapping b => a.length = b.length && sameEntries a b
  | .tagged t a, .tagged u b => t = u && same a b
  | _, _ => false

/-- Equality of sequences, item by item. -/
def sameItems : List Tree → List Tree → Bool
  | [], [] => true
  | a :: as, b :: bs => same a b && sameItems as bs
  | _, _ => false

/-- Whether each entry of the first list is found in the second. -/
def sameEntries : List (Tree × Tree) → List (Tree × Tree) → Bool
  | [], _ => true
  | (key, value) :: rest, others =>
    (others.any fun other => same key other.1 && same value other.2) && sameEntries rest others

end

mutual

/-- Identity of trees is decidable. -/
def decEq : (a b : Tree) → Decidable (a = b)
  | .null, .null => isTrue rfl
  | .bool a, .bool b => decidable_of_iff (a = b) (by simp)
  | .number a, .number b => decidable_of_iff (a = b) (by simp)
  | .string a, .string b => decidable_of_iff (a = b) (by simp)
  | .sequence a, .sequence b =>
    match decEqItems a b with
    | isTrue h => isTrue (by rw [h])
    | isFalse h => isFalse (by simpa using h)
  | .mapping a, .mapping b =>
    match decEqEntries a b with
    | isTrue h => isTrue (by rw [h])
    | isFalse h => isFalse (by simpa using h)
  | .tagged t a, .tagged u b =>
    match decEq a b with
    | isTrue h => decidable_of_iff (t = u) (by simp [h])
    | isFalse h => isFalse (by simp [h])
  | .null, .bool _ | .null, .number _ | .null, .string _ | .null, .sequence _ | .null, .mapping _
  | .null, .tagged .. | .bool _, .null | .bool _, .number _ | .bool _, .string _
  | .bool _, .sequence _ | .bool _, .mapping _ | .bool _, .tagged .. | .number _, .null
  | .number _, .bool _ | .number _, .string _ | .number _, .sequence _ | .number _, .mapping _
  | .number _, .tagged .. | .string _, .null | .string _, .bool _ | .string _, .number _
  | .string _, .sequence _ | .string _, .mapping _ | .string _, .tagged .. | .sequence _, .null
  | .sequence _, .bool _ | .sequence _, .number _ | .sequence _, .string _
  | .sequence _, .mapping _ | .sequence _, .tagged .. | .mapping _, .null | .mapping _, .bool _
  | .mapping _, .number _ | .mapping _, .string _ | .mapping _, .sequence _
  | .mapping _, .tagged .. | .tagged .., .null | .tagged .., .bool _ | .tagged .., .number _
  | .tagged .., .string _ | .tagged .., .sequence _ | .tagged .., .mapping _ =>
    isFalse (by simp)

/-- Identity of lists of trees is decidable. -/
def decEqItems : (as bs : List Tree) → Decidable (as = bs)
  | [], [] => isTrue rfl
  | [], _ :: _ => isFalse (by simp)
  | _ :: _, [] => isFalse (by simp)
  | a :: as, b :: bs =>
    match decEq a b, decEqItems as bs with
    | isTrue h, isTrue hs => isTrue (by rw [h, hs])
    | isFalse h, _ => isFalse (by simp [h])
    | _, isFalse hs => isFalse (by simp [hs])

/-- Identity of lists of entries is decidable. -/
def decEqEntries : (as bs : List (Tree × Tree)) → Decidable (as = bs)
  | [], [] => isTrue rfl
  | [], _ :: _ => isFalse (by simp)
  | _ :: _, [] => isFalse (by simp)
  | (k, a) :: as, (l, b) :: bs =>
    match decEq k l, decEq a b, decEqEntries as bs with
    | isTrue hk, isTrue h, isTrue hs => isTrue (by rw [hk, h, hs])
    | isFalse hk, _, _ => isFalse (by simp [hk])
    | _, isFalse h, _ => isFalse (by simp [h])
    | _, _, isFalse hs => isFalse (by simp [hs])

end

instance : DecidableEq Tree := decEq

/-- The value without its tags. -/
def untagged : Tree → Tree
  | .tagged _ value => untagged value
  | value => value

/-- The text of a string, tagged or not. -/
def asString? (value : Tree) : Option String :=
  match value.untagged with
  | .string s => some s
  | _ => none

/-- The number of a number, tagged or not. -/
def asNumber? (value : Tree) : Option Number :=
  match value.untagged with
  | .number n => some n
  | _ => none

/-- The entries of a mapping, tagged or not. -/
def asEntries? (value : Tree) : Option Entries :=
  match value.untagged with
  | .mapping entries => some entries
  | _ => none

/-- Whether a value is null, tagged or not. -/
def isNull (value : Tree) : Bool :=
  match value.untagged with
  | .null => true
  | _ => false

/-- The name of a value's kind in messages. -/
def kind : Tree → String
  | .null => "null"
  | .bool _ => "boolean"
  | .number _ => "number"
  | .string _ => "string"
  | .sequence _ => "sequence"
  | .mapping _ => "mapping"
  | .tagged .. => "tagged value"

end Tree

namespace Entries

/-- The value of the first entry whose key is a given untagged string. -/
def get? (entries : Entries) (key : String) : Option Tree :=
  (entries.find? fun entry => entry.1 = .string key).map Prod.snd

/-- The value of the first entry whose key is a given untagged string, unless it is null. -/
def field? (entries : Entries) (key : String) : Option Tree :=
  (entries.get? key).filter fun value => !value.isNull

end Entries

end RamlDoc.Yaml
