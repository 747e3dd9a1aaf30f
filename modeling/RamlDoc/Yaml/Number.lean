import RamlDoc.Decimal.Layout

/-!
# YAML numbers

A number is an integer or a binary floating-point value. The reader lets integers through from the
least signed to the greatest unsigned one of 64 bits.
-/

namespace RamlDoc.Yaml

/-- A number in a YAML tree. -/
inductive Number where
  | integer (value : Int)
  | float (value : Binary64)
deriving DecidableEq, Repr

namespace Number

/-- How a floating-point number is written: with its point in place for point positions from -4 to
16, else with a bare power of ten. -/
def layout : Decimal.Layout := ⟨-4, 16, false, 1⟩

/-- Equality of numbers as keys: an integer never equals a floating-point number, zero has no sign,
and what is not a number equals itself. -/
def same : Number → Number → Bool
  | .integer a, .integer b => a = b
  | .float .nan, .float .nan => true
  | .float a, .float b => a.numericEq b
  | _, _ => false

/-- The text of a number. -/
def text : Number → String
  | .integer n => toString n
  | .float .nan => ".nan"
  | .float (.infinite false) => ".inf"
  | .float (.infinite true) => "-.inf"
  | .float (.finite s m e) => String.ofList (layout.finiteText s m e)

/-- The number as a natural number, if it is an integer that is not negative. -/
def natural? : Number → Option Nat
  | .integer n => if 0 ≤ n then some n.toNat else none
  | .float _ => none

/-- The floating-point value nearest to the number. -/
def toBinary64 : Number → Binary64
  | .integer n => .ofInt n
  | .float x => x

end Number

end RamlDoc.Yaml
