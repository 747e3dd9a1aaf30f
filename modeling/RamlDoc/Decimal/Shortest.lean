import RamlDoc.Decimal.Binary64

/-!
# Shortest decimal of a binary value

The decimal with the fewest digits among those that round to a given binary value, and of these the
nearest to it. The reals that round to `m * 2 ^ q` form an interval around it, with its ends when
`m` is even. For one digit, two digits and so on, the two multiples of the power of ten next to the
value are tried: if any multiple lies in the interval, one of these two does.
-/

namespace RamlDoc.Decimal

/-- A decimal `digits * 10 ^ exponent`. -/
structure Scaled where
  digits : Nat
  exponent : Int
deriving DecidableEq, Repr

/-- The greatest power of ten that does not exceed a positive ratio. -/
def log10Floor (num den : Nat) : Int :=
  let guess : Int := (Nat.toDigits 10 num).length - (Nat.toDigits 10 den).length
  if den * Nat.pow 10 guess.toNat ≤ num * Nat.pow 10 (-guess).toNat then guess else guess - 1

/-- The interval of reals that round to a value, with the value itself, in units of a quarter of
the value's last place: below, the value, above. Below a power of two the gap is half as wide. -/
def quarterUnits (significand : Nat) (exponent : Int) : Nat × Nat × Nat :=
  let below := if significand = 1 <<< 52 ∧ Binary64.minExponent < exponent then 1 else 2
  (4 * significand - below, 4 * significand, 4 * significand + 2)

/-- The multiple of `10 ^ power` next to `significand * 2 ^ exponent` that rounds to it, if there is
one: of two the nearer, of two equally near the even one. -/
def onGrid? (significand : Nat) (exponent power : Int) : Option Nat :=
  let quarter := exponent - 2
  let scale := Nat.pow 10 (-power).toNat <<< quarter.toNat
  let unit := Nat.pow 10 power.toNat <<< (-quarter).toNat
  let (low, middle, high) := quarterUnits significand exponent
  let (low, middle, high) := (low * scale, middle * scale, high * scale)
  let inside (candidate : Nat) : Bool :=
    let x := candidate * unit
    if significand % 2 = 0 then low ≤ x && x ≤ high else low < x && x < high
  let below := middle / unit
  let above := below + 1
  if inside below && inside above then
    let toBelow := middle - below * unit
    let toAbove := above * unit - middle
    if toBelow < toAbove ∨ (toBelow = toAbove ∧ below % 2 = 0) then some below else some above
  else if inside below then some below
  else if inside above then some above
  else none

/-- The first grid with a hit, from `count` tries with steps of `10 ^ power`, a tenth of it and so
on; without a hit, zero. -/
def firstGrid (significand : Nat) (exponent : Int) : (count : Nat) → (power : Int) → Scaled
  | 0, power => ⟨0, power⟩
  | count + 1, power =>
    match onGrid? significand exponent power with
    | some digits => ⟨digits, power⟩
    | none => firstGrid significand exponent count (power - 1)

/-- A decimal without zeros at the end of its digits, given a bound on their number. -/
def Scaled.dropZeros : (count : Nat) → Scaled → Scaled
  | 0, d => d
  | count + 1, d =>
    if d.digits ≠ 0 ∧ d.digits % 10 = 0 then dropZeros count ⟨d.digits / 10, d.exponent + 1⟩ else d

/-- The shortest decimal that rounds to `significand * 2 ^ exponent`; seventeen digits always
suffice. -/
def shortest (significand : Nat) (exponent : Int) : Scaled :=
  if significand = 0 then ⟨0, 0⟩
  else
    let power := log10Floor (significand <<< exponent.toNat) (1 <<< (-exponent).toNat)
    (firstGrid significand exponent 17 power).dropZeros 17

end RamlDoc.Decimal
