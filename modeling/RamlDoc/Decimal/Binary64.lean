/-!
# Binary floating-point values of 64 bits

A finite value is a sign, a significand below 2^53 and a power of two of at least -1074; unless the
power is -1074 the significand is at least 2^52, so a value has one form. `Binary64.ofRatio` rounds
a ratio of natural numbers to the nearest value, a tie to the even significand. The arithmetic is on
natural numbers, so nothing here depends on the machine's floating point.
-/

namespace RamlDoc

/-- A binary floating-point value of 64 bits. -/
inductive Binary64 where
  /-- Not a number. -/
  | nan
  /-- An infinity. -/
  | infinite (negative : Bool)
  /-- The value `significand * 2 ^ exponent`, with a sign that zero has too. -/
  | finite (negative : Bool) (significand : Nat) (exponent : Int)
deriving DecidableEq, Repr

namespace Binary64

/-- The smallest power of two in a finite value. -/
def minExponent : Int := -1074

/-- The largest power of two in a finite value. -/
def maxExponent : Int := 971

/-- The quotient of two natural numbers rounded to the nearest, a tie to the even neighbour. -/
def roundDiv (num den : Nat) : Nat :=
  let floor := num / den
  let twice := 2 * (num % den)
  if twice < den then floor
  else if den < twice then floor + 1
  else floor + floor % 2

/-- The numerator and denominator of `num / den` divided by `2 ^ exponent`. -/
def scaleDown (num den : Nat) (exponent : Int) : Nat × Nat :=
  (num <<< (-exponent).toNat, den <<< exponent.toNat)

/-- The value nearest to the ratio of two natural numbers. -/
def ofRatio (negative : Bool) (num den : Nat) : Binary64 :=
  if num = 0 then .finite negative 0 minExponent
  else
    let guess : Int := (num.log2 : Int) - den.log2 - 52
    let scaled := scaleDown num den guess
    let exponent := max minExponent (if scaled.1 / scaled.2 < 1 <<< 52 then guess - 1 else guess)
    let scaled := scaleDown num den exponent
    let significand := roundDiv scaled.1 scaled.2
    let (significand, exponent) :=
      if significand = 1 <<< 53 then (1 <<< 52, exponent + 1) else (significand, exponent)
    if maxExponent < exponent then .infinite negative
    else .finite negative significand exponent

/-- The value nearest to `digits * 10 ^ exponent`. Far outside the range of finite values the power
of ten is not computed. -/
def ofDecimal (negative : Bool) (digits : Nat) (exponent : Int) : Binary64 :=
  if digits = 0 then .finite negative 0 minExponent
  else if 400 < exponent then .infinite negative
  else if exponent + (Nat.toDigits 10 digits).length < -400 then .finite negative 0 minExponent
  else ofRatio negative (digits * Nat.pow 10 exponent.toNat) (Nat.pow 10 (-exponent).toNat)

/-- The value nearest to an integer. -/
def ofInt (n : Int) : Binary64 := ofRatio (n < 0) n.natAbs 1

/-- Whether a value is neither an infinity nor not a number. -/
def isFinite : Binary64 → Bool
  | .finite .. => true
  | _ => false

/-- Numerical equality: zero has one value whatever its sign, and what is not a number equals
nothing. -/
def numericEq : Binary64 → Binary64 → Bool
  | .finite s m e, .finite s' m' e' => (m = 0 && m' = 0) || (s = s' && m = m' && e = e')
  | .infinite s, .infinite s' => s = s'
  | _, _ => false

end Binary64

end RamlDoc
