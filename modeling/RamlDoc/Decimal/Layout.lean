import RamlDoc.Decimal.Shortest

/-!
# Layouts of decimals

How the digits of a number are laid out as text. A number whose decimal point falls near its digits
is written with the point in place and at least one digit after it; other numbers are written with
one digit before the point and a power of ten.
-/

namespace RamlDoc.Decimal

/-- The choices of a format. The point position of `digits * 10 ^ exponent` is the number of digits
plus the exponent: the place of the decimal point counted from the first digit. -/
structure Layout where
  /-- The least point position written with the point in place. -/
  leastPoint : Int
  /-- The greatest point position written with the point in place. -/
  greatestPoint : Int
  /-- Whether a positive power of ten has a sign. -/
  plusSign : Bool
  /-- The least number of digits in a power of ten. -/
  powerDigits : Nat

/-- The digits of a natural number in base ten. -/
def digitsOf (n : Nat) : List Char := Nat.toDigits 10 n

/-- The text of a power of ten behind the letter `e`. -/
def Layout.powerText (layout : Layout) (power : Int) : List Char :=
  let sign := if power < 0 then ['-'] else if layout.plusSign then ['+'] else []
  let digits := digitsOf power.natAbs
  sign ++ List.replicate (layout.powerDigits - digits.length) '0' ++ digits

/-- The text of a positive decimal without zeros at the end of its digits. -/
def Layout.scaledText (layout : Layout) (d : Scaled) : List Char :=
  let digits := digitsOf d.digits
  let point := d.exponent + digits.length
  if layout.leastPoint ≤ point ∧ point ≤ layout.greatestPoint then
    if 0 ≤ d.exponent then
      digits ++ List.replicate d.exponent.toNat '0' ++ ['.', '0']
    else if 0 < point then
      digits.take point.toNat ++ ['.'] ++ digits.drop point.toNat
    else
      ['0', '.'] ++ List.replicate (-point).toNat '0' ++ digits
  else
    let fraction := if digits.length = 1 then [] else '.' :: digits.drop 1
    digits.take 1 ++ fraction ++ ['e'] ++ layout.powerText (point - 1)

/-- The text of a finite value, by the shortest decimal that rounds to it. -/
def Layout.finiteText (layout : Layout) (negative : Bool) (significand : Nat) (exponent : Int) :
    List Char :=
  let sign := if negative then ['-'] else []
  if significand = 0 then sign ++ ['0', '.', '0']
  else sign ++ layout.scaledText (shortest significand exponent)

end RamlDoc.Decimal
