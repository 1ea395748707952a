import Licensing.Decimal.Binary

/-! # Decimals with a fixed number of places

A double written with a given number of places after the point: the exact value rounded to the
nearest such decimal, a tie going to the even digit. Values that are no number are written `nan`
and `inf`.
-/

namespace Licensing.Decimal

/-- `units` of the last of `places` decimal places, with a point in front of those places. -/
def placed (places units : Nat) : String :=
  let digits := Nat.repr units
  let padded := "".pushn '0' (places + 1 - digits.length) ++ digits
  let whole := padded.length - places
  if places = 0 then padded
  else String.ofList (padded.toList.take whole ++ '.' :: padded.toList.drop whole)

/-- How many units of the last of `places` decimal places a magnitude has, rounded. -/
def Magnitude.units (places : Nat) (value : Magnitude) : Nat :=
  let (num, den) := scaled value.mantissa value.exponent
  roundDiv (num * Nat.pow 10 places) den

def isNegative (x : Float) : Bool :=
  Nat.pow 2 63 ≤ x.toBits.toNat

/-- `x` with exactly `places` digits after the point. -/
def fixed (places : Nat) (x : Float) : String :=
  if x.isNaN then "nan"
  else
    let sign := if isNegative x then "-" else ""
    if x.isInf then sign ++ "inf"
    else sign ++ placed places ((Magnitude.ofBits x.toBits).units places)

/-- `x` rounded to `places` decimal places: the double nearest to the decimal that `fixed` writes. -/
def roundTo (places : Nat) (x : Float) : Float :=
  if x.isNaN || x.isInf then x
  else
    let size := Float.ofScientific ((Magnitude.ofBits x.toBits).units places) true places
    if isNegative x then -size else size

end Licensing.Decimal
