import Licensing.Decimal.Fixed

/-! # The shortest decimal that reads back

A double is written with the fewest significant digits that identify it: the first grid
`1, 2, …, 17` digits wide that has a point in the interval of reals rounding to the double. Of two
points the nearer one is taken.

* `shortestDigits` — those digits, and the power of ten of the last one.
* `shortest` — the text: positional from 0.0001 up to below 10^16, otherwise with an exponent of at
  least two digits; a whole number keeps `.0`.
-/

namespace Licensing.Decimal

/-- The power of ten of the leading digit of `num / den`, for positive numbers. -/
def leadingPower (num den : Nat) : Int :=
  if den ≤ num then ((Nat.repr (num / den)).length : Int) - 1
  else
    let quotient := den / num
    let width := (Nat.repr quotient).length
    if quotient * num = den && quotient = Nat.pow 10 (width - 1) then 1 - (width : Int)
    else -(width : Int)

/-- `num / den` in units of `10 ^ power`, again as a quotient. -/
def inUnits (num den : Nat) (power : Int) : Nat × Nat :=
  if 0 ≤ power then (num, den * Nat.pow 10 power.toNat) else (num * Nat.pow 10 (-power).toNat, den)

/-- The best decimal with `width` digits inside the rounding interval, if there is one: its digits
as a number. All numbers are in quarters of the last binary place. -/
def decimalOfWidth? (value : Magnitude) (width : Nat) (lead : Int) : Option (Nat × Int) :=
  let power := lead - (width : Int) + 1
  let quarter := value.exponent - 2
  let position (n : Nat) : Nat × Nat :=
    let (num, den) := scaled n quarter
    inUnits num den power
  let (mid, den) := position (4 * value.mantissa)
  let (low, _) := position (4 * value.mantissa - if value.narrow then 1 else 2)
  let (high, _) := position (4 * value.mantissa + 2)
  let closed := value.mantissa % 2 == 0
  let inside (n : Nat) : Bool :=
    if closed then low ≤ n * den && n * den ≤ high else low < n * den && n * den < high
  let below := mid / den
  let nearest := roundDiv mid den
  if inside nearest then some (nearest, power)
  else if inside below then some (below, power)
  else if inside (below + 1) then some (below + 1, power)
  else none

/-- The fewest digits that read back as a positive magnitude, and the power of ten of the last. -/
def shortestDigits (value : Magnitude) : Nat × Int :=
  let (num, den) := scaled value.mantissa value.exponent
  let lead := leadingPower num den
  ((List.range 17).findSome? fun n => decimalOfWidth? value (n + 1) lead).getD (0, 0)

/-- Digits without trailing zeros, and the power of ten of the last one that is left. -/
def trimZeros (digits : List Char) (power : Int) : List Char × Int :=
  let kept := (digits.reverse.dropWhile (· == '0')).reverse
  (kept, power + (digits.length - kept.length : Nat))

/-- The text of the decimal `digits · 10 ^ power`. -/
def positional (digits : List Char) (power : Int) : List Char :=
  let lead : Int := power + digits.length - 1
  if -4 ≤ lead && lead < 16 then
    if 0 ≤ power then digits ++ List.replicate power.toNat '0' ++ ['.', '0']
    else if 0 ≤ lead then
      digits.take (lead.toNat + 1) ++ '.' :: digits.drop (lead.toNat + 1)
    else '0' :: '.' :: List.replicate (-lead - 1).toNat '0' ++ digits
  else
    let mantissa := match digits with
      | [] => []
      | [d] => [d]
      | d :: rest => d :: '.' :: rest
    let size := Nat.toDigits 10 lead.natAbs
    mantissa ++ 'e' :: (if lead < 0 then '-' else '+') ::
      List.replicate (2 - size.length) '0' ++ size

/-- The shortest text of `x` that reads back as `x`. -/
def shortest (x : Float) : String :=
  if x.isNaN then "nan"
  else
    let sign := if isNegative x then "-" else ""
    if x.isInf then sign ++ "inf"
    else
      let value := Magnitude.ofBits x.toBits
      if value.mantissa = 0 then sign ++ "0.0"
      else
        let (digits, power) := shortestDigits value
        let (kept, last) := trimZeros (Nat.toDigits 10 digits) power
        sign ++ String.ofList (positional kept last)

/-- The double nearest to `digits · 10 ^ power`. Far outside the range of doubles the result is
decided by the size alone. -/
def nearestDouble (digits : Nat) (power : Int) : Float :=
  let width : Int := (Nat.repr digits).length
  if digits = 0 || width + power < -330 then 0
  else if 330 < width + power then 1 / 0
  else if 0 ≤ power then Float.ofScientific (digits * Nat.pow 10 power.toNat) false 0
  else Float.ofScientific digits true (-power).toNat

end Licensing.Decimal
