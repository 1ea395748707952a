/-! # The exact value of a double

A finite double is a sign and `m · 2 ^ q` with a natural number `m`. Everything that writes one in
decimal starts from this form and computes in the natural numbers, so no digit is ever a guess.

* `Magnitude` — `m · 2 ^ q`, and the interval of reals that round to it.
* `Magnitude.ofBits` — the magnitude that a pattern of 64 bits stands for.
* `roundDiv` — a quotient rounded to the nearest natural number, ties to even.
-/

namespace Licensing.Decimal

/-- `mantissa · 2 ^ exponent`. In a `narrow` magnitude the next smaller double is only half as far
away as the next larger one. -/
structure Magnitude where
  mantissa : Nat
  exponent : Int
  narrow : Bool
deriving DecidableEq, Repr

/-- The magnitude of a finite double, from its bits; the sign bit is ignored. -/
def Magnitude.ofBits (bits : UInt64) : Magnitude :=
  let fraction := bits.toNat % Nat.pow 2 52
  let biased : Nat := bits.toNat / Nat.pow 2 52 % Nat.pow 2 11
  if biased = 0 then ⟨fraction, -1074, false⟩
  else ⟨fraction + Nat.pow 2 52, (biased : Int) - 1075, fraction == 0 && 1 < biased⟩

/-- `n · 2 ^ e` as a quotient of natural numbers. -/
def scaled (n : Nat) (e : Int) : Nat × Nat :=
  if 0 ≤ e then (n * Nat.pow 2 e.toNat, 1) else (n, Nat.pow 2 (-e).toNat)

/-- The natural number nearest to `num / den`; of two nearest ones the even one. -/
def roundDiv (num den : Nat) : Nat :=
  let below := num / den
  let twice := 2 * (num % den)
  if twice < den then below
  else if den < twice then below + 1
  else below + below % 2

/-- A rounded quotient is at most half a unit away from the exact one. -/
theorem roundDiv_near (num : Nat) {den : Nat} (h : 0 < den) :
    2 * (roundDiv num den * den) ≤ 2 * num + den ∧
      2 * num ≤ 2 * (roundDiv num den * den) + den := by
  have split := Nat.div_add_mod num den
  have small := Nat.mod_lt num h
  rw [Nat.mul_comm] at split
  unfold roundDiv
  simp only
  split
  · omega
  · split
    · rw [Nat.add_mul]; omega
    · rw [Nat.add_mul]
      rcases Nat.mod_two_eq_zero_or_one (num / den) with even | odd
      · rw [even]; omega
      · rw [odd]; omega

end Licensing.Decimal
