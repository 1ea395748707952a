/-! # Numbers for similarity

Weights and scores are computed with the few operations of `Scalar`. The program runs them on
doubles; the laws of the model hold for other numbers too, and are stated for those that they need.
-/

namespace Licensing.Similarity

/-- Numbers to weigh terms and to score texts with. -/
class Scalar (R : Type) where
  ofNat : Nat → R
  add : R → R → R
  mul : R → R → R
  div : R → R → R
  ln : R → R
  sqrt : R → R
  lt : R → R → Bool

instance : Scalar Float where
  ofNat := Nat.toFloat
  add := Float.add
  mul := Float.mul
  div := Float.div
  ln := Float.log
  sqrt := Float.sqrt
  lt a b := a < b

namespace Scalar

variable {R : Type} [Scalar R]

def zero : R :=
  ofNat 0

/-- Whether `x` is neither below nor above zero. -/
def isZero (x : R) : Bool :=
  !lt x zero && !lt zero x

def sum (xs : List R) : R :=
  xs.foldl add zero

end Scalar

end Licensing.Similarity
