import Licensing.Text.Alphanumeric
import Licensing.Text.Blank

/-! # Written integers

An integer is written with decimal digits of any script, with an optional sign in front. Single
underscores may part the digits, and white space around the whole is ignored.

* `digitValue?` — the value of a digit.
* `readInteger?` — the integer that a text writes.
-/

namespace Licensing.Text

/-- The value of a decimal digit. Digits of a script stand in runs of ten, in the order of their
values. -/
def digitValue? (c : Char) : Option Nat :=
  (decimalDigits.find? fun (first, last) => first ≤ c.toNat && c.toNat ≤ last).map
    fun (first, _) => (c.toNat - first) % 10

/-- The number that digits write, behind digits with the value `before`. -/
def readDigits? (before : Nat) : List Char → Option Nat
  | [] => some before
  | '_' :: c :: rest => (digitValue? c).bind fun d => readDigits? (10 * before + d) rest
  | c :: rest => (digitValue? c).bind fun d => readDigits? (10 * before + d) rest

def readNatural? : List Char → Option Nat
  | [] => none
  | c :: rest => (digitValue? c).bind fun d => readDigits? d rest

def readInteger? (text : String) : Option Int :=
  match strip text.toList with
  | '-' :: digits => (readNatural? digits).map fun n => -(n : Int)
  | '+' :: digits => (readNatural? digits).map Int.ofNat
  | digits => (readNatural? digits).map Int.ofNat

end Licensing.Text
