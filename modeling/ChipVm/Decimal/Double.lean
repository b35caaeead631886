/-
# Double precision magnitudes

The non-negative values of the 64-bit floating point format, each written as the whole number of
units of 2^-1074 that it is made of.  A value is representable when it has at most 53 significant
bits and lies below `Double.bound`; beyond that a computation has no result.
-/
import ChipVm.Decimal.Rounding

namespace ChipVm.Decimal.Double

/-- How many units make one. -/
def one : Nat := 1 <<< 1074

/-- Every finite value lies below this number of units. -/
def bound : Nat := one <<< 1024

/-- The value nearest to a whole number. -/
def ofNat (n : Nat) : Nat := roundTo 53 (n * one) 1

/-- The value nearest to a product, unless that is infinite. -/
def mul? (a b : Nat) : Option Nat :=
  let product := roundTo 53 (a * b) one
  if product < bound then some product else none

/-- The value nearest to a quotient. -/
def div (a b : Nat) : Nat := roundTo 53 (a * one) b

/-- The value nearest to a power of ten. -/
def tenTo (exponent : Nat) : Nat := ofNat (Nat.pow 10 exponent)

end ChipVm.Decimal.Double
