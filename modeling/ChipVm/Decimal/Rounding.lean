/-
# Rounding to a number of significant bits

A binary floating point format keeps a fixed number of significant bits and has a smallest
positive value.  Its values are whole multiples of that smallest value, so its arithmetic is
exact arithmetic on whole numbers of such units, followed by `roundTo`.
-/

namespace ChipVm.Decimal

/-- `num / den` rounded to the nearest whole number, a half to the even neighbour. -/
def roundDiv (num den : Nat) : Nat :=
  let quotient := num / den
  let twice := 2 * (num % den)
  if twice < den then quotient
  else if den < twice then quotient + 1
  else if quotient % 2 = 0 then quotient
  else quotient + 1

/-- `num / den` rounded to the nearest whole number of at most `bits` significant bits, a half to
the neighbour whose last significant bit is zero. -/
def roundTo (bits num den : Nat) : Nat :=
  let step := 1 <<< (Nat.log2 (num / den) + 1 - bits)
  roundDiv num (den * step) * step

end ChipVm.Decimal
