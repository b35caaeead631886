/-
# Single precision numbers

The 32-bit floating point format, by its bits.  A finite number is a whole multiple of 2^-149,
so sums and remainders are computed on whole numbers of such units and rounded once at the end.

Operations on something that is not a number give the first operand of that kind, made quiet;
where there is no such operand they give `Single.invalid`.
-/
import ChipVm.Decimal.Rounding

namespace ChipVm.Tone

/-- A single precision number by its bits. -/
structure Single where
  /-- Sign, exponent and fraction. -/
  bits : UInt32
deriving DecidableEq, Repr

namespace Single

/-- The result of an operation that has none. -/
def invalid : Single := ⟨0xFFC00000⟩

/-- The magnitude bits of infinity. -/
def infinityBits : Nat := 0x7F800000

/-- The bits without the sign. -/
def magnitudeBits (a : Single) : Nat := a.bits.toNat % 0x80000000

/-- Whether the sign bit is set. -/
def negative (a : Single) : Bool := 0x80000000 ≤ a.bits.toNat

/-- Whether the bits are no number. -/
def isNaN (a : Single) : Bool := infinityBits < a.magnitudeBits

/-- Whether the number is infinite. -/
def isInfinite (a : Single) : Bool := a.magnitudeBits = infinityBits

/-- What is not a number, with its quiet bit set. -/
def quiet (a : Single) : Single := ⟨a.bits ||| 0x00400000⟩

/-- The number with its sign turned. -/
def neg (a : Single) : Single := ⟨a.bits ^^^ 0x80000000⟩

/-- How many units of 2^-149 make one. -/
def oneUnits : Nat := 1 <<< 149

/-- The units that a finite number's magnitude bits stand for. -/
def unitsOfBits (bits : Nat) : Nat :=
  let exponent := bits / 0x800000
  let fraction := bits % 0x800000
  if exponent = 0 then fraction else (0x800000 + fraction) <<< (exponent - 1)

/-- The units of a finite number. -/
def units (a : Single) : Int :=
  if a.negative then -(unitsOfBits a.magnitudeBits : Int) else unitsOfBits a.magnitudeBits

/-- The magnitude bits of the number nearest to `num / den` units; infinity if there is none. -/
def bitsOfRatio (num den : Nat) : Nat :=
  let rounded := Decimal.roundTo 24 num den
  let excess := Nat.log2 rounded - 23
  if rounded < 0x800000 then rounded
  else min ((excess + 1) * 0x800000 + (rounded >>> excess - 0x800000)) infinityBits

/-- The number with the given sign and magnitude bits. -/
def ofParts (negative : Bool) (magnitude : Nat) : Single :=
  ⟨UInt32.ofNat ((if negative then 0x80000000 else 0) + magnitude)⟩

/-- The number nearest to a number of units; `zeroNegative` is the sign of a zero. -/
def ofUnits (zeroNegative : Bool) (units : Int) : Single :=
  ofParts (if units = 0 then zeroNegative else units < 0) (bitsOfRatio units.natAbs 1)

/-- The number nearest to the quotient of two whole numbers. -/
def ofRatio (num den : Nat) : Single :=
  ofParts false (bitsOfRatio (num * oneUnits) den)

/-- The sum of two numbers. -/
def add (a b : Single) : Single :=
  if a.isNaN then a.quiet
  else if b.isNaN then b.quiet
  else if a.isInfinite then
    if b.isInfinite ∧ a.negative ≠ b.negative then invalid else a
  else if b.isInfinite then b
  else ofUnits (a.negative && b.negative) (a.units + b.units)

/-- The remainder of division by one, with the sign of the number. -/
def remainderOne (a : Single) : Single :=
  if a.isNaN then a.quiet
  else if a.isInfinite then invalid
  else ofUnits a.negative (Int.tmod a.units oneUnits)

/-- Whether the number is at most one half. -/
def atMostHalf (a : Single) : Bool :=
  if a.isNaN then false
  else if a.isInfinite then a.negative
  else a.units ≤ (1 <<< 148 : Nat)

end Single

end ChipVm.Tone
