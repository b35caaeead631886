/-
# The shortest decimal that reads back

Of all decimals that round to a given double precision value, the ones with the fewest digits
are kept, and of these the one nearest to the value.

The reals that round to a value reach halfway to its neighbours on either side; the ends belong
to them when the value's last significant bit is zero.  Below a power of two the neighbour is
only half as far away.  On the grid of decimals with `n` digits it is enough to test the two
points between which the value lies.
-/
import ChipVm.Decimal.Double

namespace ChipVm

/-- The decimal `digits * 10 ^ exponent`. -/
structure Decimal where
  /-- The digits as one whole number. -/
  digits : Nat
  /-- The power of ten that the last digit counts. -/
  exponent : Int
deriving DecidableEq, Repr

namespace Decimal

/-- The reals that round to a value, in quarters of a unit. -/
structure Interval where
  /-- The lower end. -/
  low : Nat
  /-- The upper end. -/
  high : Nat
  /-- Whether the ends belong to the interval. -/
  closed : Bool

/-- The reals that round to a positive value of `units` units. -/
def interval (units : Nat) : Interval :=
  let excess := Nat.log2 units + 1 - 53
  let significand := units >>> excess
  let reach := 2 <<< excess
  let down := if significand = 0x10000000000000 ∧ 0 < excess then 1 <<< excess else reach
  ⟨4 * units - down, 4 * units + reach, significand % 2 = 0⟩

/-- A numerator and a denominator of `digits * 10 ^ exponent`, in quarters of a unit. -/
def quarters (d : Decimal) : Nat × Nat :=
  match d.exponent with
  | .ofNat k => (d.digits * Nat.pow 10 k * (4 * Double.one), 1)
  | .negSucc k => (d.digits * (4 * Double.one), Nat.pow 10 (k + 1))

/-- Whether a decimal lies in an interval. -/
def Interval.contains (i : Interval) (d : Decimal) : Bool :=
  let (num, den) := d.quarters
  if i.closed then i.low * den ≤ num && num ≤ i.high * den
  else i.low * den < num && num < i.high * den

/-- The distance from a decimal to a value of `units` units, in quarters of a unit and times the
denominator of the decimal. -/
def distance (units : Nat) (d : Decimal) : Nat :=
  let (num, den) := d.quarters
  max num (4 * units * den) - min num (4 * units * den)

/-- The least `k` from `start` on with `10 ^ k` times the value at least one, if there is one
among the next `fuel` numbers. -/
def leadingZeros (units : Nat) (start : Nat) : Nat → Nat
  | 0 => start
  | fuel + 1 =>
    if Double.one ≤ units * Nat.pow 10 start then start else leadingZeros units (start + 1) fuel

/-- The power of ten that the first digit of a positive value counts. -/
def magnitude (units : Nat) : Int :=
  if Double.one ≤ units then
    ((Nat.toDigits 10 (units / Double.one)).length : Int) - 1
  else
    -(leadingZeros units 1 330 : Int)

/-- The value cut off below the digit that counts `10 ^ exponent`. -/
def truncate (units : Nat) (exponent : Int) : Decimal :=
  match exponent with
  | .ofNat k => ⟨units / (Double.one * Nat.pow 10 k), exponent⟩
  | .negSucc k => ⟨units * Nat.pow 10 (k + 1) / Double.one, exponent⟩

/-- The better of the two neighbours of a value on the grid of decimals whose last digit counts
`10 ^ exponent`, if one of them reads back. -/
def onGrid? (units : Nat) (exponent : Int) : Option Decimal :=
  let below := truncate units exponent
  let above := { below with digits := below.digits + 1 }
  let reads := (interval units).contains
  match reads below, reads above with
  | true, true =>
    let down := below.distance units
    let up := above.distance units
    if down < up ∨ (down = up ∧ below.digits % 2 = 0) then some below else some above
  | true, false => some below
  | false, true => some above
  | false, false => none

/-- Searches the grids of `n`, `n + 1`, ... digits for a decimal that reads back. -/
def searchFrom (units : Nat) (leading : Int) (n : Nat) : Nat → Decimal
  | 0 => truncate units (leading - n)
  | fuel + 1 =>
    match onGrid? units (leading - n) with
    | some d => d
    | none => searchFrom units leading (n + 1) fuel

/-- The shortest decimal that reads back as the positive value of `units` units.  Seventeen digits
are always enough. -/
def shortest (units : Nat) : Decimal :=
  searchFrom units (magnitude units) 0 17

/-- How a floating point number is laid out. -/
structure Layout where
  /-- First digits that count ten to this power, or more, up to `last`, are written without an
  exponent. -/
  first : Int
  /-- The last such power. -/
  last : Int

/-- The digits of a decimal without the zeros at their end. -/
def significantDigits (d : Decimal) : List Char :=
  ((Nat.toDigits 10 d.digits).reverse.dropWhile (· == '0')).reverse

/-- Digits whose first counts `10 ^ leading`, with a point and at least one digit on either side
of it. -/
def positional (digits : List Char) (leading : Int) : List Char :=
  match leading with
  | .ofNat k =>
    let whole := digits.take (k + 1)
    let fraction := digits.drop (k + 1)
    whole.rightpad (k + 1) '0' ++ '.' :: (if fraction.isEmpty then ['0'] else fraction)
  | .negSucc k => '0' :: '.' :: (List.replicate k '0' ++ digits)

/-- Digits with a point after the first, and the power of ten that it counts with its sign. -/
def scientific (digits : List Char) (leading : Int) : List Char :=
  let mantissa :=
    match digits with
    | first :: second :: rest => first :: '.' :: second :: rest
    | digits => digits
  let sign := if leading < 0 then '-' else '+'
  mantissa ++ 'e' :: sign :: Nat.toDigits 10 leading.natAbs

/-- A value of `units` units in words. -/
def Layout.write (layout : Layout) (negative : Bool) (units : Nat) : String :=
  let sign := if negative then ['-'] else []
  if units = 0 then
    String.ofList (sign ++ ['0', '.', '0'])
  else
    let d := shortest units
    let digits := significantDigits d
    let leading := d.exponent + ((Nat.toDigits 10 d.digits).length - 1 : Nat)
    String.ofList (sign ++
      if layout.first ≤ leading ∧ leading ≤ layout.last then positional digits leading
      else scientific digits leading)

end Decimal

end ChipVm
