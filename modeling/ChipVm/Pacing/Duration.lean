/-
# Lengths of time

A duration is a number of nanoseconds of which the seconds fit into 64 bits.  Its text uses the
largest unit of which there is at least one, with as many decimals as it takes to be exact.
-/
import ChipVm.Layout

namespace ChipVm

/-- A length of time. -/
structure Duration where
  /-- Its nanoseconds. -/
  nanos : Nat
  /-- The whole seconds are a 64-bit number. -/
  bounded : nanos < wordBound * nanosPerSecond
deriving DecidableEq, Repr

namespace Duration

/-- Seconds and nanoseconds together, if the seconds still fit after the carry. -/
def ofParts? (seconds nanos : Nat) : Option Duration :=
  let total := seconds * nanosPerSecond + nanos
  if h : total < wordBound * nanosPerSecond then some ⟨total, h⟩ else none

/-- A unit of time: how many nanoseconds it has as a power of ten, and its symbol. -/
structure TimeUnit where
  /-- The unit is ten to this many nanoseconds. -/
  places : Nat
  /-- What stands behind the number. -/
  symbol : String

/-- The unit in which a number of nanoseconds is written. -/
def unitOf (nanos : Nat) : TimeUnit :=
  if nanosPerSecond ≤ nanos then ⟨9, "s"⟩
  else if 1000000 ≤ nanos then ⟨6, "ms"⟩
  else if 1000 ≤ nanos then ⟨3, "µs"⟩
  else ⟨0, "ns"⟩

/-- The decimals of a fraction with the given number of places: a point and the digits up to the
last that is not zero, or nothing at all. -/
def decimals (places fraction : Nat) : String :=
  let digits := (Nat.toDigits 10 fraction).leftpad places '0'
  match (digits.reverse.dropWhile (· == '0')).reverse with
  | [] => ""
  | kept => String.ofList ('.' :: kept)

/-- The duration in words. -/
def text (duration : Duration) : String :=
  let unit := unitOf duration.nanos
  let scale := Nat.pow 10 unit.places
  toString (duration.nanos / scale) ++ decimals unit.places (duration.nanos % scale)
    ++ unit.symbol

end Duration

end ChipVm
