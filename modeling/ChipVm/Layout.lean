/-
# The fixed sizes of the machine

Every number that the hardware fixes once and for all: how much memory there is, where
programs live in it, how large the screen is, and how fast time runs.
-/

namespace ChipVm

/-- Bytes of addressable memory. -/
abbrev memorySize : Nat := 4096

/-- Where programs are loaded, and where execution starts. -/
abbrev programStart : Nat := 0x200

/-- The largest program that fits between `programStart` and the end of memory. -/
abbrev programCapacity : Nat := memorySize - programStart

/-- The number of subroutine calls that may be open at once. -/
abbrev stackLimit : Nat := 16

/-- The number of general purpose registers. -/
abbrev registerCount : Nat := 16

/-- The number of keys on the keypad. -/
abbrev keyCount : Nat := 16

/-- Pixels in a row of the screen. -/
abbrev screenWidth : Nat := 64

/-- Rows of the screen. -/
abbrev screenHeight : Nat := 32

/-- A sprite is at most this tall, since its height is one nibble of an opcode. -/
abbrev spriteRowLimit : Nat := 15

/-- Where the sprites of the hexadecimal digits are stored. -/
abbrev glyphStart : Nat := 0x000

/-- Rows, and hence bytes, of the sprite of one hexadecimal digit. -/
abbrev glyphHeight : Nat := 5

/-- The timers count down this many times a second, whatever the instruction rate. -/
abbrev ticksPerSecond : Nat := 60

/-- The instruction rate of a machine that is not told otherwise. -/
abbrev defaultRate : Nat := 700

/-- Nanoseconds in a second. -/
abbrev nanosPerSecond : Nat := 1000000000

/-- The time between two timer ticks, rounded down to a whole nanosecond. -/
abbrev tickPeriodNanos : Nat := nanosPerSecond / ticksPerSecond

/-- A count or an address that is held in one 64-bit word stays below this bound. -/
abbrev wordBound : Nat := UInt64.size

end ChipVm
