/-
# The timers

Two bytes that count down to zero, one per tick.  Programs read the delay timer; a tone sounds
for as long as the sound timer is above zero.
-/

namespace ChipVm

/-- The two countdown timers. -/
structure Timers where
  /-- The timer that programs read. -/
  delay : UInt8
  /-- The timer that sounds the tone. -/
  sound : UInt8
deriving DecidableEq, Repr

namespace Timers

/-- Both timers at rest. -/
def stopped : Timers := ⟨0, 0⟩

instance : Inhabited Timers := ⟨stopped⟩

/-- One less, but never below zero. -/
def countDown (value : UInt8) : UInt8 :=
  if value = 0 then 0 else value - 1

/-- One tick of both timers. -/
def tick (timers : Timers) : Timers :=
  ⟨countDown timers.delay, countDown timers.sound⟩

/-- Whether the tone sounds. -/
def sounding (timers : Timers) : Bool :=
  timers.sound != 0

end Timers

end ChipVm
