/-
# The tone

A square wave: high for the first half of each period and low for the second.  The beeper plays
it while it is switched on.
-/
import ChipVm.Tone.Single

namespace ChipVm.Tone

/-- A square wave under way. -/
structure Wave where
  /-- How much of a period one sample takes. -/
  increment : Single
  /-- How much of the current period has passed. -/
  phase : Single
  /-- The height of the wave. -/
  volume : Single
deriving DecidableEq, Repr

namespace Wave

/-- The current sample. -/
def sample (wave : Wave) : Single :=
  if wave.phase.atMostHalf then wave.volume else wave.volume.neg

/-- The wave one sample later. -/
def next (wave : Wave) : Wave :=
  { wave with phase := (wave.phase.add wave.increment).remainderOne }

/-- The given number of samples after those in `before`, and the wave after them. -/
def samplesAfter (before : Array Single) (wave : Wave) : Nat → Array Single × Wave
  | 0 => (before, wave)
  | count + 1 => samplesAfter (before.push wave.sample) wave.next count

/-- The next samples of a wave, and the wave after them. -/
def samples (wave : Wave) (count : Nat) : Array Single × Wave :=
  samplesAfter #[] wave count

/-- The wave of the beeper: 440 periods in 44100 samples, at one fifth of the full height. -/
def beep : Wave where
  increment := .ofRatio 440 44100
  phase := .ofRatio 0 1
  volume := .ofRatio 1 5

end Wave

/-- Whether an audio device is heard. -/
inductive DeviceStatus where
  | playing
  | paused
deriving DecidableEq, Repr

/-- A switch in front of an audio device that plays the beep. -/
structure Beeper where
  /-- Whether the switch is on. -/
  playing : Bool
  /-- What the device does. -/
  device : DeviceStatus
deriving DecidableEq, Repr

namespace Beeper

/-- A silent beeper. -/
def silent : Beeper := ⟨false, .paused⟩

/-- Turns the tone on or off; nothing happens when it already is. -/
def set (beeper : Beeper) (on : Bool) : Beeper :=
  if on = beeper.playing then beeper
  else ⟨on, if on then .playing else .paused⟩

end Beeper

end ChipVm.Tone
