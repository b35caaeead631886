/-
# Settings

Interpreters disagree on a few instructions.  A `Dialect` settles each point of disagreement,
and a `Config` adds how fast the machine runs and what its random bytes start from.
-/
import ChipVm.Layout

namespace ChipVm

/-- The points on which interpreters disagree. -/
structure Dialect where
  /-- `8XY1`, `8XY2` and `8XY3` put 0 into VF. -/
  logicResetsFlag : Bool
  /-- `8XY6` and `8XYE` shift Vy into Vx instead of shifting Vx in place. -/
  shiftUsesVy : Bool
  /-- `FX55` and `FX65` leave the index register just past the last byte transferred. -/
  transferMovesIndex : Bool
deriving DecidableEq, Repr

namespace Dialect

/-- What the first interpreter for the machine did. -/
def classic : Dialect := ⟨true, true, true⟩

/-- What later interpreters settled on. -/
def modern : Dialect := ⟨false, false, false⟩

instance : Inhabited Dialect := ⟨classic⟩

/-- The points that a dialect settles. -/
inductive Switch where
  /-- Whether the logical operations reset the flag. -/
  | logic
  /-- Which register is shifted. -/
  | shift
  /-- Whether block transfers move the index register. -/
  | transfer
deriving DecidableEq

/-- How a dialect settles a point. -/
def isOn (dialect : Dialect) : Switch → Bool
  | .logic => dialect.logicResetsFlag
  | .shift => dialect.shiftUsesVy
  | .transfer => dialect.transferMovesIndex

end Dialect

/-- The settings of a machine and of the scheduler that drives it. -/
structure Config where
  /-- How the disputed instructions behave. -/
  dialect : Dialect
  /-- Instructions per second. -/
  rate : UInt32
  /-- What the random bytes start from; without it they differ from run to run. -/
  seed : Option UInt64
deriving DecidableEq, Repr

namespace Config

/-- The classic dialect at the default rate, unseeded. -/
def standard : Config := ⟨Dialect.classic, UInt32.ofNat defaultRate, none⟩

instance : Inhabited Config := ⟨standard⟩

end Config

end ChipVm
