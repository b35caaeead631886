/-
# The scheduler

Turns elapsed time into instruction steps and timer ticks.  A second is worth exactly the
instruction rate in steps and sixty ticks, however it is split: what is left over of a unit is
carried as nanoseconds times rate, so nothing is lost to rounding.

The ticks that are owed are spread evenly between the steps.  After the `j`-th of `S` steps,
`T * j / S` of the `T` ticks have been applied.  The product is formed in a 64-bit word, and
when it does not fit the advance fails there and then.
-/
import ChipVm.Machine.Step

namespace ChipVm

/-- What came of letting time pass. -/
structure Advance where
  /-- Instructions executed. -/
  steps : Nat
  /-- Timer ticks applied. -/
  ticks : Nat
  /-- Whether the program jumped to itself at some point. -/
  stalled : Bool
  /-- The register that was found waiting for a key. -/
  waiting : Option Register
deriving DecidableEq, Repr

namespace Advance

/-- Nothing happened. -/
def zero : Advance := ⟨0, 0, false, none⟩

instance : Inhabited Advance := ⟨zero⟩

end Advance

/-- Why time could not be let pass to its end. -/
inductive AdvanceError where
  /-- A step failed. -/
  | fault (fault : Fault)
  /-- The number of ticks due did not fit into a 64-bit word. -/
  | overflow
deriving DecidableEq, Repr

/-- The rate of a machine and the time carried over. -/
structure Scheduler where
  /-- Instructions per second. -/
  rate : UInt32
  /-- Nanoseconds times rate that do not make a whole step yet. -/
  stepCredit : Nat
  /-- Nanoseconds times sixty that do not make a whole tick yet. -/
  tickCredit : Nat
deriving DecidableEq, Repr

namespace Scheduler

/-- A scheduler that carries nothing over. -/
def ofRate (rate : UInt32) : Scheduler := ⟨rate, 0, 0⟩

/-- The scheduler for a configuration. -/
def ofConfig (config : Config) : Scheduler := ofRate config.rate

instance : Inhabited Scheduler := ⟨ofConfig Config.standard⟩

/-- Drops the time carried over. -/
def reset (s : Scheduler) : Scheduler := ofRate s.rate

/-- Adds `nanos * rate` to a credit and takes out every whole unit, as many as a 64-bit word can
count: the units owed, and the credit left. -/
def drain (credit nanos rate : Nat) : Nat × Nat :=
  let total := credit + nanos * rate
  (min (total / nanosPerSecond) (wordBound - 1), total % nanosPerSecond)

/-- The steps and the ticks owed for a length of time, and the scheduler that has paid them
out. -/
def owe (s : Scheduler) (elapsed : Duration) : Nat × Nat × Scheduler :=
  let (steps, stepCredit) := drain s.stepCredit elapsed.nanos s.rate.toNat
  let (ticks, tickCredit) := drain s.tickCredit elapsed.nanos ticksPerSecond
  (steps, ticks, ⟨s.rate, stepCredit, tickCredit⟩)

/-- An advance under way. -/
structure Progress where
  /-- The machine so far. -/
  machine : Machine
  /-- What came of it so far. -/
  advance : Advance
  /-- The journal so far. -/
  log : Array Log.Entry

namespace Progress

/-- Ticks the timers until `due` ticks have been applied in all. -/
def tickUntil (p : Progress) (due : Nat) : Progress :=
  { p with
    machine := p.machine.tickTimes (due - p.advance.ticks)
    advance := { p.advance with ticks := max p.advance.ticks due } }

/-- Notes what a step did. -/
def note (p : Progress) (machine : Machine) (written : Array Log.Entry) :
    Machine.StepOutcome → Progress
  | .executed _ =>
    ⟨machine, { p.advance with steps := p.advance.steps + 1 }, p.log ++ written⟩
  | .stalled =>
    ⟨machine, { p.advance with steps := p.advance.steps + 1, stalled := true },
      p.log ++ written⟩
  | .waiting register =>
    ⟨machine, { p.advance with waiting := some register }, p.log ++ written⟩

/-- One step, unless the machine has been found waiting; and the fault if it failed. -/
def step (p : Progress) : Progress × Option Fault :=
  match p.advance.waiting with
  | some _ => (p, none)
  | none =>
    match p.machine.step with
    | ⟨machine, .error fault, written⟩ =>
      (⟨machine, p.advance, p.log ++ written⟩, some fault)
    | ⟨machine, .ok outcome, written⟩ => (p.note machine written outcome, none)

end Progress

/-- Takes the last `left` of `steps` steps, and after each the ticks that are due by then. -/
def pace (steps ticks : Nat) (p : Progress) : Nat → Progress × Option AdvanceError
  | 0 => (p, none)
  | left + 1 =>
    match p.step with
    | (p, some fault) => (p, some (.fault fault))
    | (p, none) =>
      let product := ticks * (steps - left)
      if product < wordBound then
        pace steps ticks (p.tickUntil (product / steps)) left
      else
        (p, some .overflow)

/-- What letting time pass leaves behind. -/
structure Reply where
  /-- The scheduler, which has paid out what was owed whether or not it could be spent. -/
  scheduler : Scheduler
  /-- The machine after the advance. -/
  machine : Machine
  /-- What the advance came to. -/
  result : Except AdvanceError Advance
  /-- The journal of the advance, oldest entry first. -/
  log : Array Log.Entry

/-- Takes every step and applies every tick owed for `elapsed` more time.  Timers go on ticking
while the machine waits for a key.  A fault ends the advance at once. -/
def advance (s : Scheduler) (machine : Machine) (elapsed : Duration) : Reply :=
  let (steps, ticks, paid) := s.owe elapsed
  match pace steps ticks ⟨machine, Advance.zero, #[]⟩ steps with
  | (p, some error) => ⟨paid, p.machine, .error error, p.log⟩
  | (p, none) =>
    let p := p.tickUntil ticks
    ⟨paid, p.machine, .ok p.advance,
      p.log.push (.advanced elapsed p.advance.steps p.advance.ticks)⟩

end Scheduler

end ChipVm
