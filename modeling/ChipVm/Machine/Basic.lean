/-
# The machine

Every piece of state that a running program can touch, in one record.  A machine is running,
waiting for a key, or halted by a fault; only a reset brings a halted machine back.

Without a seed the random bytes start from entropy.  That is a value the caller hands in, so
that a machine is a function of its configuration and of what it is handed.
-/
import ChipVm.CallStack
import ChipVm.Config.Basic
import ChipVm.Keypad
import ChipVm.Log
import ChipVm.Memory
import ChipVm.Random
import ChipVm.RegisterFile
import ChipVm.Screen
import ChipVm.Timers

namespace ChipVm

/-- The state of the whole machine. -/
structure Machine where
  /-- The bytes that programs live in. -/
  memory : Memory
  /-- The byte registers, the index register and the program counter. -/
  registers : RegisterFile
  /-- The open subroutine calls. -/
  stack : CallStack
  /-- The delay and the sound timer. -/
  timers : Timers
  /-- What is on display. -/
  screen : Screen
  /-- The keys, and who waits for one. -/
  keypad : Keypad
  /-- How the disputed instructions behave. -/
  dialect : Dialect
  /-- Where random bytes come from. -/
  generator : Generator
  /-- What the random bytes start from after a reset. -/
  seed : Option UInt64
  /-- The fault that stopped the machine. -/
  halted : Option Fault
deriving DecidableEq

namespace Machine

/-- A fresh generator: from the seed if there is one, else from entropy. -/
def freshGenerator (seed : Option UInt64) (entropy : UInt64) : Generator :=
  Generator.ofSeed (seed.getD entropy)

/-- A machine as it is switched on. -/
def ofConfig (config : Config) (entropy : UInt64) : Machine where
  memory := Memory.initial
  registers := RegisterFile.initial
  stack := CallStack.empty
  timers := Timers.stopped
  screen := Screen.initial
  keypad := Keypad.released
  dialect := config.dialect
  generator := freshGenerator config.seed entropy
  seed := config.seed
  halted := none

/-- Where the machine is in its cycle of running, waiting and halting. -/
inductive Status where
  | running
  /-- The next key press lands in this register. -/
  | waiting (register : Register)
  /-- Nothing runs until a reset. -/
  | halted (fault : Fault)
deriving DecidableEq, Repr

/-- The status of the machine. -/
def status (m : Machine) : Status :=
  match m.halted, m.keypad.awaiting with
  | some fault, _ => .halted fault
  | none, some register => .waiting register
  | none, none => .running

/-- The status in words. -/
def Status.text : Status → String
  | running => "running"
  | waiting register => "waiting " ++ register.name
  | halted fault => "halted: " ++ fault.message

/-- What an operation leaves behind: the machine, its result or the fault that kept it from one,
and what it wrote into the journal on the way. -/
structure Reply (α : Type) where
  /-- The machine after the operation. -/
  machine : Machine
  /-- What the operation came to. -/
  result : Except Fault α
  /-- The journal of the operation, oldest entry first. -/
  log : Array Log.Entry

/-- Puts a program into memory.  A program that is too large changes nothing. -/
def loadProgram (m : Machine) (program : List UInt8) : Reply Unit :=
  match m.memory.load program with
  | .error fault memory => ⟨{ m with memory }, .error fault, #[]⟩
  | .ok _ memory => ⟨{ m with memory }, .ok (), #[.loaded program.length]⟩

/-- Puts everything back to where it was when the machine was switched on, memory included.  The
screen is blank, but marked as changed so that a renderer picks up the wipe. -/
def reset (m : Machine) (entropy : UInt64) : Reply Unit :=
  ⟨{ m with
      memory := Memory.initial
      registers := RegisterFile.initial
      stack := CallStack.empty
      timers := Timers.stopped
      screen := m.screen.clear
      keypad := Keypad.released
      generator := freshGenerator m.seed entropy
      halted := none },
    .ok (), #[.resetting]⟩

/-- Moves a key up or down.  A press that a register waits for is stored there, and execution
goes on with the next instruction. -/
def setKey (m : Machine) (code : UInt8) (down : Bool) : Reply Unit :=
  match m.keypad.setKey code down with
  | .error fault keypad => ⟨{ m with keypad }, .error fault, #[]⟩
  | .ok none keypad => ⟨{ m with keypad }, .ok (), #[]⟩
  | .ok (some register) keypad =>
    ⟨{ m with keypad, registers := (m.registers.set register code).advance },
      .ok (), #[.resumed register code]⟩

/-- One tick of both timers. -/
def tickTimers (m : Machine) : Machine :=
  { m with timers := m.timers.tick }

/-- The given number of ticks. -/
def tickTimes (m : Machine) : Nat → Machine
  | 0 => m
  | n + 1 => m.tickTimers.tickTimes n

/-- The frame, if it changed since it was last taken. -/
def takeFrame (m : Machine) : Option Frame × Machine :=
  let (frame, screen) := m.screen.takeFrame
  (frame, { m with screen })

end Machine

end ChipVm
