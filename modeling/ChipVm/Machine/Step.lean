/-
# Running a program

A step fetches, decodes and executes the instruction at the program counter.  It does nothing
on a machine that is halted or waits for a key.  A fault halts the machine.

`Machine.runUntilStall` steps until nothing more can happen or a limit is reached.
-/
import ChipVm.Instruction.Encoding
import ChipVm.Machine.Execute

namespace ChipVm.Machine

/-- What one step did. -/
inductive StepOutcome where
  /-- An instruction ran. -/
  | executed (instruction : Instruction)
  /-- Nothing ran: this register waits for a key. -/
  | waiting (register : Register)
  /-- A jump to itself ran: the program makes no more progress. -/
  | stalled
deriving DecidableEq, Repr

/-- The opcode at the program counter, and the instruction it stands for. -/
def fetch (m : Machine) : Except Fault (UInt16 × Instruction) :=
  match m.memory.read16 m.registers.pc.toNat with
  | .error fault => .error fault
  | .ok opcode =>
    match Instruction.decode opcode with
    | none => .error (.unknownOpcode opcode m.registers.pc)
    | some instruction => .ok (opcode, instruction)

/-- Stops the machine with a fault. -/
def halt (m : Machine) (fault : Fault) (log : Array Log.Entry) : Reply StepOutcome :=
  ⟨{ m with halted := some fault }, .error fault, log.push (.halted fault)⟩

/-- What is to be said of an instruction that stood at `pc` and ran. -/
def outcomeAt (pc : UInt16) (instruction : Instruction) : StepOutcome :=
  if instruction = .jump pc then .stalled else .executed instruction

/-- What is written into the journal after an instruction has run. -/
def epilogue : Instruction → Array Log.Entry
  | .awaitKey register => #[.awaiting register]
  | _ => #[]

/-- Fetches, decodes and executes one instruction. -/
def cycle (m : Machine) : Reply StepOutcome :=
  match m.fetch with
  | .error fault => m.halt fault #[]
  | .ok (opcode, instruction) =>
    let log := #[.executing opcode instruction m.registers]
    match m.execute instruction with
    | .error fault after => after.halt fault log
    | .ok _ after =>
      ⟨after, .ok (outcomeAt m.registers.pc instruction), log ++ epilogue instruction⟩

/-- One step: nothing on a halted or a waiting machine, else one instruction. -/
def step (m : Machine) : Reply StepOutcome :=
  match m.halted with
  | some fault => ⟨m, .error fault, #[]⟩
  | none =>
    match m.keypad.awaiting with
    | some register => ⟨m, .ok (.waiting register), #[]⟩
    | none => m.cycle

/-- Goes on stepping, `taken` steps having been taken and written into `log`. -/
def runFrom (taken : Nat) (log : Array Log.Entry) (m : Machine) : Nat → Reply Nat
  | 0 => ⟨m, .ok taken, log⟩
  | left + 1 =>
    match m.step with
    | ⟨after, .error fault, written⟩ => ⟨after, .error fault, log ++ written⟩
    | ⟨after, .ok (.executed _), written⟩ => runFrom (taken + 1) (log ++ written) after left
    | ⟨after, .ok _, written⟩ => ⟨after, .ok (taken + 1), log ++ written⟩

/-- Steps until the program waits, stalls or faults, but at most `limit` times.  The result is
the number of steps taken. -/
def runUntilStall (m : Machine) (limit : Nat) : Reply Nat :=
  runFrom 0 #[] m limit

end ChipVm.Machine
