/-
# The console

A machine together with the scheduler that drives it, and everything that can be done to the
pair from outside.  A history of commands, whatever their order, is a list, and
`Console.run` follows it.
-/
import ChipVm.Pacing.Scheduler

namespace ChipVm

/-- A machine and its scheduler. -/
structure Console where
  /-- The machine. -/
  machine : Machine
  /-- The scheduler that lets time pass for it. -/
  scheduler : Scheduler
deriving DecidableEq

/-- What can be done to a console. -/
inductive Command where
  /-- Put a program into memory. -/
  | load (program : List UInt8)
  /-- Start the machine over; without a seed, its random bytes come from `entropy`. -/
  | reset (entropy : UInt64)
  /-- Take one step. -/
  | step
  /-- Step until nothing more can happen, at most `limit` times. -/
  | run (limit : Nat)
  /-- Move a key. -/
  | setKey (code : UInt8) (down : Bool)
  /-- Tick both timers the given number of times. -/
  | tick (times : Nat)
  /-- Take the frame if it changed. -/
  | takeFrame
  /-- Let time pass. -/
  | advance (elapsed : Duration)
  /-- Drop the time carried over. -/
  | resetScheduler
deriving DecidableEq, Repr

/-- What a command comes to when it succeeds. -/
inductive Answer where
  | done
  /-- What the step did. -/
  | stepped (outcome : Machine.StepOutcome)
  /-- The number of steps taken. -/
  | ran (steps : Nat)
  /-- The frame, if it changed. -/
  | frame (frame : Option Frame)
  /-- What came of the time that passed. -/
  | advanced (advance : Advance)
deriving DecidableEq

namespace Console

/-- A console as it is switched on. -/
def ofConfig (config : Config) (entropy : UInt64) : Console :=
  ⟨Machine.ofConfig config entropy, Scheduler.ofConfig config⟩

/-- What a command leaves behind. -/
structure Reply where
  /-- The console after the command. -/
  console : Console
  /-- What the command came to. -/
  result : Except AdvanceError Answer
  /-- The journal of the command, oldest entry first. -/
  log : Array Log.Entry

/-- The reply to a command that concerns the machine alone. -/
def ofMachineReply {α : Type} (console : Console) (answer : α → Answer)
    (reply : Machine.Reply α) : Reply :=
  ⟨{ console with machine := reply.machine },
    match reply.result with
    | .ok value => .ok (answer value)
    | .error fault => .error (.fault fault),
    reply.log⟩

/-- Carries out one command. -/
def perform (console : Console) : Command → Reply
  | .load program =>
    console.ofMachineReply (fun _ => .done) (console.machine.loadProgram program)
  | .reset entropy => console.ofMachineReply (fun _ => .done) (console.machine.reset entropy)
  | .step => console.ofMachineReply .stepped console.machine.step
  | .run limit => console.ofMachineReply .ran (console.machine.runUntilStall limit)
  | .setKey code down =>
    console.ofMachineReply (fun _ => .done) (console.machine.setKey code down)
  | .tick times =>
    ⟨{ console with machine := console.machine.tickTimes times }, .ok .done, #[]⟩
  | .takeFrame =>
    let (frame, machine) := console.machine.takeFrame
    ⟨{ console with machine }, .ok (.frame frame), #[]⟩
  | .advance elapsed =>
    let reply := console.scheduler.advance console.machine elapsed
    ⟨⟨reply.machine, reply.scheduler⟩, reply.result.map .advanced, reply.log⟩
  | .resetScheduler =>
    ⟨{ console with scheduler := console.scheduler.reset }, .ok .done, #[]⟩

/-- The console after a history of commands. -/
def run (console : Console) (commands : List Command) : Console :=
  commands.foldl (fun console command => (console.perform command).console) console

end Console

end ChipVm
