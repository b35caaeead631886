/-
# Histories

A history is a list of operations on a machine.  An operation is a command together with the
scheduler that is at hand when it is given: time may be let pass by one scheduler now and by
another one later, and only the machine is carried from one operation to the next.

`Machine.after_keeps` is the run lemma for histories: what steps and ticks keep is kept by a
history if the commands in it that are not made of steps and ticks keep it too.
`Machine.after_keeps_unless` is the same for what a step keeps as long as the journal does not
tell of something.

The core of a machine is what a program works on.  From outside, only a new program, a reset and
a key press that was waited for change it (`Machine.loadProgram_machine`,
`Machine.setKey_machine`).
-/
import Mathlib.Tactic.Lemma
import ChipVm.Console
import ChipVm.Proofs.Machine.Journal
import ChipVm.Proofs.Machine.Moves

namespace ChipVm

/-- Something that is done to a machine. -/
structure Operation where
  /-- What is done. -/
  command : Command
  /-- What lets time pass, if that is what is done. -/
  scheduler : Scheduler

/-- That a command keeps `P`, as far as this does not follow from what steps and ticks keep. -/
def Command.Keeps (P : Machine → Prop) : Command → Prop
  | .load program => ∀ m : Machine, P m → P (m.loadProgram program).machine
  | .reset entropy => ∀ m : Machine, P m → P (m.reset entropy).machine
  | .setKey code down => ∀ m : Machine, P m → P (m.setKey code down).machine
  | .takeFrame => ∀ m : Machine, P m → P m.takeFrame.2
  | _ => True

/-- What a program works on: everything that shows in its course but the timers and the keys,
which change by themselves. -/
structure Core where
  /-- The byte registers, the index register and the program counter. -/
  registers : RegisterFile
  /-- The bytes that programs live in. -/
  memory : Memory
  /-- The open subroutine calls. -/
  stack : CallStack
  /-- Where random bytes come from. -/
  generator : Generator
  /-- The pixels. -/
  frame : Frame

namespace Machine

/-- The core of the machine. -/
def core (m : Machine) : Core :=
  ⟨m.registers, m.memory, m.stack, m.generator, m.screen.frame⟩

@[simp] lemma core_tickTimers (m : Machine) : m.tickTimers.core = m.core := rfl

@[simp] lemma core_takeFrame (m : Machine) : m.takeFrame.2.core = m.core := by
  simp only [core, takeFrame, Screen.takeFrame]
  split <;> rfl

/-- A new program touches nothing but memory. -/
lemma loadProgram_machine (m : Machine) (program : List UInt8) :
    ∃ memory, (m.loadProgram program).machine = { m with memory } := by
  rw [loadProgram]
  split <;> exact ⟨_, rfl⟩

/-- A key touches nothing but the keypad, and the registers when it ends a wait. -/
lemma setKey_machine (m : Machine) (code : UInt8) (down : Bool) :
    ∃ keypad registers, (m.setKey code down).machine = { m with keypad, registers } := by
  rw [setKey]
  split <;> exact ⟨_, _, rfl⟩

/-- The journal of a program that is loaded tells of nothing else. -/
lemma mem_log_loadProgram {m : Machine} {program : List UInt8} {entry : Log.Entry}
    (h : entry ∈ (m.loadProgram program).log) : entry = .loaded program.length := by
  rw [loadProgram] at h
  split at h
  · simp at h
  · simpa using h

/-- Nor does that of a key. -/
lemma mem_log_setKey {m : Machine} {code : UInt8} {down : Bool} {entry : Log.Entry}
    (h : entry ∈ (m.setKey code down).log) : ∃ register, entry = .resumed register code := by
  rw [setKey] at h
  split at h
  · simp at h
  · simp at h
  · rename_i register keypad _
    exact ⟨register, by simpa using h⟩

/-- Carries out one operation. -/
def perform (m : Machine) (operation : Operation) : Console.Reply :=
  (⟨m, operation.scheduler⟩ : Console).perform operation.command

/-- The machine after a history of operations. -/
def after (m : Machine) : List Operation → Machine
  | [] => m
  | operation :: rest => (m.perform operation).console.machine.after rest

/-- The journal of a history of operations. -/
def journal (m : Machine) : List Operation → List Log.Entry
  | [] => []
  | operation :: rest =>
    (m.perform operation).log.toList ++ (m.perform operation).console.machine.journal rest

lemma after_append (m : Machine) (first rest : List Operation) :
    m.after (first ++ rest) = (m.after first).after rest := by
  induction first generalizing m with
  | nil => rfl
  | cons operation first ih => exact ih (m.perform operation).console.machine

variable {P : Machine → Prop} {Q : Log.Entry → Prop} {m : Machine}

/-- The step lemma: one operation, of whose journal something can be said. -/
lemma perform_keeps_unless
    (hstep : ∀ m, P m → (∀ entry ∈ m.step.log, Q entry) → P m.step.machine)
    (htick : ∀ m, P m → P m.tickTimers) {operation : Operation}
    (hcommand : operation.command.Keeps P) (hm : P m)
    (hlog : ∀ entry ∈ (m.perform operation).log, Q entry) :
    P (m.perform operation).console.machine := by
  obtain ⟨command, scheduler⟩ := operation
  cases command with
  | load program => exact hcommand m hm
  | reset entropy => exact hcommand m hm
  | step => exact hstep m hm hlog
  | run limit => exact (m.moves_runUntilStall limit).keeps_unless hstep htick hm hlog
  | setKey code down => exact hcommand m hm
  | tick times => exact tickTimes_keeps htick hm times
  | takeFrame => exact hcommand m hm
  | advance elapsed =>
    obtain ⟨written, hmoves, hwritten⟩ := scheduler.moves_advance m elapsed
    refine hmoves.keeps_unless hstep htick hm fun entry hentry => hlog entry ?_
    show entry ∈ (scheduler.advance m elapsed).log
    rcases hwritten with hsame | ⟨steps, ticks, hpushed⟩
    · rw [hsame]
      exact hentry
    · rw [hpushed]
      exact Array.mem_push_of_mem _ hentry
  | resetScheduler => exact hm

/-- The run lemma, for a history of whose journal something can be said. -/
lemma after_keeps_unless
    (hstep : ∀ m, P m → (∀ entry ∈ m.step.log, Q entry) → P m.step.machine)
    (htick : ∀ m, P m → P m.tickTimers) {history : List Operation}
    (hcommand : ∀ operation ∈ history, operation.command.Keeps P) (hm : P m)
    (hlog : ∀ entry ∈ m.journal history, Q entry) : P (m.after history) := by
  induction history generalizing m with
  | nil => exact hm
  | cons first rest ih =>
    have hfirst : P (m.perform first).console.machine := by
      refine perform_keeps_unless hstep htick (hcommand first List.mem_cons_self) hm ?_
      intro entry hentry
      exact hlog entry (List.mem_append_left _ (Array.mem_toList_iff.mpr hentry))
    refine ih (fun operation h => hcommand operation (List.mem_cons_of_mem _ h)) hfirst ?_
    intro entry hentry
    exact hlog entry (List.mem_append_right _ hentry)

/-- The run lemma, for what steps keep whatever they run. -/
lemma after_keeps (hstep : ∀ m, P m → P m.step.machine) (htick : ∀ m, P m → P m.tickTimers)
    {history : List Operation} (hcommand : ∀ operation ∈ history, operation.command.Keeps P)
    (hm : P m) : P (m.after history) :=
  after_keeps_unless (Q := fun _ => True) (fun m hm _ => hstep m hm) htick hcommand hm
    fun _ _ => trivial

end Machine

end ChipVm
