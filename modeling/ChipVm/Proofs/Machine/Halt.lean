/-
# Halted until reset

A step that fails halts the machine, and nothing but a reset brings it back.  Whatever else is
done to it, every step fails again with the same fault, running and letting time pass fail at
their first step, and the core of the machine stays as it was when the step failed, apart from
programs that are put into memory.

What could get in the way is a key press: it stores its code and moves the program counter if a
register waits for it, halted or not.  But a machine that is halted never waits
(`Machine.Coherent`).
-/
import Mathlib.Tactic.Lemma
import ChipVm.Proofs.Machine.KeyWait

namespace ChipVm

namespace Machine

variable {m before : Machine} {fault : Fault}

/-! ## The operations on a halted machine -/

lemma runUntilStall_halted (h : m.halted = some fault) {limit : Nat} (hlimit : 0 < limit) :
    (m.runUntilStall limit).result = .error fault := by
  obtain ⟨left, rfl⟩ := Nat.exists_eq_add_one_of_ne_zero (Nat.ne_of_gt hlimit)
  rw [runUntilStall, runFrom, step_halted h]

/-- Letting time pass fails at the first step, before any tick. -/
lemma advance_halted (h : m.halted = some fault) (s : Scheduler) {elapsed : Duration}
    (howed : 0 < (s.owe elapsed).1) :
    (s.advance m elapsed).result = .error (.fault fault) ∧
      (s.advance m elapsed).machine = m := by
  obtain ⟨left, hleft⟩ := Nat.exists_eq_add_one_of_ne_zero (Nat.ne_of_gt howed)
  have hstep : (⟨m, Advance.zero, #[]⟩ : Scheduler.Progress).step
      = (⟨m, Advance.zero, #[]⟩, some fault) := by
    simp only [Scheduler.Progress.step, Advance.zero, step_halted h, Array.append_empty]
  have hpace : Scheduler.pace (s.owe elapsed).1 (s.owe elapsed).2.1 ⟨m, Advance.zero, #[]⟩
      (left + 1) = (⟨m, Advance.zero, #[]⟩, some (.fault fault)) := by
    rw [Scheduler.pace, hstep]
  rw [← hleft] at hpace
  simp only [Scheduler.advance, hpace, and_self]

/-! ## What a halted machine keeps -/

/-- The machine is halted by the fault, with the core of `before` but for the memory. -/
structure Stopped (before : Machine) (fault : Fault) (m : Machine) : Prop where
  halted : m.halted = some fault
  awaiting : m.keypad.awaiting = none
  core : m.core = { before.core with memory := m.memory }

/-- A step that failed stops the machine, whether or not it was halted already. -/
lemma stopped_step (hm : m.Coherent) (h : m.step.result = .error fault) :
    Stopped m fault m.step.machine := by
  have hhalted : m.step.machine.halted = some fault ∧ m.step.machine.core = m.core := by
    cases hrun : m.halted with
    | some problem =>
      rw [step_halted hrun] at h ⊢
      obtain rfl := Except.error.inj h
      exact ⟨hrun, rfl⟩
    | none =>
      rw [(step_error hrun h).1]
      exact ⟨rfl, rfl⟩
  refine ⟨hhalted.1, hm.step.halted_or_waiting.resolve_left ?_, ?_⟩
  · rw [hhalted.1]
    exact nofun
  · rw [← hhalted.2]
    rfl

namespace Stopped

lemma step_eq (h : Stopped before fault m) : m.step = ⟨m, .error fault, #[]⟩ :=
  step_halted h.halted

lemma step (h : Stopped before fault m) : Stopped before fault m.step.machine := by
  rw [h.step_eq]
  exact h

lemma of_still {after : Machine} (h : Stopped before fault m) (hstill : Still m after) :
    Stopped before fault after := by
  have hmemory : after.memory = m.memory := congrArg Core.memory hstill.core
  refine ⟨hstill.halted.trans h.halted, hstill.awaiting.trans h.awaiting, ?_⟩
  rw [hstill.core, h.core, hmemory]

lemma tickTimers (h : Stopped before fault m) : Stopped before fault m.tickTimers :=
  h.of_still m.still_tickTimers

lemma takeFrame (h : Stopped before fault m) : Stopped before fault m.takeFrame.2 :=
  h.of_still m.still_takeFrame

lemma setKey (h : Stopped before fault m) (code : UInt8) (down : Bool) :
    Stopped before fault (m.setKey code down).machine ∧
      (m.setKey code down).machine.memory = m.memory := by
  have hstill : Still m (m.setKey code down).machine := still_setKey (Or.inr (Or.inr h.awaiting))
  exact ⟨h.of_still hstill, congrArg Core.memory hstill.core⟩

lemma loadProgram (h : Stopped before fault m) (program : List UInt8) :
    Stopped before fault (m.loadProgram program).machine := by
  have hparts : ∀ memory, Stopped before fault { m with memory } := by
    intro memory
    refine ⟨h.halted, h.awaiting, ?_⟩
    have hcore : ({ m with memory } : Machine).core = { m.core with memory } := rfl
    rw [hcore, h.core]
  rw [Machine.loadProgram]
  split <;> exact hparts _

/-- Whatever is done to a stopped machine but a reset leaves it stopped. -/
lemma after (h : Stopped before fault m) {history : List Operation}
    (hreset : ∀ operation ∈ history, ∀ entropy, operation.command ≠ .reset entropy) :
    Stopped before fault (m.after history) := by
  refine after_keeps (fun _ hm => hm.step) (fun _ hm => hm.tickTimers) ?_ h
  rintro ⟨command, scheduler⟩ hmem
  cases command with
  | load program => exact fun m hm => hm.loadProgram program
  | reset entropy => exact absurd rfl (hreset _ hmem entropy)
  | setKey code down => exact fun m hm => (hm.setKey code down).1
  | takeFrame => exact fun m hm => hm.takeFrame
  | _ => trivial

/-- Nothing but a new program changes the memory of a stopped machine. -/
lemma memory_perform (h : Stopped before fault m) {operation : Operation}
    (hreset : ∀ entropy, operation.command ≠ .reset entropy)
    (hload : ∀ program, operation.command ≠ .load program) :
    (m.perform operation).console.machine.memory = m.memory := by
  have hkept : Stopped before fault (m.after [operation]) ∧
      (m.after [operation]).memory = m.memory := by
    refine after_keeps (P := fun later => Stopped before fault later ∧ later.memory = m.memory)
      ?_ (fun _ hm => ⟨hm.1.tickTimers, hm.2⟩) ?_ ⟨h, rfl⟩
    · intro m hm
      rw [hm.1.step_eq]
      exact hm
    · intro found hmem
      obtain rfl := List.mem_singleton.mp hmem
      obtain ⟨command, scheduler⟩ := found
      cases command with
      | load program => exact absurd rfl (hload program)
      | reset entropy => exact absurd rfl (hreset entropy)
      | setKey code down =>
        intro m hm
        obtain ⟨hstopped, hmemory⟩ := hm.1.setKey code down
        exact ⟨hstopped, hmemory.trans hm.2⟩
      | takeFrame => exact fun m hm => ⟨hm.1.takeFrame, hm.2⟩
      | _ => trivial
  exact hkept.2

end Stopped

/-! ## From the fault to the reset -/

/-- Once a step has failed, nothing but a reset changes what the machine is and does. -/
theorem halted_until_reset (m : Machine) (hm : m.Reachable) (fault : Fault)
    (hfault : m.step.result = .error fault) (history : List Operation)
    (hreset : ∀ operation ∈ history, ∀ entropy, operation.command ≠ .reset entropy)
    (later : Machine) (hlater : later = m.step.machine.after history) :
    later.status = .halted fault ∧
    later.step.result = .error fault ∧
    (∀ limit, 0 < limit → (later.runUntilStall limit).result = .error fault) ∧
    (∀ (s : Scheduler) (elapsed : Duration), 0 < (s.owe elapsed).1 →
      (s.advance later elapsed).result = .error (.fault fault) ∧
      (s.advance later elapsed).machine = later) ∧
    later.core = { m.core with memory := later.memory } ∧
    (∀ operation, (∀ entropy, operation.command ≠ .reset entropy) →
      (later.perform operation).console.machine.memory ≠ later.memory →
      ∃ program, operation.command = .load program) := by
  have hstopped : Stopped m fault later := by
    rw [hlater]
    exact (stopped_step hm.coherent hfault).after hreset
  refine ⟨?_, ?_, ?_, ?_, hstopped.core, ?_⟩
  · simp only [status, hstopped.halted]
  · rw [hstopped.step_eq]
  · intro limit hlimit
    exact runUntilStall_halted hstopped.halted hlimit
  · intro s elapsed howed
    exact advance_halted hstopped.halted s howed
  · intro operation hnoreset hchanged
    by_cases hload : ∃ program, operation.command = .load program
    · exact hload
    · refine absurd (hstopped.memory_perform hnoreset ?_) hchanged
      exact fun program hcommand => hload ⟨program, hcommand⟩

/-- A program of one word that is no instruction, on a fresh machine. -/
def lawless : Machine := ((ofConfig Config.standard 0).loadProgram [0xFF, 0xFF]).machine

lemma lawless_step : lawless.step.result = .error (.unknownOpcode 0xFFFF 0x200) := by
  obtain ⟨memory, heq, hread⟩ := loadProgram_word Config.standard 0 0xFF 0xFF
  have hfetch : lawless.fetch = .error (.unknownOpcode 0xFFFF 0x200) := by
    have hread' : lawless.memory.read16 lawless.registers.pc.toNat = .ok 0xFFFF := by
      rw [lawless, heq]
      exact hread
    have hpc : lawless.registers.pc = 0x200 := by
      rw [lawless, heq]
      rfl
    have hdecode : Instruction.decode 0xFFFF = none := by decide
    rw [fetch, hread']
    simp only [hdecode, hpc]
  have hrun : lawless.halted = none ∧ lawless.keypad.awaiting = none := by
    rw [lawless, heq]
    exact ⟨rfl, rfl⟩
  rw [step_running hrun.1 hrun.2, cycle, hfetch]
  rfl

/-- After the fault another program is loaded, a key is pressed, and time passes. -/
def afterwards : List Operation :=
  [⟨.load [0x12, 0x00], Scheduler.ofRate 700⟩, ⟨.setKey 4 true, Scheduler.ofRate 700⟩,
    ⟨.advance ⟨1000000, by decide⟩, Scheduler.ofRate 60⟩]

/-- The other program does not run: its first step fails as the first one did. -/
theorem halted_until_reset_lawless :
    lawless.Reachable ∧
    lawless.step.result = .error (.unknownOpcode 0xFFFF 0x200) ∧
    (lawless.step.machine.after afterwards).status = .halted (.unknownOpcode 0xFFFF 0x200) ∧
    (lawless.step.machine.after afterwards).step.result
      = .error (.unknownOpcode 0xFFFF 0x200) := by
  have hreach : lawless.Reachable := (Reachable.start Config.standard 0).load [0xFF, 0xFF]
  have hreset : ∀ operation ∈ afterwards, ∀ entropy, operation.command ≠ .reset entropy := by
    simp [afterwards]
  obtain ⟨hstatus, hstep, -⟩ := halted_until_reset lawless hreach _ lawless_step afterwards
    hreset _ rfl
  exact ⟨hreach, lawless_step, hstatus, hstep⟩

end Machine

end ChipVm
