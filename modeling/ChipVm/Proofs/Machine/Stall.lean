/-
# Stalled for good

A program that jumps to where it is makes no more progress.  The jump changes nothing at all, so
the same jump is fetched again, and what is done to the machine from outside does not get it out of
there: keys go up and down without anybody waiting for them, timers tick, frames are taken.  Only
another program or a reset would.

`Machine.Stalled` is what such a machine keeps.  Every step of it stalls again
(`Machine.Stalled.step_eq`), so running it ends after one step, and when time passes every step
that is owed is taken and stalls (`Machine.Stalled.advance_of_fits`).
-/
import Mathlib.Tactic.Lemma
import ChipVm.Proofs.Pacing.Even

namespace ChipVm

/-- What can be done to a machine without giving it another program: anything but to load one and
to reset. -/
def Command.LeavesProgram : Command → Prop
  | .load _ => False
  | .reset _ => False
  | _ => True

namespace Scheduler

variable {P : Machine → Prop}

/-- If steps and ticks keep what lets a step succeed, the pacing loop meets no fault. -/
lemma pace_ne_fault_of_kept (hstep : ∀ m, P m → P m.step.machine)
    (htick : ∀ m, P m → P m.tickTimers)
    (hok : ∀ m, P m → ∃ outcome, m.step.result = .ok outcome) (steps ticks : Nat) {p : Progress}
    (h : P p.machine) (left : Nat) (fault : Fault) :
    (pace steps ticks p left).2 ≠ some (.fault fault) := by
  induction left generalizing p with
  | zero => exact nofun
  | succ left ih =>
    obtain ⟨_, -, hmoves⟩ := p.moves_turn
    have hnext := hmoves.keeps hstep htick h
    have hturn : p.step.2 = none := by
      cases hwaiting : p.advance.waiting with
      | some x => rw [Progress.step, hwaiting]
      | none =>
        obtain ⟨outcome, houtcome⟩ := hok _ h
        rw [p.step_of_ok hwaiting houtcome]
    rw [pace]
    rcases hreply : p.step with ⟨next, failed⟩
    rw [hreply] at hnext hturn
    obtain rfl : failed = none := hturn
    dsimp only
    split
    · exact ih (Machine.tickTimes_keeps htick hnext _)
    · simp

end Scheduler

namespace Machine

variable {m before : Machine}

/-! ## Stalled machines -/

/-- What stands at the program counter is part of the core. -/
lemma fetch_of_core (h : m.core = before.core) : m.fetch = before.fetch := by
  have hmemory : m.memory = before.memory := congrArg Core.memory h
  have hregisters : m.registers = before.registers := congrArg Core.registers h
  rw [fetch, fetch, hmemory, hregisters]

/-- The machine has the core of `before`, in which a jump to itself stands at the program
counter. -/
structure Stalled (before m : Machine) : Prop where
  halted : m.halted = none
  awaiting : m.keypad.awaiting = none
  core : m.core = before.core
  jump : ∃ op, before.fetch = .ok (op, .jump before.registers.pc)

/-- A step that stalls has found a jump to itself. -/
lemma stalled_of_step (h : m.step.result = .ok .stalled) : Stalled m m := by
  obtain ⟨hrun, ⟨x, -, hx, -⟩ | ⟨hkey, op, i, hfetch, -, hi⟩⟩ := step_ok_cases h
  · cases hx
  · rw [outcomeAt] at hi
    split at hi
    · rename_i hjump
      exact ⟨hrun, hkey, rfl, op, hjump ▸ hfetch⟩
    · cases hi

namespace Stalled

lemma upcoming (h : Stalled before m) : m.upcoming = some (.jump m.registers.pc) := by
  obtain ⟨op, hjump⟩ := h.jump
  have hregisters : m.registers = before.registers := congrArg Core.registers h.core
  rw [← fetch_of_core h.core, ← hregisters] at hjump
  exact upcoming_eq_some.mpr ⟨h.halted, h.awaiting, op, hjump⟩

/-- The jump leads to where it is, and changes nothing. -/
lemma step_eq (h : Stalled before m) : m.step.machine = m ∧ m.step.result = .ok .stalled := by
  obtain ⟨hafter, hresult⟩ := step_of_execute h.upcoming rfl
  refine ⟨hafter, ?_⟩
  rw [hresult, outcomeAt, if_pos rfl]

lemma step (h : Stalled before m) : Stalled before m.step.machine := by
  rw [h.step_eq.1]
  exact h

lemma of_still {after : Machine} (h : Stalled before m) (hstill : Still m after) :
    Stalled before after :=
  ⟨hstill.halted.trans h.halted, hstill.awaiting.trans h.awaiting, hstill.core.trans h.core, h.jump⟩

lemma tickTimers (h : Stalled before m) : Stalled before m.tickTimers :=
  h.of_still m.still_tickTimers

/-- Whatever is done to a stalled machine, it stays stalled. -/
lemma after (h : Stalled before m) {history : List Operation}
    (hhistory : ∀ operation ∈ history, operation.command.LeavesProgram) :
    Stalled before (m.after history) := by
  refine after_keeps (fun _ hm => hm.step) (fun _ hm => hm.tickTimers) ?_ h
  rintro ⟨command, scheduler⟩ hmem
  have hcommand := hhistory _ hmem
  cases command with
  | load program => exact hcommand.elim
  | reset entropy => exact hcommand.elim
  | setKey code down => exact fun _ hm => hm.of_still (still_setKey (Or.inr (Or.inr hm.awaiting)))
  | takeFrame => exact fun m hm => hm.of_still m.still_takeFrame
  | _ => trivial

/-! ## The operations on a stalled machine -/

/-- A run of a stalled machine ends with its first step. -/
lemma runUntilStall_eq (h : Stalled before m) {limit : Nat} (hlimit : 0 < limit) :
    (m.runUntilStall limit).result = .ok 1 ∧ (m.runUntilStall limit).machine = m := by
  obtain ⟨left, rfl⟩ := Nat.exists_eq_add_one_of_ne_zero (Nat.ne_of_gt hlimit)
  obtain ⟨hmachine, hresult⟩ := h.step_eq
  rw [runUntilStall, runFrom]
  rcases hreply : m.step with ⟨after, result, written⟩
  rw [hreply] at hmachine hresult
  obtain rfl : result = .ok .stalled := hresult
  exact ⟨rfl, hmachine⟩

/-- When time passes, every step that is owed is taken, and the first of them stalls already. -/
lemma advance_of_fits (h : Stalled before m) (s : Scheduler) {elapsed : Duration}
    (hfits : (s.owe elapsed).1 * (s.owe elapsed).2.1 < wordBound) :
    ∃ waiting, (s.advance m elapsed).result
      = .ok ⟨(s.owe elapsed).1, (s.owe elapsed).2.1, decide (0 < (s.owe elapsed).1), waiting⟩ := by
  have hresults : Scheduler.evenResults (s.owe elapsed).1 (s.owe elapsed).2.1 m (s.owe elapsed).1
      = (List.replicate (s.owe elapsed).1 .stalled).map .ok :=
    Scheduler.evenResults_of_kept (fun _ hm => Stalled.step hm) (fun _ hm => hm.tickTimers)
      (fun _ hm => hm.step_eq.2) h _
  obtain ⟨⟨waiting, hadvance⟩, -⟩ := Scheduler.advance_of_ok rfl rfl hfits hresults
  refine ⟨waiting, ?_⟩
  rw [hadvance]
  simp [List.countP_replicate, StepOutcome.ran, Nat.pos_iff_ne_zero]

/-- When the ticks that are due cannot be counted, time stops, but for no fault of the machine. -/
lemma advance_ne_fault (h : Stalled before m) (s : Scheduler) (elapsed : Duration)
    (fault : Fault) : (s.advance m elapsed).result ≠ .error (.fault fault) := by
  have hpace := Scheduler.pace_ne_fault_of_kept (fun _ hm => Stalled.step hm)
    (fun _ hm => hm.tickTimers) (fun _ hm => ⟨_, hm.step_eq.2⟩) (s.owe elapsed).1
    (s.owe elapsed).2.1 (p := ⟨m, Advance.zero, #[]⟩) h (s.owe elapsed).1 fault
  rw [Scheduler.advance]
  dsimp only
  split
  · rename_i p error heq
    rw [heq] at hpace
    intro herror
    exact hpace (congrArg some (Except.error.inj herror))
  · intro herror
    cases herror

/-- An operation on a stalled machine succeeds, unless it moves a key that does not exist, or lets
so much time pass that the ticks due cannot be counted. -/
lemma perform_result (h : Stalled before m) {operation : Operation}
    (hcommand : operation.command.LeavesProgram) :
    (∃ answer, (m.perform operation).result = .ok answer) ∨
    (∃ code down, operation.command = .setKey code down ∧ keyCount ≤ code.toNat ∧
      (m.perform operation).result = .error (.fault (.noSuchKey code))) ∨
    (∃ elapsed, operation.command = .advance elapsed ∧
      wordBound ≤ (operation.scheduler.owe elapsed).1 * (operation.scheduler.owe elapsed).2.1 ∧
      (m.perform operation).result = .error .overflow) := by
  obtain ⟨command, scheduler⟩ := operation
  cases command with
  | load program => exact hcommand.elim
  | reset entropy => exact hcommand.elim
  | step =>
    refine Or.inl ⟨.stepped .stalled, ?_⟩
    simp only [perform, Console.perform, Console.ofMachineReply, h.step_eq.2]
  | run limit =>
    refine Or.inl ?_
    simp only [perform, Console.perform, Console.ofMachineReply]
    rcases Nat.eq_zero_or_pos limit with rfl | hlimit
    · exact ⟨.ran 0, rfl⟩
    · exact ⟨.ran 1, by rw [(h.runUntilStall_eq hlimit).1]⟩
  | setKey code down =>
    simp only [perform, Console.perform, Console.ofMachineReply]
    rcases Nat.lt_or_ge code.toNat keyCount with hcode | hcode
    · refine Or.inl ⟨.done, ?_⟩
      cases down with
      | false => rw [setKey_release m hcode]
      | true => rw [setKey_press hcode h.awaiting]
    · refine Or.inr (Or.inl ⟨code, down, rfl, hcode, ?_⟩)
      rw [setKey_absent m hcode]
  | tick times => exact Or.inl ⟨.done, rfl⟩
  | takeFrame => exact Or.inl ⟨_, rfl⟩
  | advance elapsed =>
    have hresult : (m.perform ⟨.advance elapsed, scheduler⟩).result
        = (scheduler.advance m elapsed).result.map .advanced := rfl
    rw [hresult]
    rcases Nat.lt_or_ge ((scheduler.owe elapsed).1 * (scheduler.owe elapsed).2.1) wordBound
      with hfits | hfits
    · obtain ⟨waiting, hadvance⟩ := h.advance_of_fits scheduler hfits
      rw [hadvance]
      exact Or.inl ⟨_, rfl⟩
    · cases hadvance : (scheduler.advance m elapsed).result with
      | ok advance => exact Or.inl ⟨_, rfl⟩
      | error problem =>
        cases problem with
        | fault fault => exact absurd hadvance (h.advance_ne_fault scheduler elapsed fault)
        | overflow => exact Or.inr (Or.inr ⟨elapsed, rfl, hfits, rfl⟩)
  | resetScheduler => exact Or.inl ⟨.done, rfl⟩

end Stalled

/-! ## From the stall on -/

/-- A step that stalls changes nothing, and from then on every step stalls, whatever is done to the
machine without giving it another program.  Nothing fails but the move of a key that does not
exist; running takes a single step, letting time pass takes as many as are owed, and the core of
the machine stays as it is. -/
theorem stall_is_final (m : Machine) (hstall : m.step.result = .ok .stalled)
    (history : List Operation)
    (hhistory : ∀ operation ∈ history, operation.command.LeavesProgram)
    (later : Machine) (hlater : later = m.after history) :
    m.step.machine = m ∧
    (later.step.result = .ok .stalled ∧ later.step.machine = later) ∧
    (∀ operation : Operation, operation.command.LeavesProgram → ∀ fault,
      (later.perform operation).result = .error (.fault fault) →
      ∃ code down, operation.command = .setKey code down ∧ keyCount ≤ code.toNat) ∧
    (∀ operation : Operation, operation.command.LeavesProgram →
      (∀ code down, operation.command = .setKey code down → code.toNat < keyCount) →
      (∀ elapsed, operation.command = .advance elapsed →
        (operation.scheduler.owe elapsed).1 * (operation.scheduler.owe elapsed).2.1 < wordBound) →
      ∃ answer, (later.perform operation).result = .ok answer) ∧
    (∀ limit, 0 < limit → (later.runUntilStall limit).result = .ok 1) ∧
    (∀ (s : Scheduler) (elapsed : Duration), 0 < (s.owe elapsed).1 →
      (s.owe elapsed).1 * (s.owe elapsed).2.1 < wordBound →
      ∃ advance, (s.advance later elapsed).result = .ok advance ∧
        advance.stalled = true ∧ advance.steps = (s.owe elapsed).1) ∧
    later.core = m.core := by
  have hnow := stalled_of_step hstall
  have hstalled : Stalled m later := hlater ▸ hnow.after hhistory
  refine ⟨hnow.step_eq.1, hstalled.step_eq.symm, ?_, ?_, ?_, ?_, hstalled.core⟩
  · intro operation hcommand fault hfault
    rcases hstalled.perform_result hcommand with
      ⟨answer, hok⟩ | ⟨code, down, hkey, hcode, -⟩ | ⟨elapsed, -, -, hoverflow⟩
    · rw [hok] at hfault
      cases hfault
    · exact ⟨code, down, hkey, hcode⟩
    · rw [hoverflow] at hfault
      cases hfault
  · intro operation hcommand hkeys hfits
    rcases hstalled.perform_result hcommand with
      hok | ⟨code, down, hkey, hcode, -⟩ | ⟨elapsed, hadvance, hlarge, -⟩
    · exact hok
    · exact absurd (hkeys code down hkey) (Nat.not_lt.mpr hcode)
    · exact absurd (hfits elapsed hadvance) (Nat.not_lt.mpr hlarge)
  · intro limit hlimit
    exact (hstalled.runUntilStall_eq hlimit).1
  · intro s elapsed howed hfits
    obtain ⟨waiting, hadvance⟩ := hstalled.advance_of_fits s hfits
    exact ⟨_, hadvance, decide_eq_true howed, rfl⟩

/-- A program that jumps to itself, on a fresh machine. -/
def treadmill : Machine := ((ofConfig Config.standard 0).loadProgram [0x12, 0x00]).machine

lemma treadmill_step : treadmill.step.result = .ok .stalled := by
  obtain ⟨memory, heq, hread⟩ := loadProgram_word Config.standard 0 0x12 0x00
  have hup : treadmill.upcoming = some (.jump 0x200) := by
    rw [treadmill, heq]
    exact upcoming_eq_some.mpr ⟨rfl, rfl, 0x1200, fetch_of_read16 hread rfl⟩
  have hpc : treadmill.registers.pc = 0x200 := by
    rw [treadmill, heq]
    rfl
  rw [(step_of_execute hup rfl).2, hpc]
  rfl

/-- Keys are pressed, one of which does not exist, time passes, and the frame is taken. -/
def attempts : List Operation :=
  [⟨.setKey 5 true, Scheduler.ofRate 700⟩, ⟨.setKey 16 true, Scheduler.ofRate 700⟩,
    ⟨.advance ⟨40000000, by decide⟩, Scheduler.ofRate 700⟩, ⟨.takeFrame, Scheduler.ofRate 700⟩]

/-- None of it gets the program away from its jump: at a hundred steps a second, 55 milliseconds
more are five steps that stall. -/
theorem stall_is_final_treadmill :
    treadmill.step.result = .ok .stalled ∧
    (treadmill.after attempts).step.result = .ok .stalled ∧
    ((treadmill.after attempts).runUntilStall 9).result = .ok 1 ∧
    ∃ advance, ((Scheduler.ofRate 100).advance (treadmill.after attempts)
        ⟨55000000, by decide⟩).result = .ok advance ∧
      advance.stalled = true ∧ advance.steps = 5 := by
  have hattempts : ∀ operation ∈ attempts, operation.command.LeavesProgram := by
    simp [attempts, Command.LeavesProgram]
  obtain ⟨-, ⟨hstep, -⟩, -, -, hrun, hadvance, -⟩ :=
    stall_is_final treadmill treadmill_step attempts hattempts _ rfl
  exact ⟨treadmill_step, hstep, hrun 9 (by decide), hadvance _ _ (by decide) (by decide)⟩

end Machine

end ChipVm
