/-
# What the journal tells of a step

Every step writes into the journal which instruction it is about to run:

* a step has the effect of the instruction that was to run next, or none at all
  (`Machine.step_cases`);
* the journal of a step names that instruction and no other (`Machine.mem_log_step`).

So what every step keeps that runs an instruction of some kind is kept by a sequence of steps and
ticks whose journal names only instructions of that kind (`Machine.Moves.keeps_unless`).
-/
import Mathlib.Tactic.Lemma
import ChipVm.Proofs.Machine.Effect
import ChipVm.Proofs.Machine.Failure

namespace ChipVm.Machine

variable {m : Machine} {i : Instruction}

/-! ## The instruction that is to run next -/

/-- The instruction that the next step runs.  There is none on a machine that is halted or
waits for a key, and none where no instruction stands at the program counter. -/
def upcoming (m : Machine) : Option Instruction :=
  match m.halted, m.keypad.awaiting, m.fetch with
  | none, none, .ok (_, i) => some i
  | _, _, _ => none

lemma upcoming_waiting {x : Register} (h : m.keypad.awaiting = some x) : m.upcoming = none := by
  unfold upcoming
  split
  · rename_i hnone _
    rw [h] at hnone
    cases hnone
  · rfl

lemma upcoming_running (hrun : m.halted = none) (hkey : m.keypad.awaiting = none) :
    m.upcoming = match m.fetch with
      | .ok (_, i) => some i
      | .error _ => none := by
  unfold upcoming
  rw [hrun, hkey]
  cases m.fetch <;> rfl

lemma upcoming_eq_some :
    m.upcoming = some i ↔
      m.halted = none ∧ m.keypad.awaiting = none ∧ ∃ op, m.fetch = .ok (op, i) := by
  constructor
  · intro h
    unfold upcoming at h
    split at h
    · rename_i op j hrun hkey hfetch
      obtain rfl := Option.some.inj h
      exact ⟨hrun, hkey, op, hfetch⟩
    · cases h
  · rintro ⟨hrun, hkey, op, hfetch⟩
    rw [upcoming_running hrun hkey, hfetch]

/-- A step runs the upcoming instruction, if that goes through. -/
lemma step_of_execute {after : Machine} (h : m.upcoming = some i)
    (hexecute : m.execute i = .ok () after) :
    m.step.machine = after ∧ m.step.result = .ok (outcomeAt m.registers.pc i) := by
  obtain ⟨hrun, hkey, op, hfetch⟩ := upcoming_eq_some.mp h
  rw [step_running hrun hkey, cycle, hfetch]
  simp only [hexecute, and_self]

/-- What a step can do: it has the effect of the upcoming instruction, or it does nothing but
perhaps halt the machine. -/
lemma step_cases (m : Machine) :
    (∃ halted, m.step.machine = { m with halted }) ∨
    ∃ i flow mid, m.upcoming = some i ∧ Effect m i flow mid ∧ m.step.machine = mid.follow flow := by
  cases hrun : m.halted with
  | some fault =>
    rw [step_halted hrun]
    exact Or.inl ⟨m.halted, rfl⟩
  | none =>
    cases hkey : m.keypad.awaiting with
    | some x =>
      rw [step_waiting hrun hkey]
      exact Or.inl ⟨m.halted, rfl⟩
    | none =>
      rw [step_running hrun hkey]
      rcases m.cycle_cases with ⟨op, i, after, hfetch, hexecute, hafter, -⟩ | ⟨fault, -, hafter, -⟩
      · obtain ⟨flow, mid, heffect, rfl⟩ := execute_ok hexecute
        have hup : m.upcoming = some i := upcoming_eq_some.mpr ⟨hrun, hkey, op, hfetch⟩
        exact Or.inr ⟨i, flow, mid, hup, heffect, hafter⟩
      · exact Or.inl ⟨some fault, hafter⟩

/-- The journal of a step has an entry for the instruction that it fetches, with the registers as
they are before it runs. -/
lemma executing_mem_log_step {op : UInt16} {registers : RegisterFile} :
    .executing op i registers ∈ m.step.log ↔
      m.halted = none ∧ m.keypad.awaiting = none ∧ m.fetch = .ok (op, i) ∧
        registers = m.registers := by
  cases hrun : m.halted with
  | some fault =>
    rw [step_halted hrun]
    simp
  | none =>
    cases hkey : m.keypad.awaiting with
    | some x =>
      rw [step_waiting hrun hkey]
      simp
    | none =>
      rw [step_running hrun hkey, cycle]
      cases hfetch : m.fetch with
      | error fault => simp [halt]
      | ok found =>
        obtain ⟨op', instruction⟩ := found
        -- what follows the first entry tells of the fault or of the key wait
        have hepilogue : .executing op i registers ∉ epilogue instruction := by
          cases instruction <;> simp [epilogue]
        cases hexecute : m.execute instruction with
        | error fault after => simp [hexecute, halt, eq_comm, and_assoc]
        | ok _ after => simp [hexecute, hepilogue, eq_comm, and_assoc]

/-- The journal of a step names the instruction that it runs, and no other. -/
lemma mem_log_step :
    (∃ op registers, .executing op i registers ∈ m.step.log) ↔ m.upcoming = some i := by
  rw [upcoming_eq_some]
  constructor
  · rintro ⟨op, registers, hmem⟩
    obtain ⟨hrun, hkey, hfetch, -⟩ := executing_mem_log_step.mp hmem
    exact ⟨hrun, hkey, op, hfetch⟩
  · rintro ⟨hrun, hkey, op, hfetch⟩
    exact ⟨op, m.registers, executing_mem_log_step.mpr ⟨hrun, hkey, hfetch, rfl⟩⟩

end ChipVm.Machine
