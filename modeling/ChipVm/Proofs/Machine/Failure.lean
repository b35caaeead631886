/-
# Whatever fails changes nothing

Every part of the machine hands its state back also when it fails, so a failure could leave half
of its work behind.  None does:

* an instruction that fails leaves the machine as it was, although the two that store several
  bytes write them one by one, each with a check of its own;
* a step that fails leaves the machine as it was but for the halt, and its fault is fatal;
* a program that does not fit and a key that does not exist leave the machine as it was, and
  their faults are not fatal.

The argument goes part by part: first what the stack, the memory and the keypad do when they
fail, then the instructions, then a step.  `Machine.cycle_cases` sums up what a step can do at all.
-/
import Mathlib.Tactic.Lemma
import ChipVm.Machine.Step

namespace ChipVm

/-! ## The parts of the machine -/

namespace CallStack

variable {stack after : CallStack} {address pc : UInt16} {fault : Fault}

lemma push_error (h : stack.push address pc = .error fault after) :
    after = stack ∧ fault = .stackOverflow pc := by
  rw [push] at h
  split at h
  · cases h
  · obtain ⟨rfl, rfl⟩ := EStateM.Result.error.inj h
    exact ⟨rfl, rfl⟩

lemma pop_error (h : stack.pop pc = .error fault after) :
    after = stack ∧ fault = .stackUnderflow pc := by
  unfold pop at h
  split at h
  · obtain ⟨rfl, rfl⟩ := EStateM.Result.error.inj h
    exact ⟨rfl, rfl⟩
  · cases h

end CallStack

namespace Memory

variable {memory : Memory} {start length address : Nat} {fault : Fault}

lemma slice_error (h : memory.slice start length = .error fault) :
    fault = .outOfBounds (max start memorySize) := by
  rw [slice] at h
  split at h
  · cases h
  · exact (Except.error.inj h).symm

lemma le_of_slice_ok {bytes : List UInt8} (h : memory.slice start length = .ok bytes) :
    start + length ≤ memorySize := by
  rw [slice] at h
  split at h
  · assumption
  · cases h

lemma write8_of_lt (memory : Memory) (h : address < memorySize) (value : UInt8) :
    ∃ after, memory.write8 address value = .ok () after :=
  ⟨_, dif_pos h⟩

/-- Bytes whose places all lie in memory are all written: the check before each of them never
fails. -/
lemma write_of_le (memory : Memory) {bytes : List UInt8}
    (h : start + bytes.length ≤ memorySize) :
    ∃ after, memory.write start bytes = .ok () after := by
  induction bytes generalizing memory start with
  | nil => exact ⟨memory, rfl⟩
  | cons byte rest ih =>
    rw [List.length_cons] at h
    have hfirst : start < memorySize := by omega
    have hrest : start + 1 + rest.length ≤ memorySize := by omega
    obtain ⟨next, hnext⟩ := memory.write8_of_lt hfirst byte
    obtain ⟨after, hafter⟩ := ih next hrest
    refine ⟨after, ?_⟩
    rw [write, hnext]
    exact hafter

lemma read8_error (h : memory.read8 address = .error fault) : fault = .outOfBounds address := by
  unfold read8 at h
  split at h
  · cases h
  · exact (Except.error.inj h).symm

/-- A word that cannot be read lies outside memory with one of its bytes. -/
lemma read16_error (h : memory.read16 address = .error fault) :
    fault = .outOfBounds address ∨ fault = .outOfBounds (address + 1) := by
  unfold read16 at h
  split at h
  · obtain rfl := Except.error.inj h
    exact Or.inl (read8_error ‹_›)
  · split at h
    · obtain rfl := Except.error.inj h
      exact Or.inr (read8_error ‹_›)
    · cases h

lemma load_error {after : Memory} {program : List UInt8}
    (h : memory.load program = .error fault after) :
    after = memory ∧ fault = .programTooLarge program.length := by
  rw [load] at h
  split at h
  · cases h
  · obtain ⟨rfl, rfl⟩ := EStateM.Result.error.inj h
    exact ⟨rfl, rfl⟩

end Memory

namespace Keypad

lemma setKey_error {keypad after : Keypad} {code : UInt8} {down : Bool} {fault : Fault}
    (h : keypad.setKey code down = .error fault after) :
    after = keypad ∧ fault = .noSuchKey code := by
  rw [setKey] at h
  split at h
  · split at h <;> cases h
  · obtain ⟨rfl, rfl⟩ := EStateM.Result.error.inj h
    exact ⟨rfl, rfl⟩

end Keypad

namespace Machine

variable {m after : Machine} {i : Instruction} {fault : Fault}

/-! ## Instructions -/

/-- Storing several bytes fails before the first of them is written, or not at all. -/
lemma storeAtIndex_error {bytes : List UInt8} (h : m.storeAtIndex bytes = .error fault after) :
    after = m ∧ fault.isFatal = true := by
  rw [storeAtIndex] at h
  cases hwindow : m.memory.slice m.registers.i.toNat bytes.length with
  | error problem =>
    simp only [hwindow] at h
    obtain ⟨rfl, rfl⟩ := EStateM.Result.error.inj h
    rw [Memory.slice_error hwindow]
    exact ⟨rfl, rfl⟩
  | ok window =>
    -- the window was there, so none of the checks in the write loop can fail after it
    obtain ⟨memory, hwrite⟩ := m.memory.write_of_le (Memory.le_of_slice_ok hwindow)
    simp only [hwindow, hwrite] at h
    cases h

/-- An effect that fails has not begun. -/
lemma effect_error (h : m.effect i = .error fault after) : after = m ∧ fault.isFatal = true := by
  cases i with
  | ret =>
    simp only [effect] at h
    split at h
    · obtain ⟨rfl, rfl⟩ := EStateM.Result.error.inj h
      obtain ⟨rfl, rfl⟩ := CallStack.pop_error ‹_›
      exact ⟨rfl, rfl⟩
    · cases h
  | call address =>
    simp only [effect] at h
    split at h
    · obtain ⟨rfl, rfl⟩ := EStateM.Result.error.inj h
      obtain ⟨rfl, rfl⟩ := CallStack.push_error ‹_›
      exact ⟨rfl, rfl⟩
    · cases h
  -- both read their bytes before they do anything with them
  | draw | loadThrough =>
    simp only [effect] at h
    split at h
    · obtain ⟨rfl, rfl⟩ := EStateM.Result.error.inj h
      obtain rfl := Memory.slice_error ‹_›
      exact ⟨rfl, rfl⟩
    · cases h
  | storeDecimal | storeThrough =>
    simp only [effect] at h
    split at h
    · obtain ⟨rfl, rfl⟩ := EStateM.Result.error.inj h
      exact storeAtIndex_error ‹_›
    · cases h
  | _ => cases h

lemma execute_error (h : m.execute i = .error fault after) :
    after = m ∧ fault.isFatal = true := by
  rw [execute] at h
  split at h
  · obtain ⟨rfl, rfl⟩ := EStateM.Result.error.inj h
    exact effect_error ‹_›
  · cases h

/-! ## Steps -/

lemma fetch_error (h : m.fetch = .error fault) : fault.isFatal = true := by
  rw [fetch] at h
  split at h
  · obtain rfl := Except.error.inj h
    rcases Memory.read16_error ‹_› with rfl | rfl <;> rfl
  · split at h
    · obtain rfl := Except.error.inj h
      rfl
    · cases h

/-- What a step can do to a machine that is neither halted nor waiting: it runs the instruction
at the program counter, or it halts the machine with a fatal fault and does nothing else. -/
lemma cycle_cases (m : Machine) :
    (∃ op i after, m.fetch = .ok (op, i) ∧ m.execute i = .ok () after ∧
      m.cycle.machine = after ∧ m.cycle.result = .ok (outcomeAt m.registers.pc i)) ∨
    (∃ fault, fault.isFatal = true ∧
      m.cycle.machine = { m with halted := some fault } ∧ m.cycle.result = .error fault) := by
  rw [cycle]
  cases hfetch : m.fetch with
  | error fault => exact Or.inr ⟨fault, fetch_error hfetch, rfl, rfl⟩
  | ok found =>
    obtain ⟨op, i⟩ := found
    cases hrun : m.execute i with
    | error fault after =>
      -- the machine that is halted is the one that the instruction left, which is `m`
      obtain ⟨rfl, hfatal⟩ := execute_error hrun
      refine Or.inr ⟨fault, hfatal, ?_, ?_⟩
      · simp only [hrun, halt]
      · simp only [hrun, halt]
    | ok _ after =>
      refine Or.inl ⟨op, i, after, rfl, hrun, ?_, ?_⟩
      · simp only [hrun]
      · simp only [hrun]

lemma step_halted (h : m.halted = some fault) : m.step = ⟨m, .error fault, #[]⟩ := by
  rw [step, h]

lemma step_waiting {x : Register} (hrun : m.halted = none) (h : m.keypad.awaiting = some x) :
    m.step = ⟨m, .ok (.waiting x), #[]⟩ := by
  rw [step, hrun]
  simp only [h]

lemma step_running (hrun : m.halted = none) (hkey : m.keypad.awaiting = none) :
    m.step = m.cycle := by
  rw [step, hrun]
  simp only [hkey]

/-- What a step that succeeds has done: nothing, since a register waits, or it has run the
instruction at the program counter. -/
lemma step_ok_cases {outcome : StepOutcome} (h : m.step.result = .ok outcome) :
    m.halted = none ∧
      ((∃ x, m.keypad.awaiting = some x ∧ outcome = .waiting x ∧ m.step.machine = m) ∨
      (m.keypad.awaiting = none ∧ ∃ op i, m.fetch = .ok (op, i) ∧
        m.execute i = .ok () m.step.machine ∧ outcome = outcomeAt m.registers.pc i)) := by
  cases hrun : m.halted with
  | some fault =>
    rw [step_halted hrun] at h
    cases h
  | none =>
    refine ⟨rfl, ?_⟩
    cases hkey : m.keypad.awaiting with
    | some x =>
      rw [step_waiting hrun hkey] at h ⊢
      exact Or.inl ⟨x, rfl, (Except.ok.inj h).symm, rfl⟩
    | none =>
      rw [step_running hrun hkey] at h ⊢
      rcases m.cycle_cases with ⟨op, i, after, hfetch, hexecute, rfl, hresult⟩ | ⟨_, -, -, hresult⟩
      · rw [hresult] at h
        exact Or.inr ⟨rfl, op, i, hfetch, hexecute, (Except.ok.inj h).symm⟩
      · rw [hresult] at h
        cases h

/-- A step that fails halts the machine, for a fatal reason, and does nothing else. -/
lemma step_error (hrun : m.halted = none) (h : m.step.result = .error fault) :
    m.step.machine = { m with halted := some fault } ∧ fault.isFatal = true := by
  cases hkey : m.keypad.awaiting with
  | some x =>
    rw [step_waiting hrun hkey] at h
    cases h
  | none =>
    rw [step_running hrun hkey] at h ⊢
    rcases m.cycle_cases with ⟨op, i, after, -, -, -, hresult⟩ | ⟨problem, hfatal, hafter, hresult⟩
    · rw [hresult] at h
      cases h
    · rw [hresult] at h
      obtain rfl := Except.error.inj h
      exact ⟨hafter, hfatal⟩

/-! ## Programs and keys -/

lemma loadProgram_error {program : List UInt8}
    (h : (m.loadProgram program).result = .error fault) :
    (m.loadProgram program).machine = m ∧ fault.isFatal = false := by
  unfold loadProgram at h ⊢
  cases hload : m.memory.load program with
  | error problem memory =>
    obtain ⟨rfl, rfl⟩ := Memory.load_error hload
    simp only [hload] at h
    obtain rfl := Except.error.inj h
    exact ⟨rfl, rfl⟩
  | ok _ memory =>
    simp only [hload] at h
    cases h

lemma setKey_error {code : UInt8} {down : Bool} (h : (m.setKey code down).result = .error fault) :
    (m.setKey code down).machine = m ∧ fault.isFatal = false := by
  unfold setKey at h ⊢
  cases hkey : m.keypad.setKey code down with
  | error problem keypad =>
    obtain ⟨rfl, rfl⟩ := Keypad.setKey_error hkey
    simp only [hkey] at h
    obtain rfl := Except.error.inj h
    exact ⟨rfl, rfl⟩
  | ok waiting keypad =>
    cases waiting <;> simp only [hkey] at h <;> cases h

/-! ## All of it -/

/-- Whatever fails changes nothing, apart from the halt that follows a step that failed; and what
halts the machine is told from what does not by the fault. -/
theorem failure_changes_nothing (m : Machine) :
    (∀ i fault after, m.execute i = .error fault after → after = m) ∧
    (∀ fault, m.halted = none → m.step.result = .error fault →
      m.step.machine = { m with halted := some fault } ∧ fault.isFatal = true) ∧
    (∀ program fault, (m.loadProgram program).result = .error fault →
      (m.loadProgram program).machine = m ∧ fault.isFatal = false) ∧
    (∀ code down fault, (m.setKey code down).result = .error fault →
      (m.setKey code down).machine = m ∧ fault.isFatal = false) := by
  refine ⟨?_, ?_, ?_, ?_⟩
  · intro i fault after h
    exact (execute_error h).1
  · intro fault hrun h
    exact step_error hrun h
  · intro program fault h
    exact loadProgram_error h
  · intro code down fault h
    exact setKey_error h

/-- A fresh machine whose program counter and index register point at the last byte of memory. -/
def atLastByte : Machine :=
  { ofConfig Config.standard 0 with
    registers := { RegisterFile.initial with i := 0xFFF, pc := 0xFFF } }

/-- At the last byte of memory a block of sixteen bytes fits with its first byte only, and an
opcode with its first byte only; a program may be one byte too long, and a code one past the
keys. -/
theorem failure_changes_nothing_atLastByte :
    (∃ fault after, atLastByte.execute (.storeThrough Register.vf) = .error fault after ∧
      after = atLastByte) ∧
    (∃ fault, atLastByte.step.result = .error fault ∧
      atLastByte.step.machine = { atLastByte with halted := some fault } ∧
      fault.isFatal = true) ∧
    (∃ fault, (atLastByte.loadProgram (List.replicate 3585 0)).result = .error fault ∧
      (atLastByte.loadProgram (List.replicate 3585 0)).machine = atLastByte ∧
      fault.isFatal = false) ∧
    (∃ fault, (atLastByte.setKey 16 true).result = .error fault ∧
      (atLastByte.setKey 16 true).machine = atLastByte ∧ fault.isFatal = false) := by
  obtain ⟨hexecute, hstep, hload, hkey⟩ := failure_changes_nothing atLastByte
  have hstored : atLastByte.execute (.storeThrough Register.vf)
      = .error (.outOfBounds 4096) atLastByte := rfl
  have hstepped : atLastByte.step.result = .error (.outOfBounds 4096) := rfl
  have hlong : ¬(List.replicate 3585 (0 : UInt8)).length ≤ programCapacity := by
    rw [List.length_replicate]
    decide
  have hloaded : (atLastByte.loadProgram (List.replicate 3585 0)).result
      = .error (.programTooLarge 3585) := by
    rw [loadProgram, Memory.load, dif_neg hlong, List.length_replicate]
  have hpressed : (atLastByte.setKey 16 true).result = .error (.noSuchKey 16) := rfl
  exact ⟨⟨_, _, hstored, hexecute _ _ _ hstored⟩,
    ⟨_, hstepped, hstep _ rfl hstepped⟩,
    ⟨_, hloaded, hload _ _ hloaded⟩,
    ⟨_, hpressed, hkey _ _ _ hpressed⟩⟩

end Machine

end ChipVm
