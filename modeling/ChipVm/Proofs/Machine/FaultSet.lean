/-
# The faults of a step

Which steps fail, and with which fault.  A machine that is neither halted nor waiting fails to
take a step for one of these reasons only:

* the word at the program counter is not all in memory; the fault names its first byte outside;
* that word is no instruction;
* a return finds no open call, or a call finds no room for another one;
* the bytes that an instruction reads or writes from where the index register points are not
  all in memory; the fault names the first byte outside, or where the window starts if that is
  further out.

`Machine.Faults` is this list.  Each check is first taken by itself, with the exact condition
under which it fails; an instruction fails on its own check only, since the checks in the loop
that writes bytes cannot fail after the check of the whole window.
-/
import Mathlib.Tactic.Lemma
import ChipVm.Proofs.Machine.Invariant
import ChipVm.Proofs.Machine.Journal

namespace ChipVm

/-! ## The checks -/

namespace CallStack

variable {stack : CallStack} {address pc : UInt16} {fault : Fault}

lemma push_fails_iff :
    (∃ after, stack.push address pc = .error fault after) ↔
      stack.depth = stackLimit ∧ fault = .stackOverflow pc := by
  have hbound := stack.bounded
  unfold push depth
  split
  · rename_i hroom
    simp [Nat.ne_of_lt hroom]
  · rename_i hfull
    have hdepth : stack.frames.length = stackLimit := by omega
    simp [hdepth, eq_comm]

lemma pop_fails_iff :
    (∃ after, stack.pop pc = .error fault after) ↔
      stack.depth = 0 ∧ fault = .stackUnderflow pc := by
  obtain ⟨frames, hbound⟩ := stack
  cases frames with
  | nil => simp [pop, depth, eq_comm]
  | cons top rest => simp [pop, depth]

end CallStack

namespace Memory

variable {memory : Memory} {start length address : Nat} {fault : Fault}

lemma slice_eq_error_iff :
    memory.slice start length = .error fault ↔
      memorySize < start + length ∧ fault = .outOfBounds (max start memorySize) := by
  unfold slice
  split
  · rename_i hfits
    simp [Nat.not_lt.mpr hfits]
  · rename_i hlong
    simp [Nat.not_le.mp hlong, eq_comm]

lemma read8_eq_error_iff :
    memory.read8 address = .error fault ↔ memorySize ≤ address ∧ fault = .outOfBounds address := by
  unfold read8
  split
  · rename_i hinside
    simp [Nat.not_le.mpr hinside]
  · rename_i houtside
    simp [Nat.not_lt.mp houtside, eq_comm]

lemma read8_of_lt (memory : Memory) (h : address < memorySize) :
    ∃ byte, memory.read8 address = .ok byte :=
  ⟨_, dif_pos h⟩

/-- A word sticks out of memory with both bytes or with its second one. -/
lemma read16_eq_error_iff :
    memory.read16 address = .error fault ↔
      (memorySize ≤ address ∧ fault = .outOfBounds address) ∨
      (address + 1 = memorySize ∧ fault = .outOfBounds memorySize) := by
  unfold read16
  rcases Nat.lt_or_ge address memorySize with hfirst | hfirst
  · obtain ⟨high, hhigh⟩ := memory.read8_of_lt hfirst
    rw [hhigh]
    rcases Nat.lt_or_ge (address + 1) memorySize with hsecond | hsecond
    · obtain ⟨low, hlow⟩ := memory.read8_of_lt hsecond
      rw [hlow]
      simp [Nat.not_le.mpr hfirst, Nat.ne_of_lt hsecond]
    · have hlast : address + 1 = memorySize := by omega
      rw [hlast, read8_eq_error_iff.mpr ⟨Nat.le_refl memorySize, rfl⟩]
      simp [Nat.not_le.mpr hfirst, eq_comm]
  · rw [read8_eq_error_iff.mpr ⟨hfirst, rfl⟩]
    have hlast : address + 1 ≠ memorySize := by omega
    simp [hfirst, hlast, eq_comm]

end Memory

/-! ## Instructions -/

/-- How many bytes from where the index register points the instruction reads or writes.  Most
instructions have nothing to do with them. -/
def Instruction.window : Instruction → Option Nat
  | .draw _ _ height => some height.toNat
  | .storeDecimal _ => some 3
  | .storeThrough x => some (x.index.val + 1)
  | .loadThrough x => some (x.index.val + 1)
  | _ => none

namespace Machine

variable {m : Machine} {i : Instruction} {op : UInt16} {fault : Fault} {length : Nat}

/-- What keeps an instruction from running. -/
inductive Refuses (m : Machine) : Instruction → Fault → Prop where
  /-- A return needs an open call. -/
  | ret (h : m.stack.depth = 0) : Refuses m .ret (.stackUnderflow m.registers.pc)
  /-- A call needs room for one more. -/
  | call (address : UInt16) (h : m.stack.depth = stackLimit) :
      Refuses m (.call address) (.stackOverflow m.registers.pc)
  /-- The bytes that the instruction is about must all be in memory. -/
  | window {i : Instruction} {length : Nat} (hi : i.window = some length)
      (h : memorySize < m.registers.i.toNat + length) :
      Refuses m i (.outOfBounds (max m.registers.i.toNat memorySize))

lemma refuses_ret_iff :
    m.Refuses .ret fault ↔ m.stack.depth = 0 ∧ fault = .stackUnderflow m.registers.pc := by
  constructor
  · intro h
    cases h with
    | ret h => exact ⟨h, rfl⟩
    | window hi => cases hi
  · rintro ⟨h, rfl⟩
    exact .ret h

lemma refuses_call_iff {address : UInt16} :
    m.Refuses (.call address) fault ↔
      m.stack.depth = stackLimit ∧ fault = .stackOverflow m.registers.pc := by
  constructor
  · intro h
    cases h with
    | call _ h => exact ⟨h, rfl⟩
    | window hi => cases hi
  · rintro ⟨h, rfl⟩
    exact .call address h

lemma refuses_window_iff (hi : i.window = some length) :
    m.Refuses i fault ↔
      memorySize < m.registers.i.toNat + length ∧
        fault = .outOfBounds (max m.registers.i.toNat memorySize) := by
  constructor
  · intro h
    cases h with
    | ret => cases hi
    | call => cases hi
    | window hj h =>
      rw [hi] at hj
      obtain rfl := Option.some.inj hj
      exact ⟨h, rfl⟩
  · rintro ⟨h, rfl⟩
    exact .window hi h

lemma not_refuses (hret : i ≠ .ret) (hcall : ∀ address, i ≠ .call address)
    (hwindow : i.window = none) : ¬m.Refuses i fault := by
  intro h
  cases h with
  | ret => exact hret rfl
  | call address => exact hcall address rfl
  | window hi =>
    rw [hwindow] at hi
    cases hi

lemma storeAtIndex_fails_iff (bytes : List UInt8) :
    (∃ after, m.storeAtIndex bytes = .error fault after) ↔
      memorySize < m.registers.i.toNat + bytes.length ∧
        fault = .outOfBounds (max m.registers.i.toNat memorySize) := by
  rw [storeAtIndex, ← Memory.slice_eq_error_iff]
  cases hwindow : m.memory.slice m.registers.i.toNat bytes.length with
  | error problem => simp
  | ok window =>
    -- the window was there, so none of the checks in the write loop fails
    obtain ⟨memory, hwrite⟩ := m.memory.write_of_le (Memory.le_of_slice_ok hwindow)
    simp [hwrite]

/-- An instruction fails for the reason that keeps it from running, and for no other. -/
lemma effect_fails_iff : (∃ after, m.effect i = .error fault after) ↔ m.Refuses i fault := by
  cases i with
  | ret =>
    rw [refuses_ret_iff, ← CallStack.pop_fails_iff]
    simp only [effect]
    cases m.stack.pop m.registers.pc <;> simp
  | call address =>
    rw [refuses_call_iff, ← CallStack.push_fails_iff]
    simp only [effect]
    cases m.stack.push (m.registers.pc + 2) m.registers.pc <;> simp
  | draw x y height =>
    rw [refuses_window_iff rfl, ← Memory.slice_eq_error_iff]
    simp only [effect]
    cases m.memory.slice m.registers.i.toNat height.toNat <;> simp
  | loadThrough x =>
    rw [refuses_window_iff rfl, ← Memory.slice_eq_error_iff]
    simp only [effect]
    cases m.memory.slice m.registers.i.toNat (x.index.val + 1) <;> simp
  | storeDecimal x =>
    rw [refuses_window_iff rfl]
    refine Iff.trans ?_ (storeAtIndex_fails_iff (decimalDigits (m.registers.get x)))
    simp only [effect]
    cases m.storeAtIndex (decimalDigits (m.registers.get x)) <;> simp
  | storeThrough x =>
    have hlength : (m.registers.valuesThrough x).length = x.index.val + 1 := by
      simp [RegisterFile.valuesThrough, Register.through]
    rw [refuses_window_iff rfl, ← hlength, ← storeAtIndex_fails_iff]
    simp only [effect]
    cases m.storeAtIndex (m.registers.valuesThrough x) <;> simp
  -- the rest has nothing to check
  | _ =>
    constructor
    · rintro ⟨after, h⟩
      cases h
    · intro h
      exact absurd h (not_refuses (by simp) (by simp) rfl)

lemma execute_fails_iff : (∃ after, m.execute i = .error fault after) ↔ m.Refuses i fault := by
  rw [← effect_fails_iff]
  simp only [execute]
  cases m.effect i <;> simp

/-- An instruction whose bytes are all in memory runs. -/
lemma execute_of_fits (hi : i.window = some length)
    (hfits : m.registers.i.toNat + length ≤ memorySize) :
    ∃ after, m.execute i = .ok () after := by
  cases hexecute : m.execute i with
  | ok _ after => exact ⟨after, rfl⟩
  | error fault after =>
    have hlong := ((refuses_window_iff hi).mp (execute_fails_iff.mp ⟨after, hexecute⟩)).1
    omega

/-! ## Steps -/

/-- Why a machine that is neither halted nor waiting fails to take a step. -/
inductive Faults (m : Machine) : Fault → Prop where
  /-- The program counter points outside memory. -/
  | outside (h : memorySize ≤ m.registers.pc.toNat) : Faults m (.outOfBounds m.registers.pc.toNat)
  /-- The program counter points at the last byte of memory. -/
  | lastByte (h : m.registers.pc.toNat = 0xFFF) : Faults m (.outOfBounds 0x1000)
  /-- The word at the program counter is no instruction. -/
  | unknown {op : UInt16} (hread : m.memory.read16 m.registers.pc.toNat = .ok op)
      (hdecode : Instruction.decode op = none) : Faults m (.unknownOpcode op m.registers.pc)
  /-- The instruction at the program counter is kept from running. -/
  | refused {op : UInt16} {i : Instruction} {fault : Fault} (hfetch : m.fetch = .ok (op, i))
      (h : m.Refuses i fault) : Faults m fault

/-- What is not fetched is not all in memory, or it is no instruction. -/
lemma faults_of_fetch_error (h : m.fetch = .error fault) : m.Faults fault := by
  unfold fetch at h
  split at h
  · rename_i problem hread
    obtain rfl := Except.error.inj h
    rcases Memory.read16_eq_error_iff.mp hread with ⟨houtside, rfl⟩ | ⟨hlast, rfl⟩
    · exact .outside houtside
    · exact .lastByte (Nat.succ.inj hlast)
  · rename_i op hread
    split at h
    · rename_i hdecode
      obtain rfl := Except.error.inj h
      exact .unknown hread hdecode
    · cases h

lemma fetch_of_read16_error (h : m.memory.read16 m.registers.pc.toNat = .error fault) :
    m.fetch = .error fault := by
  simp only [fetch, h]

lemma faults_iff :
    m.Faults fault ↔
      m.fetch = .error fault ∨ ∃ op i, m.fetch = .ok (op, i) ∧ m.Refuses i fault := by
  constructor
  · intro h
    cases h with
    | outside h =>
      exact Or.inl (fetch_of_read16_error (Memory.read16_eq_error_iff.mpr (Or.inl ⟨h, rfl⟩)))
    | lastByte h =>
      have hlast : m.registers.pc.toNat + 1 = memorySize := by rw [h]
      exact Or.inl (fetch_of_read16_error (Memory.read16_eq_error_iff.mpr (Or.inr ⟨hlast, rfl⟩)))
    | unknown hread hdecode => exact Or.inl (by simp only [fetch, hread, hdecode])
    | refused hfetch h => exact Or.inr ⟨_, _, hfetch, h⟩
  · rintro (hfetch | ⟨op, i, hfetch, h⟩)
    · exact faults_of_fetch_error hfetch
    · exact .refused hfetch h

lemma cycle_fails_iff : m.cycle.result = .error fault ↔ m.Faults fault := by
  rw [faults_iff]
  cases hfetch : m.fetch with
  | error problem => simp [cycle, hfetch, halt]
  | ok found =>
    obtain ⟨op, i⟩ := found
    have hexecute :
        m.cycle.result = .error fault ↔ ∃ after, m.execute i = .error fault after := by
      rw [cycle, hfetch]
      dsimp only
      cases m.execute i <;> simp [halt]
    rw [hexecute, execute_fails_iff]
    constructor
    · intro h
      exact Or.inr ⟨op, i, rfl, h⟩
    · rintro (h | ⟨op', i', h, hrefuses⟩)
      · cases h
      · cases h
        exact hrefuses

/-- A step fails exactly for the reasons listed, each with its own fault, and succeeds when there
is none.  Nor does the one sum that an instruction forms without a check run over sixteen bits. -/
theorem step_fault_set (m : Machine) (hrun : m.halted = none) (hkey : m.keypad.awaiting = none) :
    (∀ fault, m.step.result = .error fault ↔ m.Faults fault) ∧
    ((∃ outcome, m.step.result = .ok outcome) ↔ ∀ fault, ¬m.Faults fault) ∧
    (∀ op base, m.fetch = .ok (op, .jumpOffset base) →
      base.toNat + (m.registers.get Register.v0).toNat < UInt16.size) := by
  have hstep : ∀ fault, m.step.result = .error fault ↔ m.Faults fault := by
    intro fault
    rw [step_running hrun hkey]
    exact cycle_fails_iff
  refine ⟨hstep, ?_, ?_⟩
  · constructor
    · rintro ⟨outcome, hok⟩ fault hfaults
      rw [(hstep fault).mpr hfaults] at hok
      cases hok
    · intro hnone
      cases hresult : m.step.result with
      | error fault => exact absurd ((hstep fault).mp hresult) (hnone fault)
      | ok outcome => exact ⟨outcome, rfl⟩
  · intro op base hfetch
    exact Nat.lt_of_le_of_lt (toNat_offset_le hfetch) (by decide)

/-- A program that calls itself, with as many calls open as given. -/
def callingItself (depth : Nat) (h : depth ≤ stackLimit) : Machine :=
  { ((ofConfig Config.standard 0).loadProgram [0x22, 0x00]).machine with
    stack := ⟨List.replicate depth 0x202, by rw [List.length_replicate]; exact h⟩ }

lemma fetch_callingItself {depth : Nat} (h : depth ≤ stackLimit) :
    (callingItself depth h).fetch = .ok (0x2200, .call 0x200) := by
  obtain ⟨memory, heq, hread⟩ := loadProgram_word Config.standard 0 0x22 0x00
  rw [callingItself, heq]
  exact fetch_of_read16 hread rfl

lemma parts_callingItself {depth : Nat} (h : depth ≤ stackLimit) :
    (callingItself depth h).halted = none ∧ (callingItself depth h).keypad.awaiting = none ∧
      (callingItself depth h).registers.pc = 0x200 := by
  obtain ⟨memory, heq, -⟩ := loadProgram_word Config.standard 0 0x22 0x00
  rw [callingItself, heq]
  exact ⟨rfl, rfl, rfl⟩

/-- The sixteenth call goes through and the seventeenth does not. -/
theorem step_fault_set_callingItself :
    (∃ outcome, (callingItself 15 (by decide)).step.result = .ok outcome) ∧
    (callingItself 16 (by decide)).step.result = .error (.stackOverflow 0x200) := by
  constructor
  · have hfetch := fetch_callingItself (show 15 ≤ stackLimit by decide)
    obtain ⟨hrun, hkey, -⟩ := parts_callingItself (show 15 ≤ stackLimit by decide)
    refine (step_fault_set _ hrun hkey).2.1.mpr fun fault hfaults => ?_
    rcases faults_iff.mp hfaults with hnot | ⟨op, i, hfetch', hrefuses⟩
    · rw [hfetch] at hnot
      cases hnot
    · rw [hfetch] at hfetch'
      cases hfetch'
      -- one call less than there is room for
      have hdepth := (refuses_call_iff.mp hrefuses).1
      rw [callingItself, CallStack.depth, List.length_replicate] at hdepth
      cases hdepth
  · have hfetch := fetch_callingItself (show 16 ≤ stackLimit by decide)
    obtain ⟨hrun, hkey, hpc⟩ := parts_callingItself (show 16 ≤ stackLimit by decide)
    have hfull : (callingItself 16 (by decide)).stack.depth = stackLimit :=
      List.length_replicate
    have hrefuses := Refuses.call 0x200 hfull
    rw [hpc] at hrefuses
    exact ((step_fault_set _ hrun hkey).1 _).mpr (.refused hfetch hrefuses)

end Machine

end ChipVm
