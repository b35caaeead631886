/-
# Windows of memory

An instruction that is about several bytes in a row asks for all of them at once, with one
comparison.  The answer is what reading them one by one would come to (`Memory.readEach`): the
bytes, or the fault of the first that cannot be read.

An empty window is the exception.  Nothing is read of it, so reading byte by byte cannot fail;
but it is refused when it starts past the end of memory.  A sprite without rows has such a window,
and no other instruction does (`Instruction.window_eq_zero_iff`).

Both ways to a window take the first byte off it and go on with the rest
(`Memory.slice_succ`, `Memory.readEach_succ`), so they agree by induction on its length, as soon
as they agree on the empty window that is left.
-/
import Mathlib.Tactic.Lemma
import ChipVm.Proofs.Machine.FaultSet

namespace ChipVm

/-! ## One by one and all at once -/

namespace Memory

variable {memory : Memory} {address length : Nat} {fault : Fault}

/-- The bytes from `address` on, read one after the other; the first that cannot be read ends
it. -/
def readEach (memory : Memory) (address length : Nat) : Except Fault (List UInt8) :=
  (List.range' address length).mapM memory.read8

lemma readEach_zero : memory.readEach address 0 = .ok [] := rfl

lemma readEach_succ :
    memory.readEach address (length + 1) = (do
      let byte ← memory.read8 address
      let rest ← memory.readEach (address + 1) length
      return byte :: rest) := by
  rw [readEach, List.range'_succ, List.mapM_cons]
  rfl

/-- Reading byte by byte fails with the fault of the first byte that cannot be read. -/
lemma readEach_eq_error_iff :
    memory.readEach address length = .error fault ↔
      ∃ k < length, (∀ j < k, ∃ byte, memory.read8 (address + j) = .ok byte) ∧
        memory.read8 (address + k) = .error fault := by
  induction length generalizing address with
  | zero => simp [readEach_zero]
  | succ length ih =>
    have hrest := @ih (address + 1)
    simp only [Nat.add_assoc, Nat.add_comm 1] at hrest
    rw [readEach_succ, Nat.exists_lt_succ_left]
    simp only [Nat.forall_lt_succ_left, Nat.add_zero]
    cases hfirst : memory.read8 address with
    | error problem => simp [bind, Except.bind]
    | ok byte =>
      -- the first byte is read, so what fails is the rest
      cases hread : memory.readEach (address + 1) length with
      | error problem => simpa [bind, Except.bind, hread] using hrest
      | ok rest => simpa [bind, Except.bind, pure, Except.pure, hread] using hrest

lemma slice_eq_ok (h : address + length ≤ memorySize) :
    memory.slice address length = .ok ((memory.bytes.toList.drop address).take length) := by
  rw [slice, if_pos h, Array.toList_extract, List.extract_eq_take_drop, Nat.add_sub_cancel_left]
  rfl

lemma slice_zero_of_le (h : address ≤ memorySize) : memory.slice address 0 = .ok [] := by
  rw [slice_eq_ok h, List.take_zero]

lemma slice_zero_of_lt (h : memorySize < address) :
    memory.slice address 0 = .error (.outOfBounds address) := by
  rw [slice_eq_error_iff, Nat.max_eq_left (Nat.le_of_lt h)]
  exact ⟨h, rfl⟩

lemma slice_succ :
    memory.slice address (length + 1) = (do
      let byte ← memory.read8 address
      let rest ← memory.slice (address + 1) length
      return byte :: rest) := by
  rcases Nat.lt_or_ge address memorySize with hfirst | houtside
  · have hread : memory.read8 address = .ok memory.bytes[address] := dif_pos hfirst
    rw [hread]
    rcases Nat.lt_or_ge memorySize (address + 1 + length) with hlong | hfits
    · rw [slice_eq_error_iff.mpr ⟨by omega, rfl⟩, slice_eq_error_iff.mpr ⟨hlong, rfl⟩,
        Nat.max_eq_right (Nat.le_of_lt hfirst), Nat.max_eq_right hfirst]
      rfl
    · have hlength : address < memory.bytes.toList.length := by
        rw [Vector.length_toList]
        exact hfirst
      rw [slice_eq_ok (by omega), slice_eq_ok hfits, List.drop_eq_getElem_cons hlength,
        List.take_succ_cons, Vector.getElem_toList]
      rfl
  · rw [read8_eq_error_iff.mpr ⟨houtside, rfl⟩, slice_eq_error_iff.mpr ⟨by omega, rfl⟩,
      Nat.max_eq_left houtside]
    rfl

/-- A window is what its bytes are, unless it is empty and starts past the end of memory. -/
lemma slice_eq_readEach (h : 0 < length ∨ address ≤ memorySize) :
    memory.slice address length = memory.readEach address length := by
  induction length generalizing address with
  | zero => exact slice_zero_of_le (h.resolve_left (Nat.lt_irrefl 0))
  | succ length ih =>
    rw [slice_succ, readEach_succ]
    cases hfirst : memory.read8 address with
    | error fault => rfl
    | ok byte => rw [ih (Or.inr (lt_of_read8_ok hfirst))]

lemma read8_ok_iff : (∃ byte, memory.read8 address = .ok byte) ↔ address < memorySize := by
  constructor
  · rintro ⟨byte, h⟩
    exact lt_of_read8_ok h
  · exact memory.read8_of_lt

/-- A window is refused for its first byte outside memory, or for where it starts if it has no
bytes at all. -/
lemma slice_eq_error_iff_first :
    memory.slice address length = .error fault ↔
      (∃ k < length, (∀ j < k, address + j < memorySize) ∧ memorySize ≤ address + k ∧
        fault = .outOfBounds (address + k)) ∨
      (length = 0 ∧ memorySize < address ∧ fault = .outOfBounds address) := by
  by_cases hempty : length = 0 ∧ memorySize < address
  · obtain ⟨rfl, hpast⟩ := hempty
    rw [slice_zero_of_lt hpast]
    simp [hpast, eq_comm]
  · have hagree : 0 < length ∨ address ≤ memorySize := by omega
    rw [slice_eq_readEach hagree, readEach_eq_error_iff]
    simp only [read8_ok_iff, read8_eq_error_iff, ← and_assoc, hempty, false_and, or_false]

end Memory

/-! ## Instructions -/

/-- Only a sprite without rows has an empty window. -/
lemma Instruction.window_eq_zero_iff {i : Instruction} :
    i.window = some 0 ↔ ∃ x y, i = .draw x y 0 := by
  cases i <;> simp [window, ← UInt8.toNat_inj]

namespace Machine

variable {m : Machine} {i : Instruction} {fault : Fault} {length : Nat}

/-- An instruction with a window fails as the window does. -/
lemma execute_fails_iff_slice (hi : i.window = some length) :
    (∃ after, m.execute i = .error fault after) ↔
      m.memory.slice m.registers.i.toNat length = .error fault := by
  rw [execute_fails_iff, refuses_window_iff hi, Memory.slice_eq_error_iff]

/-- Asking for a window comes to reading its bytes one by one, except that an empty window past
the end of memory is refused.  So an instruction that reads or writes bytes from where the index
register points fails exactly for the first of them that lies outside memory, and else only when
it draws a sprite without rows from past the end. -/
theorem windows_are_read_bytewise (memory : Memory) (address length : Nat)
    (hword : address + length < wordBound) :
    memory.slice64? address length
      = some (if length = 0 ∧ memorySize < address then .error (.outOfBounds address)
          else memory.readEach address length) ∧
    ∀ (m : Machine) (i : Instruction) (bytes : Nat) (fault : Fault), i.window = some bytes →
      ((∃ after, m.execute i = .error fault after) ↔
        (∃ k < bytes, (∀ j < k, m.registers.i.toNat + j < memorySize) ∧
          memorySize ≤ m.registers.i.toNat + k ∧
          fault = .outOfBounds (m.registers.i.toNat + k)) ∨
        ((∃ x y, i = .draw x y 0) ∧ memorySize < m.registers.i.toNat ∧
          fault = .outOfBounds m.registers.i.toNat)) := by
  constructor
  · rw [Memory.slice64?, if_pos hword]
    split
    · rename_i hempty
      obtain ⟨rfl, hpast⟩ := hempty
      rw [Memory.slice_zero_of_lt hpast]
    · rename_i hproper
      rw [Memory.slice_eq_readEach (by omega)]
  · intro m i bytes fault hi
    have hsprite : bytes = 0 ↔ ∃ x y, i = .draw x y 0 := by
      rw [← Instruction.window_eq_zero_iff, hi, Option.some_inj]
    rw [execute_fails_iff_slice hi, Memory.slice_eq_error_iff_first, hsprite]

/-- A machine whose index register points at the last two bytes of memory. -/
def lastTwoBytes : Machine :=
  { ofConfig Config.standard 0 with registers := { RegisterFile.initial with i := 0xFFE } }

/-- Of three bytes from there on the third is the first that cannot be read, nor can a digit be
stored there. -/
theorem windows_are_read_bytewise_lastTwoBytes :
    Memory.initial.slice64? 0xFFE 3 = some (.error (.outOfBounds 0x1000)) ∧
    ∃ after, lastTwoBytes.execute (.storeDecimal Register.v0)
      = .error (.outOfBounds 0x1000) after := by
  have hword : 0xFFE + 3 < wordBound := by decide
  obtain ⟨hwindow, hinstruction⟩ := windows_are_read_bytewise Memory.initial 0xFFE 3 hword
  have hinside : ∀ j < 2, 0xFFE + j < memorySize := by decide
  constructor
  · rw [hwindow, if_neg (by decide), Memory.readEach_eq_error_iff.mpr ⟨2, by decide, ?_, ?_⟩]
    · exact fun j hj => Memory.read8_ok_iff.mpr (hinside j hj)
    · exact Memory.read8_eq_error_iff.mpr ⟨by decide, rfl⟩
  · exact (hinstruction lastTwoBytes _ 3 _ rfl).mpr
      (Or.inl ⟨2, by decide, hinside, by decide, rfl⟩)

/-- A program that points the index register past the end of memory and draws a sprite without
rows from there. -/
def pastEnd : List UInt8 := [0x60, 0xFF, 0xAF, 0xFF, 0xF0, 0x1E, 0xD0, 0x00]

/-- A machine on the way through that program, with V0 and the index register as set by then. -/
def onTheWay (memory : Memory) (pc : UInt16) (v0 : UInt8) (i : UInt16) : Machine :=
  { ofConfig Config.standard 0 with
    memory, registers := { RegisterFile.initial.set Register.v0 v0 with i, pc } }

lemma upcoming_onTheWay {memory : Memory} {pc op i : UInt16} {v0 : UInt8}
    {instruction : Instruction} (hread : memory.read16 pc.toNat = .ok op)
    (hdecode : Instruction.decode op = some instruction) :
    (onTheWay memory pc v0 i).upcoming = some instruction :=
  upcoming_eq_some.mpr ⟨rfl, rfl, op, fetch_of_read16 hread hdecode⟩

/-- One step on the way. -/
lemma reachable_onTheWay {memory : Memory} {pc op i : UInt16} {v0 : UInt8} {after : Machine}
    (h : (onTheWay memory pc v0 i).Reachable) (instruction : Instruction)
    (hread : memory.read16 pc.toNat = .ok op) (hdecode : Instruction.decode op = some instruction)
    (hexecute : (onTheWay memory pc v0 i).execute instruction = .ok () after) :
    after.Reachable := by
  rw [← (step_of_execute (upcoming_onTheWay hread hdecode) hexecute).1]
  exact h.step

/-- The program gets as far as its sprite. -/
lemma reachable_pastEnd :
    ∃ memory, (onTheWay memory 0x206 0xFF 0x10FE).Reachable ∧
      memory.read16 (programStart + 6) = .ok 0xD000 := by
  obtain ⟨memory, heq, hread⟩ := loadProgram_fresh Config.standard 0
    (show pastEnd.length ≤ programCapacity by decide)
  have hload : memory.read16 programStart = .ok 0x60FF := (hread (k := 0) rfl rfl).trans rfl
  have hindex : memory.read16 (programStart + 2) = .ok 0xAFFF := (hread (k := 2) rfl rfl).trans rfl
  have hadd : memory.read16 (programStart + 4) = .ok 0xF01E := (hread (k := 4) rfl rfl).trans rfl
  have hstart : (onTheWay memory 0x200 0 0).Reachable := by
    have hloaded := (Reachable.start Config.standard 0).load pastEnd
    rw [heq] at hloaded
    exact hloaded
  have hfirst : (onTheWay memory 0x202 0xFF 0).Reachable :=
    reachable_onTheWay hstart (.loadByte Register.v0 0xFF) hload rfl rfl
  have hsecond : (onTheWay memory 0x204 0xFF 0xFFF).Reachable :=
    reachable_onTheWay hfirst (.loadIndex 0xFFF) hindex rfl rfl
  have hthird : (onTheWay memory 0x206 0xFF 0x10FE).Reachable :=
    reachable_onTheWay hsecond (.addIndex Register.v0) hadd rfl rfl
  exact ⟨memory, hthird, (hread (k := 6) rfl rfl).trans rfl⟩

/-- No byte of an empty window could lie outside memory, but past the end it is refused, and that
program fails on its sprite. -/
theorem empty_window_is_refused :
    Memory.initial.slice64? 0x10FE 0 = some (.error (.outOfBounds 0x10FE)) ∧
    Memory.initial.readEach 0x10FE 0 = .ok [] ∧
    ∃ m : Machine, m.Reachable ∧ m.registers.i.toNat = 0x10FE ∧
      m.upcoming = some (.draw Register.v0 Register.v0 0) ∧
      m.step.result = .error (.outOfBounds 0x10FE) := by
  have hslice : Memory.initial.slice64? 0x10FE 0 = some (.error (.outOfBounds 0x10FE)) := by
    rw [Memory.slice64?, if_pos (by decide), Memory.slice_zero_of_lt (by decide)]
  obtain ⟨memory, hreach, hdraw⟩ := reachable_pastEnd
  have hrefuses : (onTheWay memory 0x206 0xFF 0x10FE).Refuses (.draw Register.v0 Register.v0 0)
      (.outOfBounds 0x10FE) :=
    (refuses_window_iff rfl).mpr ⟨show memorySize < 0x10FE by decide, rfl⟩
  refine ⟨hslice, Memory.readEach_zero, _, hreach, rfl, upcoming_onTheWay hdraw rfl, ?_⟩
  rw [step_running rfl rfl, cycle_fails_iff]
  exact .refused (fetch_of_read16 hdraw rfl) hrefuses

end Machine

end ChipVm
