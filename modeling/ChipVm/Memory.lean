/-
# Memory

4096 bytes.  The sprites of the hexadecimal digits stand at the bottom, programs from
`programStart` upwards.  Every access is checked: an address past the end is a fault and never
wraps around.
-/
import ChipVm.Fault
import ChipVm.Font

namespace ChipVm

/-- The contents of memory. -/
structure Memory where
  /-- All bytes in order of address. -/
  bytes : Vector UInt8 memorySize
deriving DecidableEq

namespace Memory

/-- Only the digit sprites are in memory. -/
def initial : Memory where
  bytes := ⟨font.toArray ++ Array.replicate (memorySize - font.length) 0, by
    simp [font_length, memorySize, glyphHeight]⟩

instance : Inhabited Memory := ⟨initial⟩

/-- The byte at `address`. -/
def read8 (memory : Memory) (address : Nat) : Except Fault UInt8 :=
  if h : address < memorySize then
    .ok (memory.bytes[address])
  else
    .error (.outOfBounds address)

/-- The word whose high byte is at `address` and whose low byte follows it. -/
def read16 (memory : Memory) (address : Nat) : Except Fault UInt16 :=
  match memory.read8 address with
  | .error fault => .error fault
  | .ok high =>
    match memory.read8 (address + 1) with
    | .error fault => .error fault
    | .ok low => .ok (UInt16.ofNat (high.toNat * 0x100 + low.toNat))

/-- Puts a byte at `address`. -/
def write8 (memory : Memory) (address : Nat) (value : UInt8) : Outcome Memory Unit :=
  if h : address < memorySize then
    .ok () ⟨memory.bytes.set address value h⟩
  else
    .error (.outOfBounds address) memory

/-- A byte that was stored is read back, and all others are as they were. -/
theorem read8_of_write8 {memory after : Memory} {address : Nat} {value : UInt8}
    (h : memory.write8 address value = .ok () after) (other : Nat) :
    after.read8 other = if other = address then .ok value else memory.read8 other := by
  unfold write8 at h
  split at h
  · obtain ⟨-, rfl⟩ := EStateM.Result.ok.inj h
    unfold read8
    by_cases inside : other < memorySize
    · by_cases same : other = address
      · subst same
        simp [inside]
      · simp [inside, same, Vector.getElem_set_ne, Ne.symm same]
    · have : other ≠ address := by
        rintro rfl
        contradiction
      simp [inside, this]
  · exact absurd h nofun

/-- The `length` bytes from `address` on, if the whole window lies in memory.  An empty window
lies in memory when it does not start past the end. -/
def slice (memory : Memory) (address length : Nat) : Except Fault (List UInt8) :=
  if address + length ≤ memorySize then
    .ok (memory.bytes.toArray.extract address (address + length)).toList
  else
    .error (.outOfBounds (max address memorySize))

/-- `slice` for a caller who adds the two in one 64-bit word: there is no answer when the end of
the window is not such a word. -/
def slice64? (memory : Memory) (address length : Nat) : Option (Except Fault (List UInt8)) :=
  if address + length < wordBound then some (memory.slice address length) else none

/-- Puts bytes at consecutive addresses, one after the other.  A fault leaves those before it
written. -/
def write (memory : Memory) (address : Nat) : List UInt8 → Outcome Memory Unit
  | [] => .ok () memory
  | byte :: rest =>
    match memory.write8 address byte with
    | .error fault memory => .error fault memory
    | .ok _ memory => memory.write (address + 1) rest

/-- Puts a program into memory and zeros after it.  A program that is too large changes
nothing. -/
def load (memory : Memory) (program : List UInt8) : Outcome Memory Unit :=
  if fits : program.length ≤ programCapacity then
    .ok () ⟨memory.bytes.toArray.extract 0 programStart ++ program.toArray
      ++ Array.replicate (programCapacity - program.length) 0, by
        simp only [Array.size_append, Array.size_extract, Vector.size_toArray,
          List.size_toArray, Array.size_replicate]
        simp only [memorySize, programStart, programCapacity] at fits ⊢
        omega⟩
  else
    .error (.programTooLarge program.length) memory

/-- A program that was loaded is found from `programStart` on. -/
theorem read8_of_load {memory after : Memory} {program : List UInt8}
    (h : memory.load program = .ok () after) {k : Nat} (hk : k < program.length) :
    after.read8 (programStart + k) = .ok program[k] := by
  unfold load at h
  split at h
  · rename_i fits
    obtain ⟨-, rfl⟩ := EStateM.Result.ok.inj h
    have inside : programStart + k < memorySize := by
      simp only [memorySize, programStart, programCapacity] at fits ⊢
      omega
    have before : (memory.bytes.toArray.extract 0 programStart).size = programStart := by
      simp [memorySize, programStart]
    have within : programStart + k
        < (memory.bytes.toArray.extract 0 programStart ++ program.toArray).size := by
      rw [Array.size_append, before, List.size_toArray]
      omega
    rw [read8, dif_pos inside, Vector.getElem_mk, Array.getElem_append_left within,
      Array.getElem_append_right (by rw [before]; exact Nat.le_add_right _ _)]
    simp only [before, Nat.add_sub_cancel_left, List.getElem_toArray]
  · exact absurd h nofun

/-- So are its words. -/
theorem read16_of_load {memory after : Memory} {program : List UInt8}
    (h : memory.load program = .ok () after) {k : Nat} {high low : UInt8}
    (hhigh : program[k]? = some high) (hlow : program[k + 1]? = some low) :
    after.read16 (programStart + k) = .ok (UInt16.ofNat (high.toNat * 0x100 + low.toNat)) := by
  obtain ⟨hk, rfl⟩ := List.getElem?_eq_some_iff.mp hhigh
  obtain ⟨hk', rfl⟩ := List.getElem?_eq_some_iff.mp hlow
  have first := read8_of_load h hk
  have second := read8_of_load h hk'
  rw [← Nat.add_assoc] at second
  simp only [read16, first, second]

end Memory

end ChipVm
