/-
# The register file

The sixteen byte registers V0..VF, the index register `I` that points into memory, and the
program counter.
-/
import ChipVm.Register

namespace ChipVm

/-- The contents of all registers. -/
structure RegisterFile where
  /-- The byte registers V0..VF. -/
  v : Vector UInt8 registerCount
  /-- The index register. -/
  i : UInt16
  /-- The program counter. -/
  pc : UInt16
deriving DecidableEq, Repr

namespace RegisterFile

/-- All registers zero and the program counter at the start of the program. -/
def initial : RegisterFile where
  v := Vector.replicate registerCount 0
  i := 0
  pc := UInt16.ofNat programStart

instance : Inhabited RegisterFile := ⟨initial⟩

/-- The byte in register `x`. -/
def get (file : RegisterFile) (x : Register) : UInt8 :=
  file.v[x.index.val]

/-- Puts a byte into register `x`. -/
def set (file : RegisterFile) (x : Register) (value : UInt8) : RegisterFile :=
  { file with v := file.v.set x.index.val value x.index.isLt }

/-- Puts 1 or 0 into the flag register VF. -/
def setFlag (file : RegisterFile) (flag : Bool) : RegisterFile :=
  file.set Register.vf (if flag then 1 else 0)

/-- Points the index register at `address`. -/
def setIndex (file : RegisterFile) (address : UInt16) : RegisterFile :=
  { file with i := address }

/-- Moves the program counter to `address`. -/
def goto (file : RegisterFile) (address : UInt16) : RegisterFile :=
  { file with pc := address }

/-- Moves the program counter to the following instruction. -/
def advance (file : RegisterFile) : RegisterFile :=
  file.goto (file.pc + 2)

/-- Moves the program counter past the following instruction. -/
def skip (file : RegisterFile) : RegisterFile :=
  file.goto (file.pc + 4)

/-- Puts `bytes` into V0, V1, ... in order. -/
def setThrough (file : RegisterFile) (x : Register) (bytes : List UInt8) : RegisterFile :=
  (x.through.zip bytes).foldl (fun file (r, byte) => file.set r byte) file

/-- V0..Vx in order. -/
def valuesThrough (file : RegisterFile) (x : Register) : List UInt8 :=
  x.through.map file.get

/-! ## Reading after writing -/

@[simp] theorem get_set_self (file : RegisterFile) (x : Register) (value : UInt8) :
    (file.set x value).get x = value := by
  simp [get, set]

theorem get_set_of_ne (file : RegisterFile) {x y : Register} (value : UInt8) (h : x ≠ y) :
    (file.set x value).get y = file.get y := by
  have places : x.index.val ≠ y.index.val := by
    intro same
    cases x
    cases y
    exact h (congrArg Register.mk (Fin.ext same))
  simp [get, set, Vector.getElem_set_ne, places]

@[simp] theorem i_set (file : RegisterFile) (x : Register) (value : UInt8) :
    (file.set x value).i = file.i := rfl

@[simp] theorem pc_set (file : RegisterFile) (x : Register) (value : UInt8) :
    (file.set x value).pc = file.pc := rfl

/-- Setting registers touches neither the index register nor the program counter. -/
theorem fixed_setThrough (file : RegisterFile) (x : Register) (bytes : List UInt8) :
    (file.setThrough x bytes).i = file.i ∧ (file.setThrough x bytes).pc = file.pc := by
  unfold setThrough
  induction x.through.zip bytes generalizing file with
  | nil => exact ⟨rfl, rfl⟩
  | cons pair pairs ih => exact ih (file.set pair.1 pair.2)

@[simp] theorem i_setThrough (file : RegisterFile) (x : Register) (bytes : List UInt8) :
    (file.setThrough x bytes).i = file.i := (file.fixed_setThrough x bytes).1

@[simp] theorem pc_setThrough (file : RegisterFile) (x : Register) (bytes : List UInt8) :
    (file.setThrough x bytes).pc = file.pc := (file.fixed_setThrough x bytes).2

@[simp] theorem get_goto (file : RegisterFile) (address : UInt16) (x : Register) :
    (file.goto address).get x = file.get x := rfl

@[simp] theorem get_setIndex (file : RegisterFile) (address : UInt16) (x : Register) :
    (file.setIndex address).get x = file.get x := rfl

end RegisterFile

end ChipVm
