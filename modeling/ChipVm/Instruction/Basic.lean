/-
# The instruction set

Every form of opcode that means something.  Addresses keep all sixteen bits and sprite heights
all eight of the value they are given, so that an instruction can be written down before it is
known to fit its opcode; `Instruction.encode` cuts them to size.
-/
import ChipVm.Register

namespace ChipVm

/-- When a skip instruction passes over the instruction that follows it. -/
inductive Condition where
  /-- `3XKK`: register `x` holds `kk`. -/
  | holds (x : Register) (kk : UInt8)
  /-- `4XKK`: register `x` holds something other than `kk`. -/
  | lacks (x : Register) (kk : UInt8)
  /-- `5XY0`: the registers hold the same byte. -/
  | same (x y : Register)
  /-- `9XY0`: the registers hold different bytes. -/
  | differ (x y : Register)
  /-- `EX9E`: the key named by register `x` is down. -/
  | pressed (x : Register)
  /-- `EXA1`: the key named by register `x` is up. -/
  | released (x : Register)
deriving DecidableEq, Repr

/-- The operations of the family `8XY_`, which combine two registers into the first. -/
inductive AluOp where
  /-- `8XY0` -/
  | copy
  /-- `8XY1` -/
  | or
  /-- `8XY2` -/
  | and
  /-- `8XY3` -/
  | xor
  /-- `8XY4` -/
  | add
  /-- `8XY5` -/
  | sub
  /-- `8XY6` -/
  | shiftRight
  /-- `8XY7`: the first register is taken from the second. -/
  | subFrom
  /-- `8XYE` -/
  | shiftLeft
deriving DecidableEq, Repr

/-- An instruction with its operands. -/
inductive Instruction where
  /-- `0NNN`: call a routine of the host; ignored. -/
  | sys (address : UInt16)
  /-- `00E0`: clear the screen. -/
  | clear
  /-- `00EE`: return from a subroutine. -/
  | ret
  /-- `1NNN` -/
  | jump (address : UInt16)
  /-- `2NNN` -/
  | call (address : UInt16)
  /-- The six conditional skips. -/
  | skip (condition : Condition)
  /-- `6XKK` -/
  | loadByte (x : Register) (kk : UInt8)
  /-- `7XKK` -/
  | addByte (x : Register) (kk : UInt8)
  /-- `8XY_` -/
  | alu (op : AluOp) (x y : Register)
  /-- `ANNN` -/
  | loadIndex (address : UInt16)
  /-- `BNNN`: jump to an address offset by V0. -/
  | jumpOffset (address : UInt16)
  /-- `CXKK`: a random byte masked with `kk`. -/
  | random (x : Register) (kk : UInt8)
  /-- `DXYN`: draw the sprite of `height` rows that the index register points at. -/
  | draw (x y : Register) (height : UInt8)
  /-- `FX07` -/
  | loadDelay (x : Register)
  /-- `FX0A`: wait for a key press. -/
  | awaitKey (x : Register)
  /-- `FX15` -/
  | setDelay (x : Register)
  /-- `FX18` -/
  | setSound (x : Register)
  /-- `FX1E` -/
  | addIndex (x : Register)
  /-- `FX29`: point at the sprite of a hexadecimal digit. -/
  | loadGlyph (x : Register)
  /-- `FX33`: store the three decimal digits of a register. -/
  | storeDecimal (x : Register)
  /-- `FX55`: store V0..Vx. -/
  | storeThrough (x : Register)
  /-- `FX65`: load V0..Vx. -/
  | loadThrough (x : Register)
deriving DecidableEq, Repr

end ChipVm
