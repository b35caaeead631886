/-
# Opcodes

An opcode is a word of four nibbles.  The first is its family; the others select a form within
the family or carry operands:

    _NNN   an address
    _XKK   a register and a byte
    _XYN   two registers and a nibble

`Instruction.decode` reads an opcode and `Instruction.encode` writes one.
`Instruction.normalize` cuts operands that are too wide for their place, and so tells which
instruction a written opcode is read back as.
-/
import ChipVm.Instruction.Basic

namespace ChipVm

namespace Opcode

/-- The first nibble. -/
def family (op : UInt16) : Nat := op.toNat / 0x1000

/-- The register that the second nibble names. -/
def x (op : UInt16) : Register := .ofNat (op.toNat / 0x100)

/-- The register that the third nibble names. -/
def y (op : UInt16) : Register := .ofNat (op.toNat / 0x10)

/-- The last nibble. -/
def n (op : UInt16) : Nat := op.toNat % 0x10

/-- The low byte. -/
def kk (op : UInt16) : Nat := op.toNat % 0x100

/-- All but the first nibble. -/
def address (op : UInt16) : UInt16 := .ofNat (op.toNat % 0x1000)

/-- The opcode of a family with an address, of which twelve bits are kept. -/
def ofAddress (family : Nat) (address : UInt16) : UInt16 :=
  .ofNat (family * 0x1000 + address.toNat % 0x1000)

/-- The opcode of a family with a register and a byte. -/
def ofByte (family : Nat) (x : Register) (kk : Nat) : UInt16 :=
  .ofNat (family * 0x1000 + x.index.val * 0x100 + kk)

/-- The opcode of a family with two registers and a nibble, of which four bits are kept. -/
def ofNibble (family : Nat) (x y : Register) (n : Nat) : UInt16 :=
  .ofNat (family * 0x1000 + x.index.val * 0x100 + y.index.val * 0x10 + n % 0x10)

end Opcode

namespace AluOp

/-- The last nibble of the operation's opcode. -/
def nibble : AluOp → Nat
  | copy => 0x0
  | or => 0x1
  | and => 0x2
  | xor => 0x3
  | add => 0x4
  | sub => 0x5
  | shiftRight => 0x6
  | subFrom => 0x7
  | shiftLeft => 0xE

/-- The operation with this last nibble. -/
def ofNibble? : Nat → Option AluOp
  | 0x0 => some copy
  | 0x1 => some or
  | 0x2 => some and
  | 0x3 => some xor
  | 0x4 => some add
  | 0x5 => some sub
  | 0x6 => some shiftRight
  | 0x7 => some subFrom
  | 0xE => some shiftLeft
  | _ => none

end AluOp

namespace Instruction

/-- The forms of family `E`, by their low byte. -/
def decodeKey (x : Register) : Nat → Option Instruction
  | 0x9E => some (skip (.pressed x))
  | 0xA1 => some (skip (.released x))
  | _ => none

/-- The forms of family `F`, by their low byte. -/
def decodeMisc (x : Register) : Nat → Option Instruction
  | 0x07 => some (loadDelay x)
  | 0x0A => some (awaitKey x)
  | 0x15 => some (setDelay x)
  | 0x18 => some (setSound x)
  | 0x1E => some (addIndex x)
  | 0x29 => some (loadGlyph x)
  | 0x33 => some (storeDecimal x)
  | 0x55 => some (storeThrough x)
  | 0x65 => some (loadThrough x)
  | _ => none

/-- The instruction that an opcode stands for, if it stands for one. -/
def decode (op : UInt16) : Option Instruction :=
  let x := Opcode.x op
  let y := Opcode.y op
  let n := Opcode.n op
  let kk := UInt8.ofNat (Opcode.kk op)
  let address := Opcode.address op
  match Opcode.family op with
  | 0x0 => some (if op = 0x00E0 then clear else if op = 0x00EE then ret else sys address)
  | 0x1 => some (jump address)
  | 0x2 => some (call address)
  | 0x3 => some (skip (.holds x kk))
  | 0x4 => some (skip (.lacks x kk))
  | 0x5 => if n = 0 then some (skip (.same x y)) else none
  | 0x6 => some (loadByte x kk)
  | 0x7 => some (addByte x kk)
  | 0x8 => (AluOp.ofNibble? n).map fun operation => alu operation x y
  | 0x9 => if n = 0 then some (skip (.differ x y)) else none
  | 0xA => some (loadIndex address)
  | 0xB => some (jumpOffset address)
  | 0xC => some (random x kk)
  | 0xD => some (draw x y (UInt8.ofNat n))
  | 0xE => decodeKey x (Opcode.kk op)
  | _ => decodeMisc x (Opcode.kk op)

/-- The opcode of an instruction.  Addresses keep their low twelve bits and sprite heights their
low four. -/
def encode : Instruction → UInt16
  | sys address => Opcode.ofAddress 0x0 address
  | clear => 0x00E0
  | ret => 0x00EE
  | jump address => Opcode.ofAddress 0x1 address
  | call address => Opcode.ofAddress 0x2 address
  | skip (.holds x kk) => Opcode.ofByte 0x3 x kk.toNat
  | skip (.lacks x kk) => Opcode.ofByte 0x4 x kk.toNat
  | skip (.same x y) => Opcode.ofNibble 0x5 x y 0x0
  | skip (.differ x y) => Opcode.ofNibble 0x9 x y 0x0
  | skip (.pressed x) => Opcode.ofByte 0xE x 0x9E
  | skip (.released x) => Opcode.ofByte 0xE x 0xA1
  | loadByte x kk => Opcode.ofByte 0x6 x kk.toNat
  | addByte x kk => Opcode.ofByte 0x7 x kk.toNat
  | alu operation x y => Opcode.ofNibble 0x8 x y operation.nibble
  | loadIndex address => Opcode.ofAddress 0xA address
  | jumpOffset address => Opcode.ofAddress 0xB address
  | random x kk => Opcode.ofByte 0xC x kk.toNat
  | draw x y height => Opcode.ofNibble 0xD x y height.toNat
  | loadDelay x => Opcode.ofByte 0xF x 0x07
  | awaitKey x => Opcode.ofByte 0xF x 0x0A
  | setDelay x => Opcode.ofByte 0xF x 0x15
  | setSound x => Opcode.ofByte 0xF x 0x18
  | addIndex x => Opcode.ofByte 0xF x 0x1E
  | loadGlyph x => Opcode.ofByte 0xF x 0x29
  | storeDecimal x => Opcode.ofByte 0xF x 0x33
  | storeThrough x => Opcode.ofByte 0xF x 0x55
  | loadThrough x => Opcode.ofByte 0xF x 0x65

/-- The low twelve bits of an address. -/
def cutAddress (address : UInt16) : UInt16 := .ofNat (address.toNat % 0x1000)

/-- The instruction with every operand cut to the width of its place in an opcode.  A host call
to the two addresses whose opcodes clear the screen and return becomes those instructions. -/
def normalize : Instruction → Instruction
  | sys address =>
    let address := cutAddress address
    if address = 0x0E0 then clear else if address = 0x0EE then ret else sys address
  | jump address => jump (cutAddress address)
  | call address => call (cutAddress address)
  | loadIndex address => loadIndex (cutAddress address)
  | jumpOffset address => jumpOffset (cutAddress address)
  | draw x y height => draw x y (UInt8.ofNat (height.toNat % 0x10))
  | instruction => instruction

end Instruction

end ChipVm
