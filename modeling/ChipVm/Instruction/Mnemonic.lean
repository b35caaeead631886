/-
# Instructions in words

`Instruction.pattern` is the form of the opcode with its operands as placeholders, and
`Instruction.mnemonic` the instruction in assembler notation.  Operands are written as they
stand, also where they are too wide for an opcode.
-/
import ChipVm.Instruction.Basic

namespace ChipVm

namespace AluOp

/-- The opcode form of the operation. -/
def pattern : AluOp → String
  | copy => "8XY0"
  | or => "8XY1"
  | and => "8XY2"
  | xor => "8XY3"
  | add => "8XY4"
  | sub => "8XY5"
  | shiftRight => "8XY6"
  | subFrom => "8XY7"
  | shiftLeft => "8XYE"

/-- The assembler word for the operation. -/
def mnemonic : AluOp → String
  | copy => "LD"
  | or => "OR"
  | and => "AND"
  | xor => "XOR"
  | add => "ADD"
  | sub => "SUB"
  | shiftRight => "SHR"
  | subFrom => "SUBN"
  | shiftLeft => "SHL"

end AluOp

namespace Condition

/-- The opcode form of a skip under this condition. -/
def pattern : Condition → String
  | holds _ _ => "3XKK"
  | lacks _ _ => "4XKK"
  | same _ _ => "5XY0"
  | differ _ _ => "9XY0"
  | pressed _ => "EX9E"
  | released _ => "EXA1"

end Condition

namespace Instruction

/-- The opcode form, with operands written as placeholders. -/
def pattern : Instruction → String
  | sys _ => "0NNN"
  | clear => "00E0"
  | ret => "00EE"
  | jump _ => "1NNN"
  | call _ => "2NNN"
  | skip condition => condition.pattern
  | loadByte _ _ => "6XKK"
  | addByte _ _ => "7XKK"
  | alu operation _ _ => operation.pattern
  | loadIndex _ => "ANNN"
  | jumpOffset _ => "BNNN"
  | random _ _ => "CXKK"
  | draw _ _ _ => "DXYN"
  | loadDelay _ => "FX07"
  | awaitKey _ => "FX0A"
  | setDelay _ => "FX15"
  | setSound _ => "FX18"
  | addIndex _ => "FX1E"
  | loadGlyph _ => "FX29"
  | storeDecimal _ => "FX33"
  | storeThrough _ => "FX55"
  | loadThrough _ => "FX65"

/-- An address operand: a literal of at least three digits. -/
def addressText (address : UInt16) : String := Text.hexLiteral 3 address.toNat

/-- A byte operand: a literal of two digits. -/
def byteText (kk : UInt8) : String := Text.hexLiteral 2 kk.toNat

/-- The instruction in assembler notation. -/
def mnemonic : Instruction → String
  | sys address => "SYS " ++ addressText address
  | clear => "CLS"
  | ret => "RET"
  | jump address => "JP " ++ addressText address
  | call address => "CALL " ++ addressText address
  | skip (.holds x kk) => "SE " ++ x.name ++ ", " ++ byteText kk
  | skip (.lacks x kk) => "SNE " ++ x.name ++ ", " ++ byteText kk
  | skip (.same x y) => "SE " ++ x.name ++ ", " ++ y.name
  | skip (.differ x y) => "SNE " ++ x.name ++ ", " ++ y.name
  | skip (.pressed x) => "SKP " ++ x.name
  | skip (.released x) => "SKNP " ++ x.name
  | loadByte x kk => "LD " ++ x.name ++ ", " ++ byteText kk
  | addByte x kk => "ADD " ++ x.name ++ ", " ++ byteText kk
  | alu operation x y => operation.mnemonic ++ " " ++ x.name ++ ", " ++ y.name
  | loadIndex address => "LD I, " ++ addressText address
  | jumpOffset address => "JP V0, " ++ addressText address
  | random x kk => "RND " ++ x.name ++ ", " ++ byteText kk
  | draw x y height => "DRW " ++ x.name ++ ", " ++ y.name ++ ", " ++ toString height.toNat
  | loadDelay x => "LD " ++ x.name ++ ", DT"
  | awaitKey x => "LD " ++ x.name ++ ", K"
  | setDelay x => "LD DT, " ++ x.name
  | setSound x => "LD ST, " ++ x.name
  | addIndex x => "ADD I, " ++ x.name
  | loadGlyph x => "LD F, " ++ x.name
  | storeDecimal x => "LD B, " ++ x.name
  | storeThrough x => "LD [I], " ++ x.name
  | loadThrough x => "LD " ++ x.name ++ ", [I]"

end Instruction

end ChipVm
