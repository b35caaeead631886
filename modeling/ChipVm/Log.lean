/-
# The journal

What the machine and its scheduler have to say while they run.  An entry is the event itself;
`Log.Entry.message` puts it into words and `Log.Entry.level` tells how much it matters.
-/
import ChipVm.Fault
import ChipVm.RegisterFile
import ChipVm.Instruction.Mnemonic
import ChipVm.Pacing.Duration

namespace ChipVm.Log

/-- How much an entry matters, the gravest first. -/
inductive Level where
  | error
  | info
  | debug
  | trace
deriving DecidableEq, Repr

/-- The name of a level. -/
def Level.name : Level → String
  | error => "ERROR"
  | info => "INFO"
  | debug => "DEBUG"
  | trace => "TRACE"

/-- An event worth a line in the journal. -/
inductive Entry where
  /-- A program of this many bytes was loaded. -/
  | loaded (size : Nat)
  /-- The machine starts over. -/
  | resetting
  /-- The instruction decoded from `opcode` is about to run on these registers. -/
  | executing (opcode : UInt16) (instruction : Instruction) (registers : RegisterFile)
  /-- The program waits for a key. -/
  | awaiting (register : Register)
  /-- A key press ended the wait. -/
  | resumed (register : Register) (code : UInt8)
  /-- A fault stopped the machine. -/
  | halted (fault : Fault)
  /-- Time was let pass. -/
  | advanced (elapsed : Duration) (steps ticks : Nat)
deriving DecidableEq, Repr

namespace Entry

/-- How much the entry matters. -/
def level : Entry → Level
  | loaded _ => .info
  | resetting => .debug
  | executing _ _ _ => .trace
  | awaiting _ => .debug
  | resumed _ _ => .debug
  | halted _ => .error
  | advanced _ _ _ => .trace

/-- Text filled up with blanks on the right to at least `width` characters. -/
def padRight (width : Nat) (text : String) : String :=
  String.ofList (text.toList.rightpad width ' ')

/-- All byte registers in hexadecimal, in brackets. -/
def registersText (registers : RegisterFile) : String :=
  "[" ++ String.intercalate ", " (registers.v.toList.map fun byte => Text.hex 2 byte.toNat)
    ++ "]"

/-- The entry in words. -/
def message : Entry → String
  | loaded size => "loaded " ++ toString size ++ " byte ROM"
  | resetting => "resetting"
  | executing opcode instruction registers =>
    Text.hex 4 registers.pc.toNat ++ " " ++ Text.hex 4 opcode.toNat ++ " "
      ++ padRight 16 instruction.mnemonic ++ " v" ++ registersText registers
      ++ " i" ++ Text.hex 4 registers.i.toNat
  | awaiting register => "waiting for a key press into " ++ register.name
  | resumed register code =>
    register.name ++ " = key " ++ Text.hex 1 code.toNat ++ ", resuming"
  | halted fault => "halted: " ++ fault.message
  | advanced elapsed steps ticks =>
    "advanced " ++ elapsed.text ++ ": " ++ toString steps ++ " steps, "
      ++ toString ticks ++ " ticks"

end Entry

end ChipVm.Log
