/-
# Program listings

A listing walks a program two bytes at a time, as it would be laid out in memory.  A last odd
byte is no opcode and is left out.  Addresses go on counting past the end of memory, since any
file can be listed.
-/
import ChipVm.Instruction.Encoding
import ChipVm.Instruction.Mnemonic

namespace ChipVm

namespace Listing

/-- One line of a listing. -/
structure Entry where
  /-- Where the opcode would stand in memory. -/
  address : Nat
  /-- The word at that address. -/
  opcode : UInt16
  /-- What the word means, if it is an instruction. -/
  instruction : Option Instruction
deriving DecidableEq, Repr

/-- The words of a program from `address` on. -/
def entriesFrom (address : Nat) : List UInt8 → List Entry
  | high :: low :: rest =>
    let opcode := UInt16.ofNat (high.toNat * 0x100 + low.toNat)
    ⟨address, opcode, Instruction.decode opcode⟩ :: entriesFrom (address + 2) rest
  | _ => []

/-- The listing of a program. -/
def entries (program : List UInt8) : List Entry :=
  entriesFrom programStart program

/-- Address, opcode and mnemonic in columns; a word that is no instruction has no mnemonic. -/
def Entry.line (entry : Entry) : String :=
  let words := Text.hex 3 entry.address ++ "  " ++ Text.hex 4 entry.opcode.toNat
  match entry.instruction with
  | some instruction => words ++ "  " ++ instruction.mnemonic
  | none => words

end Listing

end ChipVm
