/-
# The general purpose registers by name

A register is one of V0..VF.  `Register.name` writes it and `Register.parse` reads it back,
with or without the letter and in either case.
-/
import ChipVm.Layout
import ChipVm.Text.Hex
import ChipVm.Text.Quoted

namespace ChipVm

/-- One of the sixteen general purpose registers. -/
structure Register where
  /-- Its position among V0..VF. -/
  index : Fin registerCount
deriving DecidableEq, Repr

namespace Register

/-- The first register, which offsets the jump `BNNN`. -/
def v0 : Register := ⟨⟨0x0, by decide⟩⟩

/-- The last register, which doubles as the carry, borrow and collision flag. -/
def vf : Register := ⟨⟨0xF, by decide⟩⟩

/-- The register that a number names by its lowest four bits. -/
def ofNat (n : Nat) : Register :=
  ⟨⟨n % registerCount, Nat.mod_lt n (by decide)⟩⟩

/-- The registers V0..Vx in order, the range that the block transfers move. -/
def through (x : Register) : List Register :=
  (List.range (x.index.val + 1)).map ofNat

/-- `V` and the hexadecimal digit of the register. -/
def name (x : Register) : String :=
  "V" ++ Text.hex 1 x.index.val

/-- A text that names no register. -/
structure ParseError where
  /-- The whole text. -/
  text : String
deriving DecidableEq, Repr

/-- The error in words. -/
def ParseError.message (error : ParseError) : String :=
  "unexpected register " ++ Text.quoted error.text

/-- A text without the `V` or `v` that it may start with. -/
def withoutLetter : List Char → List Char
  | 'V' :: rest => rest
  | 'v' :: rest => rest
  | text => text

/-- The register that a hexadecimal number of one byte names.  The one byte can only be a
digit. -/
def ofDigit? (digit : List Char) : Option Register :=
  match h : Text.hexByte? digit with
  | none => none
  | some index =>
    if hsize : (String.ofList digit).utf8ByteSize = 1 then
      some ⟨⟨index, Text.lt_of_hexByte? h hsize⟩⟩
    else
      none

/-- Reads a digit, optionally after one `V` or `v`.  Everything else is refused: signs, a second
letter, more digits. -/
def parse (text : String) : Except ParseError Register :=
  match ofDigit? (withoutLetter text.toList) with
  | some x => .ok x
  | none => .error ⟨text⟩

end Register

end ChipVm
