/-
# Places in a text

A place in a text is given by the number of its line and by how many bytes of that line stand
before it.  Lines are counted from one and end with a line feed.
-/
namespace ChipVm.Text

/-- A place in a text. -/
structure Position where
  /-- The number of the line, from one. -/
  line : Nat
  /-- How many bytes of the line stand before the place. -/
  column : Nat
deriving DecidableEq, Repr

namespace Position

/-- The start of a text. -/
def start : Position := ⟨1, 0⟩

/-- The place after one more byte. -/
def next (place : Position) (byte : UInt8) : Position :=
  if byte = 0x0A then ⟨place.line + 1, 0⟩ else ⟨place.line, place.column + 1⟩

/-- The place after the given bytes of a text. -/
def after (seen : List UInt8) : Position := seen.foldl next start

@[simp] theorem after_nil : after [] = start := rfl

theorem after_concat (seen : List UInt8) (byte : UInt8) :
    after (seen ++ [byte]) = (after seen).next byte := by
  simp [after, List.foldl_append]

end Position

end ChipVm.Text
