/-
# The keypad

Sixteen keys, each up or down, laid out as

    1 2 3 C
    4 5 6 D
    7 8 9 E
    A 0 B F

and, while a program waits for a key, the register that is to receive the next one pressed.
-/
import ChipVm.Fault
import ChipVm.Register

namespace ChipVm

/-- The state of the keys and of a pending wait. -/
structure Keypad where
  /-- Whether each key is down. -/
  keys : Vector Bool keyCount
  /-- The register that waits for the next key press. -/
  awaiting : Option Register
deriving DecidableEq, Repr

namespace Keypad

/-- All keys up, and nobody waiting. -/
def released : Keypad := ⟨Vector.replicate keyCount false, none⟩

instance : Inhabited Keypad := ⟨released⟩

/-- Whether the key with this code is down; a code that is not on the keypad never is. -/
def isPressed (keypad : Keypad) (code : UInt8) : Bool :=
  if h : code.toNat < keyCount then keypad.keys[code.toNat] else false

/-- Moves a key up or down.  A press while a register waits ends the wait, and the register that
waited is returned: it is to receive the code. -/
def setKey (keypad : Keypad) (code : UInt8) (down : Bool) : Outcome Keypad (Option Register) :=
  if h : code.toNat < keyCount then
    let keys := keypad.keys.set code.toNat down h
    if down then
      .ok keypad.awaiting ⟨keys, none⟩
    else
      .ok none ⟨keys, keypad.awaiting⟩
  else
    .error (.noSuchKey code) keypad

/-- Lets register `x` wait for the next key press. -/
def awaitKey (keypad : Keypad) (x : Register) : Keypad :=
  { keypad with awaiting := some x }

/-- The codes of all keys that are down, in ascending order. -/
def pressedCodes (keypad : Keypad) : List Nat :=
  (List.range keyCount).filter fun code => keypad.keys.getD code false

end Keypad

end ChipVm
