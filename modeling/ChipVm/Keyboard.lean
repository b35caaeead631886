/-
# The keypad on a keyboard

The sixteen keys lie on the four leftmost columns of a keyboard's letters and digits:

    1 2 3 C        1 2 3 4
    4 5 6 D   on   Q W E R
    7 8 9 E        A S D F
    A 0 B F        Z X C V

A keyboard key is known by its key code, which for a letter or a digit is the character's code,
letters in lower case.
-/
import ChipVm.Layout

namespace ChipVm

/-- The keyboard key that each key of the keypad lies on, from key 0 to key F. -/
def keyboardLayout : List Char :=
  ['x', '1', '2', '3', 'q', 'w', 'e', 'a', 's', 'd', 'z', 'c', '4', 'r', 'f', 'v']

/-- The key of the keypad that lies on the keyboard key with this key code. -/
def keypadKey? (keyCode : Int) : Option Nat :=
  keyboardLayout.findIdx? fun letter => (letter.toNat : Int) == keyCode

end ChipVm
