/-
# What can go wrong while a program is loaded or run

A fault is its cause.  The wording lives in `Fault.message`, and `Fault.isFatal` tells the
faults that halt the machine from those that are only reported to the caller.

An operation that can fail ends in an `Outcome`, which has the state in either case: whatever was
changed before the fault stays changed, unless the operation takes care that nothing was.
-/
import ChipVm.Layout
import ChipVm.Text.Hex

namespace ChipVm

/-- The causes of failure of the machine and its parts. -/
inductive Fault where
  /-- A byte outside memory was asked for; `address` is the first such byte. -/
  | outOfBounds (address : Nat)
  /-- The call at `pc` would open more than `stackLimit` subroutines. -/
  | stackOverflow (pc : UInt16)
  /-- The return at `pc` has no call to return from. -/
  | stackUnderflow (pc : UInt16)
  /-- The word at `pc` is no instruction. -/
  | unknownOpcode (opcode pc : UInt16)
  /-- A program of `size` bytes does not fit into memory. -/
  | programTooLarge (size : Nat)
  /-- The keypad has no key with this code. -/
  | noSuchKey (code : UInt8)
deriving DecidableEq, Repr

namespace Fault

/-- Whether the fault halts the machine until it is reset. -/
def isFatal : Fault → Bool
  | .programTooLarge _ => false
  | .noSuchKey _ => false
  | _ => true

/-- The fault in words. -/
def message : Fault → String
  | .outOfBounds address =>
    "memory access out of bounds at " ++ Text.hexLiteral 4 address
  | .stackOverflow pc =>
    "stack overflow: call at " ++ Text.hexLiteral 4 pc.toNat
      ++ " exceeds 16 nested subroutines"
  | .stackUnderflow pc =>
    "stack underflow: return at " ++ Text.hexLiteral 4 pc.toNat
      ++ " with an empty call stack"
  | .unknownOpcode opcode pc =>
    "unknown opcode " ++ Text.hexLiteral 4 opcode.toNat ++ " at " ++ Text.hexLiteral 4 pc.toNat
  | .programTooLarge size =>
    "ROM is " ++ toString size ++ " bytes, the largest that fits is "
      ++ toString programCapacity ++ " bytes"
  | .noSuchKey code =>
    "key code " ++ Text.hexLiteral 1 code.toNat ++ " is not on the keypad"

end Fault

/-- How an operation on a state ends: with a value or with a fault, and in either case with the
state as it is by then. -/
abbrev Outcome (σ α : Type) : Type := EStateM.Result Fault σ α

end ChipVm
