/-
# The call stack

The return addresses of the subroutines that are open.  That there are never more than
`stackLimit` of them is part of the type, so a push onto a full stack and a pop from an empty
one are the only failures.
-/
import ChipVm.Fault

namespace ChipVm

/-- The open subroutine calls. -/
structure CallStack where
  /-- The return addresses, the innermost call first. -/
  frames : List UInt16
  /-- No more calls are open than the hardware has room for. -/
  bounded : frames.length ≤ stackLimit
deriving DecidableEq, Repr

namespace CallStack

/-- No call is open. -/
def empty : CallStack := ⟨[], Nat.zero_le _⟩

instance : Inhabited CallStack := ⟨empty⟩

/-- The number of open calls. -/
def depth (stack : CallStack) : Nat := stack.frames.length

/-- The return addresses, the outermost call first. -/
def toList (stack : CallStack) : List UInt16 := stack.frames.reverse

/-- Opens a call that returns to `address`; `pc` is where the call stands. -/
def push (stack : CallStack) (address pc : UInt16) : Outcome CallStack Unit :=
  if room : stack.frames.length < stackLimit then
    .ok () ⟨address :: stack.frames, room⟩
  else
    .error (.stackOverflow pc) stack

/-- Closes the innermost call and gives its return address; `pc` is where the return stands. -/
def pop (stack : CallStack) (pc : UInt16) : Outcome CallStack UInt16 :=
  match stack with
  | ⟨[], bounded⟩ => .error (.stackUnderflow pc) ⟨[], bounded⟩
  | ⟨address :: frames, bounded⟩ => .ok address ⟨frames, Nat.le_of_succ_le bounded⟩

/-! ## What calls and returns do to the open calls -/

/-- A call that succeeds adds its return address at the inner end. -/
theorem frames_of_push {stack after : CallStack} {address pc : UInt16}
    (h : stack.push address pc = .ok () after) : after.frames = address :: stack.frames := by
  unfold push at h
  split at h
  · obtain ⟨-, rfl⟩ := EStateM.Result.ok.inj h
    rfl
  · exact absurd h nofun

/-- A return that succeeds takes the return address at the inner end. -/
theorem frames_of_pop {stack after : CallStack} {address pc : UInt16}
    (h : stack.pop pc = .ok address after) : stack.frames = address :: after.frames := by
  unfold pop at h
  split at h
  · exact absurd h nofun
  · obtain ⟨rfl, rfl⟩ := EStateM.Result.ok.inj h
    rfl

theorem toList_of_push {stack after : CallStack} {address pc : UInt16}
    (h : stack.push address pc = .ok () after) : after.toList = stack.toList ++ [address] := by
  rw [toList, frames_of_push h, List.reverse_cons, toList]

theorem toList_of_pop {stack after : CallStack} {address pc : UInt16}
    (h : stack.pop pc = .ok address after) : stack.toList = after.toList ++ [address] := by
  rw [toList, frames_of_pop h, List.reverse_cons, toList]

end CallStack

end ChipVm
