/-
# Pixels

Pixels are bytes, but nothing that is done to a screen takes them further than from 0 to 1 and
back: a blank frame has only dark pixels, and drawing a sprite flips the pixels under it one by
one.
-/
import Mathlib.Tactic.Lemma
import ChipVm.Screen

namespace ChipVm

namespace Frame

/-- Every pixel is dark or lit. -/
def Binary (frame : Frame) : Prop :=
  ∀ x y, frame.pixel x y = 0 ∨ frame.pixel x y = 1

lemma binary_blank : blank.Binary := fun x y => Or.inl (pixel_blank x y)

lemma Binary.flip {frame : Frame} (h : frame.Binary) (x : Fin screenWidth)
    (y : Fin screenHeight) : (frame.flip x y).Binary := by
  intro x' y'
  rw [pixel_flip]
  split
  · rcases h x y with hdark | hlit
    · rw [hdark]
      exact Or.inr rfl
    · rw [hlit]
      exact Or.inl rfl
  · exact h x' y'

/-- The frame that is left after the given cells were flipped one after the other. -/
lemma flipCells_fst (frame : Frame) (cells : List Cell) :
    (frame.flipCells cells).1 = cells.foldl (fun frame cell => frame.flip cell.1 cell.2) frame := by
  rw [flipCells]
  -- the flag that is kept beside the frame never decides about a flip
  generalize false = collided
  induction cells generalizing frame collided with
  | nil => rfl
  | cons cell cells ih => exact ih (frame.flip cell.1 cell.2) _

lemma Binary.flipCells {frame : Frame} (h : frame.Binary) (cells : List Cell) :
    (frame.flipCells cells).1.Binary := by
  rw [flipCells_fst]
  induction cells generalizing frame with
  | nil => exact h
  | cons cell cells ih => exact ih (h.flip cell.1 cell.2)

end Frame

lemma Screen.binary_draw {screen : Screen} (h : screen.frame.Binary) (x y : UInt8)
    (rows : List UInt8) : (screen.draw x y rows).1.frame.Binary :=
  h.flipCells (Sprite.cells x y rows)

end ChipVm
