/-
# The screen

64 by 32 pixels that persist until they are cleared or drawn over.  A pixel is a byte, 1 when it
is lit and 0 when it is dark.  A sprite is a list of rows of eight pixels; drawing it flips the
pixels under its set bits, wrapping around both edges, and reports whether a lit pixel was put
out.

The screen remembers whether it has changed since its frame was last taken, so that a renderer
redraws only when it must.
-/
import ChipVm.Layout

namespace ChipVm

/-- The pixels of the screen. -/
structure Frame where
  /-- The rows from top to bottom, each from left to right. -/
  rows : Vector (Vector UInt8 screenWidth) screenHeight
deriving DecidableEq

namespace Frame

/-- All pixels are out. -/
def blank : Frame :=
  ⟨Vector.replicate screenHeight (Vector.replicate screenWidth 0)⟩

instance : Inhabited Frame := ⟨blank⟩

/-- The pixel in column `x` of row `y`. -/
def pixel (frame : Frame) (x : Fin screenWidth) (y : Fin screenHeight) : UInt8 :=
  frame.rows[y.val][x.val]

/-- Flips the lowest bit of the pixel in column `x` of row `y`. -/
def flip (frame : Frame) (x : Fin screenWidth) (y : Fin screenHeight) : Frame :=
  let row := frame.rows[y.val]
  ⟨frame.rows.set y.val (row.set x.val (row[x.val] ^^^ 1) x.isLt) y.isLt⟩

@[simp] theorem pixel_blank (x : Fin screenWidth) (y : Fin screenHeight) :
    blank.pixel x y = 0 := by
  simp [blank, pixel]

/-- A flip changes one pixel and leaves all others. -/
theorem pixel_flip (frame : Frame) (x x' : Fin screenWidth) (y y' : Fin screenHeight) :
    (frame.flip x y).pixel x' y'
      = if x = x' ∧ y = y' then frame.pixel x y ^^^ 1 else frame.pixel x' y' := by
  unfold flip pixel
  simp only [Vector.getElem_set, Fin.ext_iff]
  split <;> split <;> simp_all

/-- All pixels, row after row. -/
def pixels (frame : Frame) : List UInt8 :=
  frame.rows.toList.flatMap Vector.toList

/-- The number of lit pixels. -/
def lit (frame : Frame) : Nat :=
  frame.pixels.count 1

end Frame

/-- A pixel's place on the screen: its column and its row. -/
abbrev Cell := Fin screenWidth × Fin screenHeight

namespace Sprite

/-- The columns of the set bits of one sprite row whose leftmost pixel stands in column `x`;
the most significant bit is leftmost. -/
def rowColumns (x : Nat) (row : UInt8) : List (Fin screenWidth) :=
  ((List.range 8).filter fun bit => row.toNat.testBit (7 - bit)).map fun bit =>
    Fin.ofNat screenWidth (x + bit)

/-- The cells under the set bits of a sprite whose top left corner stands at `(x, y)`.  Rows
beyond `spriteRowLimit` are not drawn. -/
def cells (x y : UInt8) (rows : List UInt8) : List Cell :=
  (rows.take spriteRowLimit).zipIdx.flatMap fun (row, offset) =>
    (rowColumns x.toNat row).map fun column => (column, Fin.ofNat screenHeight (y.toNat + offset))

end Sprite

namespace Frame

/-- Flips the given cells one after the other, and tells whether one of them was lit when its
turn came. -/
def flipCells (frame : Frame) (cells : List Cell) : Frame × Bool :=
  cells.foldl
    (fun (frame, collided) (x, y) => (frame.flip x y, collided || frame.pixel x y &&& 1 == 1))
    (frame, false)

end Frame

/-- The frame on display, and whether it is news to a renderer. -/
structure Screen where
  /-- The pixels. -/
  frame : Frame
  /-- Whether the frame was cleared or drawn on since it was last taken. -/
  dirty : Bool
deriving DecidableEq

namespace Screen

/-- A blank screen that needs no redrawing. -/
def initial : Screen := ⟨Frame.blank, false⟩

instance : Inhabited Screen := ⟨initial⟩

/-- Puts all pixels out. -/
def clear (_ : Screen) : Screen := ⟨Frame.blank, true⟩

/-- Draws a sprite with its top left corner at `(x, y)`, and tells whether it put out a lit
pixel. -/
def draw (screen : Screen) (x y : UInt8) (rows : List UInt8) : Screen × Bool :=
  let (frame, collided) := screen.frame.flipCells (Sprite.cells x y rows)
  (⟨frame, true⟩, collided)

/-- The frame, if it changed since it was last taken. -/
def takeFrame (screen : Screen) : Option Frame × Screen :=
  if screen.dirty then
    (some screen.frame, { screen with dirty := false })
  else
    (none, screen)

end Screen

end ChipVm
