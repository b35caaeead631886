/-
# Frames as pictures

A frame becomes a texture of three equal colour bytes for each pixel, 255 for a lit pixel and 0
for a dark one.  A texture is copied into a buffer whose rows may be longer than its own.

A window shows a frame at another size: each place of the window shows the pixel that lies under
the middle of that place.  The distance between two places is rounded down to a 65536th of a
pixel, which leaves every pixel a square of its own as long as the window is not too large.
-/
import ChipVm.Screen

namespace ChipVm.Picture

/-- Bytes of colour for each pixel. -/
abbrev channels : Nat := 3

/-- The brightness of a pixel. -/
def brightness (pixel : UInt8) : UInt8 := pixel * 255

/-- The colour bytes of pixels in order. -/
def colours (pixels : List UInt8) : List UInt8 :=
  pixels.flatMap fun pixel => List.replicate channels (brightness pixel)

/-- The texture of a frame, row after row. -/
def texture (frame : Frame) : List UInt8 := colours frame.pixels

/-- A list with the elements from place `start` on replaced by those of another, if they all have
a place in it. -/
def overwrite? {α : Type} (buffer : List α) (start : Nat) (line : List α) : Option (List α) :=
  if start + line.length ≤ buffer.length then
    some (buffer.take start ++ line ++ buffer.drop (start + line.length))
  else
    none

/-- Copies rows of bytes into a buffer in which the first goes to place `start` and each further
one `pitch` places on. -/
def copyRows? (pitch start : Nat) : List (List UInt8) → List UInt8 → Option (List UInt8)
  | [], buffer => some buffer
  | line :: rows, buffer =>
    match overwrite? buffer start line with
    | some buffer => copyRows? pitch (start + pitch) rows buffer
    | none => none

/-- A list cut into pieces of `length` elements; a shorter piece at the end is dropped. -/
def pieces {α : Type} (length : Nat) (list : List α) : List (List α) :=
  (List.range (list.length / length)).map fun k => (list.drop (k * length)).take length

/-- Copies the texture of a frame into a buffer whose rows start `pitch` bytes apart. -/
def copyTexture? (frame : Frame) (pitch : Nat) (buffer : List UInt8) : Option (List UInt8) :=
  copyRows? pitch 0 (pieces (screenWidth * channels) (texture frame)) buffer

/-- How many places a window has in one direction for so many pixels: `scale` for each, but at
least one in all. -/
def extent (scale pixels : Nat) : Nat := max 1 (pixels * scale)

/-- Elements brought to another number: for each of `places` places, the one under its middle. -/
def resample {α : Type} (elements : Array α) (places : Nat) : List α :=
  let stride := elements.size * 0x10000 / places
  (List.range places).filterMap fun place => elements[(stride / 2 + place * stride) / 0x10000]?

/-- What a window with `scale` places for each pixel shows, row after row. -/
def windowRows (scale : Nat) (frame : Frame) : List (List UInt8) :=
  let rows := frame.rows.toArray.map fun row => resample row.toArray (extent scale screenWidth)
  resample rows (extent scale screenHeight)

/-- Adds an element a number of times to runs whose last one stands first. -/
def extendRuns {α : Type} [DecidableEq α] (runs : List (α × Nat)) (a : α) (times : Nat) :
    List (α × Nat) :=
  match runs with
  | (b, n) :: earlier =>
    if a = b then (b, n + times) :: earlier else (a, times) :: (b, n) :: earlier
  | [] => [(a, times)]

/-- Runs of equal elements in order, each with its length. -/
def runs {α : Type} [DecidableEq α] (list : List α) : List (α × Nat) :=
  (list.foldl (fun runs a => extendRuns runs a 1) []).reverse

/-- The runs of equal colour bytes in rows of pixels. -/
def colourRuns (rows : List (List UInt8)) : List (UInt8 × Nat) :=
  (rows.foldl (fun runs row =>
    row.foldl (fun runs pixel => extendRuns runs (brightness pixel) channels) runs) []).reverse

end ChipVm.Picture
