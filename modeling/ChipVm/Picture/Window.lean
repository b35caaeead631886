/-
# The window

A window has a title and shows frames.  The title can carry a status in brackets.  A title with
a NUL character in it is refused, and the window keeps the one it has.
-/
import ChipVm.Picture.Texture

namespace ChipVm.Picture

/-- A window on the screen. -/
structure Window where
  /-- What stands in its title bar. -/
  title : String
  /-- Window pixels for each pixel of a frame, in either direction; a window of scale 0 has one
  pixel in all. -/
  scale : Nat
deriving DecidableEq, Repr

/-- Why a title was refused: it has a NUL character at this byte. -/
structure TitleError where
  /-- How many bytes stand before the character. -/
  position : Nat
deriving DecidableEq, Repr

/-- The error in words. -/
def TitleError.message (error : TitleError) : String :=
  "nul byte found in provided data at position: " ++ toString error.position

/-- A title with a status behind it. -/
def titleWith (title : String) : Option String → String
  | some status => title ++ " [" ++ status ++ "]"
  | none => title

/-- How many bytes stand before the first NUL character of a text, if it has one. -/
def nulPosition? (text : String) : Option Nat :=
  (text.toList.flatMap String.utf8EncodeChar).findIdx? (· == 0)

namespace Window

/-- Sets the title and the status behind it. -/
def setStatus (window : Window) (title : String) (status : Option String) :
    Except TitleError Window :=
  let text := titleWith title status
  match nulPosition? text with
  | some position => .error ⟨position⟩
  | none => .ok { window with title := text }

/-- The pixels that the window shows for a frame, row after row. -/
def render (window : Window) (frame : Frame) : List (List UInt8) :=
  windowRows window.scale frame

end Window

end ChipVm.Picture
