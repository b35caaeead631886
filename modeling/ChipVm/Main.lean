/-
# The program

Starts up from the command line and lets the program run in real time, drawing the screen as text
whenever it changes, until nothing more can happen.
-/
import ChipVm.Launch

namespace ChipVm.Terminal

/-- The error of a file that could not be read. -/
def fileError : IO.Error → FileError
  | .noFileOrDirectory _ _ _ => .notFound
  | .permissionDenied _ number reason => .ofNumber number.toNat reason
  | .inappropriateType _ number reason => .ofNumber number.toNat reason
  | .invalidArgument _ number reason => .ofNumber number.toNat reason
  | .otherError number reason => .ofNumber number.toNat reason
  | error => .refused 5 (toString error)

/-- The contents of a file. -/
def readFile (path : String) : IO (Except FileError (List UInt8)) := do
  if path.toList.contains '\x00' then
    return .error .nulInPath
  try
    return .ok (← IO.FS.readBinFile path).toList
  catch error =>
    return .error (fileError error)

/-- The files that a command line names. -/
def filesFor (arguments : List String) : IO Files := do
  match Arguments.parse arguments with
  | .error _ => return fun _ => .error .notFound
  | .ok arguments =>
    let program ← readFile arguments.program
    let config ← match arguments.config with
      | some path => readFile path
      | none => pure (.error .notFound)
    return fun path => if path = arguments.program then program else config

/-- A frame as lines of text. -/
def frameLines (frame : Frame) : List String :=
  frame.rows.toList.map fun row =>
    String.ofList (row.toList.map fun pixel => if pixel = 1 then '#' else ' ')

/-- Lets a console run in real time, `last` being when it was last looked at. -/
partial def play (console : Console) (last : Nat) : IO Unit := do
  IO.sleep 16
  let now ← IO.monoNanosNow
  let some elapsed := Duration.ofParts? 0 (now - last) | return
  let reply := console.perform (.advance elapsed)
  let taken := reply.console.perform .takeFrame
  if let .ok (.frame (some frame)) := taken.result then
    for line in frameLines frame do
      IO.println line
  match reply.result with
  | .ok (.advanced advance) =>
    if advance.stalled || advance.waiting.isSome then return
    play taken.console now
  | .ok _ => return
  | .error (.fault fault) => IO.eprintln fault.message
  | .error .overflow => IO.eprintln "overflow"

end ChipVm.Terminal

open ChipVm in
/-- Runs the program that the arguments name. -/
def main (arguments : List String) : IO UInt32 := do
  let files ← Terminal.filesFor arguments
  let entropy ← IO.monoNanosNow
  match Launch.start arguments files (UInt64.ofNat entropy) with
  | .exit exit =>
    for line in exit.output do
      IO.println line
    for line in exit.errors do
      IO.eprintln line
    return UInt32.ofNat exit.code
  | .ready console log =>
    for entry in log do
      IO.eprintln (entry.level.name ++ " " ++ entry.message)
    Terminal.play console (← IO.monoNanosNow)
    return 0
