/-
# Starting up

What the program does from its command line up to the first instruction: read the arguments and
the program, print a listing if one is asked for, find the configuration, load the program.
Whatever goes wrong on the way ends the process with an exit code and a message.
-/
import ChipVm.CommandLine.Arguments
import ChipVm.Console
import ChipVm.Listing

namespace ChipVm

/-- How a process ends. -/
structure Exit where
  /-- The exit code. -/
  code : Nat
  /-- The lines on standard output. -/
  output : List String
  /-- The lines on standard error. -/
  errors : List String
deriving DecidableEq, Repr

namespace Launch

/-- The help text. -/
def helpLines : List String :=
  [ "A Chip-8 interpreter",
    "",
    "Usage: vip8 [OPTIONS] <ROM>",
    "",
    "Arguments:",
    "  <ROM>  ROM image to run",
    "",
    "Options:",
    "      --config <PATH>  JSON config file; flags below override it",
    "      --rate <RATE>    Instructions executed per second",
    "      --seed <SEED>    Seed for the random number generator",
    "      --modern         Use the quirks later interpreters settled on instead of the "
      ++ "original hardware's",
    "      --scale <SCALE>  Window pixels per Chip-8 pixel [default: 10]",
    "      --disassemble    Print a listing of the ROM and exit",
    "  -h, --help           Print help" ]

/-- A usage error in words. -/
def usageText : UsageError → String
  | .missingProgram => "error: the following required arguments were not provided: <ROM>"
  | .unknownArgument => "error: unexpected argument found"
  | .missingValue => "error: a value is required but none was supplied"
  | .invalidNumber => "error: invalid value"
  | .repeated => "error: an argument cannot be used multiple times"
  | .unexpectedValue => "error: unexpected value found; no more were expected"
  | .help => ""

/-- The end of a process whose command line was refused, or asked for help. -/
def usageExit : UsageError → Exit
  | .help => ⟨0, helpLines, []⟩
  | error => ⟨2, [], [usageText error, "", "For more information, try '--help'."]⟩

/-- A file error in full. -/
def fileErrorText (error : FileError) : String :=
  let causes := "kind: " ++ error.kind ++ ", message: " ++ Text.quoted error.reason ++ " \x7d"
  match error.number? with
  | some number => "Os \x7b code: " ++ toString number ++ ", " ++ causes
  | none => "Error \x7b " ++ causes

/-- What is wrong with the contents of a configuration file, and where. -/
def malformedText (message : String) (place : Text.Position) : String :=
  "Json(Error(" ++ Text.quoted message ++ ", line: " ++ toString place.line ++ ", column: "
    ++ toString place.column ++ "))"

/-- A configuration error in full. -/
def configErrorText : ConfigError → String
  | .unreadable error => "Io(" ++ fileErrorText error ++ ")"
  | .interrupted error => malformedText error.message ⟨0, 0⟩
  | .malformed failure => malformedText failure.error.message failure.position

/-- A fault that keeps a program from being loaded, in full. -/
def faultText : Fault → String
  | .programTooLarge size =>
    "InvalidRomSize \x7b size: " ++ toString size ++ ", max: " ++ toString programCapacity ++ " \x7d"
  | fault => fault.message

/-- The end of a process that could not start. -/
def failure (text : String) : Exit := ⟨1, [], ["Error: " ++ text]⟩

/-- What starting up comes to. -/
inductive Outcome where
  /-- The process is over. -/
  | exit (exit : Exit)
  /-- The program is loaded and can run. -/
  | ready (console : Console) (log : Array Log.Entry)

/-- Starts a loaded program under the given configuration. -/
def boot (program : List UInt8) (config : Config) (entropy : UInt64) : Outcome :=
  let reply := (Console.ofConfig config entropy).perform (.load program)
  match reply.result with
  | .ok _ => .ready reply.console reply.log
  | .error (.fault fault) => .exit (failure (faultText fault))
  | .error .overflow => .exit (failure "overflow")

/-- Starts up with the given arguments, where `files` is what can be read and `entropy` what
random bytes start from if there is no seed. -/
def start (arguments : List String) (files : Files) (entropy : UInt64) : Outcome :=
  match Arguments.parse arguments with
  | .error error => .exit (usageExit error)
  | .ok arguments =>
    match files arguments.program with
    | .error error => .exit (failure (fileErrorText error))
    | .ok program =>
      if arguments.disassemble then
        .exit ⟨0, (Listing.entries program).map Listing.Entry.line, []⟩
      else
        match arguments.configuration files with
        | .error error => .exit (failure (configErrorText error))
        | .ok config => boot program config entropy

end Launch

end ChipVm
