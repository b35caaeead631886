/-
# The command line

What a user can ask for: a program to run, and settings in any order around it.  Settings take a
value, either as the next argument or after an equals sign; switches take none.  After `--`
every argument is a path.
-/
import ChipVm.Config.File

namespace ChipVm

/-- What a command line asks for. -/
structure Arguments where
  /-- The path of the program. -/
  program : String
  /-- The path of a configuration file. -/
  config : Option String
  /-- Instructions per second, over what the file says. -/
  rate : Option UInt32
  /-- The seed, over what the file says. -/
  seed : Option UInt64
  /-- Whether the modern dialect is asked for, over what the file says. -/
  modern : Bool
  /-- Window pixels for each pixel of the screen. -/
  scale : UInt32
  /-- Whether a listing is asked for instead of a run. -/
  disassemble : Bool
deriving DecidableEq, Repr

/-- Why a command line is refused. -/
inductive UsageError where
  /-- No program is named. -/
  | missingProgram
  /-- An argument that nobody knows, or a second program. -/
  | unknownArgument
  /-- A setting without its value, or an empty path. -/
  | missingValue
  /-- A value that is not a number in range. -/
  | invalidNumber
  /-- A setting or switch that was given before. -/
  | repeated
  /-- A value for a switch. -/
  | unexpectedValue
  /-- The user asks for help. -/
  | help
deriving DecidableEq, Repr

namespace CommandLine

/-- The settings, which take a value. -/
inductive Setting where
  | config
  | rate
  | seed
  | scale
deriving DecidableEq, Repr

/-- What can stand behind two dashes. -/
inductive Name where
  | setting (setting : Setting)
  | modern
  | disassemble
  | help
deriving DecidableEq, Repr

/-- The setting or switch of a name. -/
def Name.ofText? (text : String) : Option Name :=
  match text with
  | "config" => some (.setting .config)
  | "rate" => some (.setting .rate)
  | "seed" => some (.setting .seed)
  | "scale" => some (.setting .scale)
  | "modern" => some .modern
  | "disassemble" => some .disassemble
  | "help" => some .help
  | _ => none

/-- What has been asked for so far. -/
structure Draft where
  /-- The path of the program. -/
  program : Option String
  /-- The path of a configuration file. -/
  config : Option String
  /-- Instructions per second. -/
  rate : Option Nat
  /-- The seed. -/
  seed : Option Nat
  /-- Window pixels for each pixel of the screen. -/
  scale : Option Nat
  /-- Whether the modern dialect is asked for. -/
  modern : Bool
  /-- Whether a listing is asked for. -/
  disassemble : Bool
deriving DecidableEq, Repr

/-- Nothing has been asked for. -/
def Draft.empty : Draft := ⟨none, none, none, none, none, false, false⟩

/-- The number that a run of decimal digits writes; there has to be at least one. -/
def digitsValue? (digits : List Char) : Option Nat :=
  if digits.isEmpty then none
  else if digits.all Char.isDigit then
    some (digits.foldl (fun n digit => n * 10 + (digit.toNat - '0'.toNat)) 0)
  else none

/-- A number below 2^32.  A sign may stand in front, but the number may not be negative. -/
def parse32? (text : String) : Option Nat :=
  match text.toList with
  | '+' :: digits => (digitsValue? digits).filter (· < UInt32.size)
  | '-' :: digits => (digitsValue? digits).filter (· = 0)
  | digits => (digitsValue? digits).filter (· < UInt32.size)

/-- A number below 2^64.  A plus sign may stand in front. -/
def parse64? (text : String) : Option Nat :=
  match text.toList with
  | '+' :: digits => (digitsValue? digits).filter (· < UInt64.size)
  | digits => (digitsValue? digits).filter (· < UInt64.size)

/-- Whether a setting has been given. -/
def Draft.has (draft : Draft) : Setting → Bool
  | .config => draft.config.isSome
  | .rate => draft.rate.isSome
  | .seed => draft.seed.isSome
  | .scale => draft.scale.isSome

/-- Gives a setting its value. -/
def Draft.assign (draft : Draft) (setting : Setting) (value : String) :
    Except UsageError Draft :=
  match setting with
  | .config =>
    if value.isEmpty then .error .missingValue else .ok { draft with config := some value }
  | .rate =>
    match parse32? value with
    | some rate => .ok { draft with rate := some rate }
    | none => .error .invalidNumber
  | .seed =>
    match parse64? value with
    | some seed => .ok { draft with seed := some seed }
    | none => .error .invalidNumber
  | .scale =>
    match parse32? value with
    | some scale => .ok { draft with scale := some scale }
    | none => .error .invalidNumber

/-- An argument that has been taken note of, but not looked at closely. -/
inductive Pending where
  /-- The path of the program. -/
  | program (path : String)
  /-- A setting and its value, unless that is still to come. -/
  | setting (setting : Setting) (value : Option String)
deriving DecidableEq, Repr

/-- Looks closely at an argument: a value that is missing is noticed first, then a repetition,
and a bad value last. -/
def Draft.settle (draft : Draft) : Pending → Except UsageError Draft
  | .program path =>
    if path.isEmpty then .error .missingValue else .ok { draft with program := some path }
  | .setting _ none => .error .missingValue
  | .setting setting (some value) =>
    if draft.has setting then .error .repeated else draft.assign setting value

/-- A command line read in part. -/
structure Progress where
  /-- What has been asked for. -/
  draft : Draft
  /-- The argument still to be looked at closely. -/
  pending : Option Pending
  /-- Whether a program has been named. -/
  named : Bool
  /-- Whether `--` has been passed. -/
  pathsOnly : Bool
deriving DecidableEq, Repr

namespace Progress

/-- Nothing has been read. -/
def start : Progress := ⟨Draft.empty, none, false, false⟩

/-- The draft with the pending argument in it. -/
def settled (p : Progress) : Except UsageError Draft :=
  match p.pending with
  | none => .ok p.draft
  | some pending => p.draft.settle pending

/-- Takes the path of the program, of which there is only one. -/
def takePath (p : Progress) (path : String) : Except UsageError Progress :=
  if p.named then .error .unknownArgument
  else
    match p.settled with
    | .error error => .error error
    | .ok draft => .ok { p with draft, pending := some (.program path), named := true }

/-- Takes a setting; a value behind an equals sign is looked at right away. -/
def takeSetting (p : Progress) (setting : Setting) (value : Option String) :
    Except UsageError Progress :=
  match p.settled with
  | .error error => .error error
  | .ok draft =>
    match value with
    | none => .ok { p with draft, pending := some (.setting setting none) }
    | some value =>
      match draft.settle (.setting setting (some value)) with
      | .error error => .error error
      | .ok draft => .ok { p with draft, pending := none }

/-- Takes a switch that `isOn` tells and `turnOn` sets. -/
def takeSwitch (p : Progress) (isOn : Draft → Bool) (turnOn : Draft → Draft) :
    Except UsageError Progress :=
  match p.settled with
  | .error error => .error error
  | .ok draft =>
    if isOn draft then .error .repeated
    else .ok { p with draft := turnOn draft, pending := none }

/-- Takes a request for help. -/
def takeHelp (p : Progress) : UsageError :=
  match p.settled with
  | .error error => error
  | .ok _ => .help

/-- Takes an argument with two dashes in front, and the value behind an equals sign. -/
def takeName (p : Progress) (name : String) (value : Option String) :
    Except UsageError Progress :=
  match Name.ofText? name, value with
  | none, _ => .error .unknownArgument
  | some (.setting setting), value => p.takeSetting setting value
  | some _, some _ => .error .unexpectedValue
  | some .modern, none => p.takeSwitch Draft.modern fun draft => { draft with modern := true }
  | some .disassemble, none =>
    p.takeSwitch Draft.disassemble fun draft => { draft with disassemble := true }
  | some .help, none => .error p.takeHelp

/-- Takes an argument that starts with no dash: the value that is due, or a path. -/
def takeValue (p : Progress) (value : String) : Except UsageError Progress :=
  match p.pending with
  | some (.setting setting none) =>
    .ok { p with pending := some (.setting setting (some value)) }
  | _ => p.takePath value

/-- What stands before the first equals sign, and what stands behind it. -/
def splitAtEquals (text : List Char) : String × Option String :=
  match text.dropWhile (· != '=') with
  | [] => (String.ofList text, none)
  | _ :: value => (String.ofList (text.takeWhile (· != '=')), some (String.ofList value))

/-- Takes one argument. -/
def take (p : Progress) (argument : String) : Except UsageError Progress :=
  if p.pathsOnly then p.takePath argument
  else
    match argument.toList with
    | '-' :: '-' :: [] => .ok { p with pathsOnly := true }
    | '-' :: '-' :: text => p.takeName (splitAtEquals text).1 (splitAtEquals text).2
    | '-' :: 'h' :: _ => .error p.takeHelp
    | '-' :: _ :: _ => .error .unknownArgument
    | _ => p.takeValue argument

/-- Takes arguments in order. -/
def takeAll (p : Progress) : List String → Except UsageError Progress
  | [] => .ok p
  | argument :: rest =>
    match p.take argument with
    | .error error => .error error
    | .ok p => p.takeAll rest

/-- What was asked for, now that all has been read. -/
def finish (p : Progress) : Except UsageError Arguments :=
  match p.settled with
  | .error error => .error error
  | .ok draft =>
    match draft.program with
    | none => .error .missingProgram
    | some program =>
      .ok {
        program
        config := draft.config
        rate := draft.rate.map UInt32.ofNat
        seed := draft.seed.map UInt64.ofNat
        modern := draft.modern
        scale := UInt32.ofNat (draft.scale.getD 10)
        disassemble := draft.disassemble }

end Progress

end CommandLine

namespace Arguments

/-- What a command line asks for. -/
def parse (arguments : List String) : Except UsageError Arguments :=
  match CommandLine.Progress.start.takeAll arguments with
  | .error error => .error error
  | .ok p => p.finish

/-- A configuration with what the command line says laid over it. -/
def override (arguments : Arguments) (config : Config) : Config where
  dialect := if arguments.modern then Dialect.modern else config.dialect
  rate := arguments.rate.getD config.rate
  seed := arguments.seed.or config.seed

/-- The configuration that is asked for: the file's if one is named, else the standard one, under
what the command line says. -/
def configuration (arguments : Arguments) (files : Files) : Except ConfigError Config :=
  match arguments.config with
  | none => .ok (arguments.override Config.standard)
  | some path =>
    match Config.ofFile files path with
    | .error error => .error error
    | .ok config => .ok (arguments.override config)

end Arguments

end ChipVm
