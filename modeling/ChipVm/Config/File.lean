/-
# Settings from a file

The ways in which a configuration file can fail to give a configuration.  A file that cannot be
opened is told apart from one that can be opened and then does not give a configuration, be it
that its contents cannot be read or that they are wrong.
-/
import ChipVm.Config.Reader
import ChipVm.Files.Basic

namespace ChipVm

/-- Why there is no configuration. -/
inductive ConfigError where
  /-- The file could not be opened. -/
  | unreadable (error : FileError)
  /-- The file could be opened, but its contents could not be read. -/
  | interrupted (error : FileError)
  /-- The file does not describe a configuration. -/
  | malformed (failure : Json.Failure)
deriving DecidableEq, Repr

/-- The error in words. -/
def ConfigError.message : ConfigError → String
  | unreadable error => "unable to read config: " ++ error.message
  | interrupted error => "malformed config: " ++ error.message
  | malformed failure => "malformed config: " ++ failure.error.message

/-- The error of a file that does not give its contents. -/
def ConfigError.ofFileError (error : FileError) : ConfigError :=
  if error.isAfterOpening then .interrupted error else .unreadable error

namespace Config

/-- The configuration in a file. -/
def ofFile (files : Files) (path : String) : Except ConfigError Config :=
  match files path with
  | .error error => .error (.ofFileError error)
  | .ok bytes =>
    match ofBytes bytes with
    | .error failure => .error (.malformed failure)
    | .ok config => .ok config

end Config

end ChipVm
