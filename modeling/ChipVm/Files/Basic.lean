/-
# Reading files

Why a file cannot be read, and in which words a user is told.  What is in the files is a value
that is handed in: a function from paths to contents.
-/

namespace ChipVm

/-- Why a file could not be read. -/
inductive FileError where
  /-- There is no file at that path. -/
  | notFound
  /-- The path goes on behind something that is no directory. -/
  | notDirectory
  /-- There is a directory at that path, which can be opened but has no contents to read. -/
  | isDirectory
  /-- The path, or a name in it, is longer than the system takes. -/
  | nameTooLong
  /-- The path holds a NUL character, so that the system is not even asked. -/
  | nulInPath
  /-- The system refused for some other reason. -/
  | refused (number : Nat) (reason : String)
deriving DecidableEq, Repr

/-- The contents of the files that can be read, by path. -/
abbrev Files := String → Except FileError (List UInt8)

namespace FileError

/-- The error in words. -/
def reason : FileError → String
  | notFound => "No such file or directory"
  | notDirectory => "Not a directory"
  | isDirectory => "Is a directory"
  | nameTooLong => "File name too long"
  | nulInPath => "file name contained an unexpected NUL byte"
  | refused _ reason => reason

/-- The number that the system gives the error, if the error comes from there. -/
def number? : FileError → Option Nat
  | notFound => some 2
  | notDirectory => some 20
  | isDirectory => some 21
  | nameTooLong => some 36
  | nulInPath => none
  | refused number _ => some number

/-- The error with this number. -/
def ofNumber (number : Nat) (reason : String) : FileError :=
  match number with
  | 2 => notFound
  | 20 => notDirectory
  | 21 => isDirectory
  | 36 => nameTooLong
  | number => refused number reason

/-- The word for the kind of the error. -/
def kind : FileError → String
  | notFound => "NotFound"
  | notDirectory => "NotADirectory"
  | isDirectory => "IsADirectory"
  | nameTooLong => "InvalidFilename"
  | nulInPath => "InvalidInput"
  | refused number _ => if number = 13 then "PermissionDenied" else "Uncategorized"

/-- The error as it is shown to a user. -/
def message (error : FileError) : String :=
  match error.number? with
  | some number => error.reason ++ " (os error " ++ toString number ++ ")"
  | none => error.reason

/-- Whether the file could be opened all the same, and only its contents not be read. -/
def isAfterOpening : FileError → Bool
  | isDirectory => true
  | _ => false

end FileError

end ChipVm
