/-
# What can be wrong with a JSON text

An error is its cause; `Json.Error.message` has the wording.  A text is looked at from left to
right, byte by byte, and no further than it takes to find something wrong.  A `Flaw` has the part
of the text that was not looked at, and a `Failure` the place that was reached.
-/
import ChipVm.Decimal.Shortest
import ChipVm.Text.Position
import ChipVm.Text.Quoted

namespace ChipVm.Json

/-- A number as it is understood. -/
inductive Number where
  /-- A whole number from 0 to 2^64 - 1. -/
  | whole (n : Nat)
  /-- A whole number from -2^63 to -1, by its absolute value. -/
  | negative (n : Nat)
  /-- Any other number, as a double precision value of so many units. -/
  | float (negative : Bool) (units : Nat)
deriving DecidableEq, Repr

/-- What was found where something else was wanted. -/
inductive Found where
  | null
  | bool (value : Bool)
  | number (value : Number)
  | text (value : String)
  | list
  | object
deriving DecidableEq, Repr

/-- The ways in which a text can fail to be what is wanted. -/
inductive Error where
  /-- The text ends where a value is due. -/
  | endInValue
  /-- The text ends inside an object. -/
  | endInObject
  /-- The text ends inside a list. -/
  | endInList
  /-- The text ends inside a string. -/
  | endInString
  | expectedValue
  | expectedColon
  | expectedCommaOrBracket
  | expectedCommaOrBrace
  /-- A word that starts like `null`, `true` or `false` goes on differently. -/
  | expectedWord
  | keyNotString
  | trailingComma
  /-- Something follows what should have been the end. -/
  | trailingCharacters
  | invalidNumber
  | numberOutOfRange
  | invalidEscape
  /-- A string holds a raw control character. -/
  | controlCharacter
  /-- A surrogate escape lacks its partner. -/
  | loneSurrogate
  /-- No escape follows a leading surrogate. -/
  | unpairedEscape
  /-- A string is not valid UTF-8. -/
  | invalidCodePoint
  | duplicateField (name : String)
  /-- A value of the wrong kind. -/
  | wrongType (found : Found) (wanted : String)
  /-- A whole number that is too large or negative. -/
  | outOfRange (value : Number) (wanted : String)
deriving DecidableEq, Repr

/-- Something wrong inside a number, a string or a word. -/
structure Flaw where
  /-- What is wrong. -/
  error : Error
  /-- The end of the text that was not looked at. -/
  unseen : List UInt8
deriving DecidableEq, Repr

/-- The failure to read a text. -/
structure Failure where
  /-- What is wrong. -/
  error : Error
  /-- How far the text was looked at. -/
  position : Text.Position
deriving DecidableEq, Repr

/-- Floating point numbers are written without an exponent from 1e-5 up to below 1e16. -/
def floatLayout : Decimal.Layout := ⟨-5, 15⟩

/-- A number in words. -/
def Number.describe : Number → String
  | whole n => "integer `" ++ toString n ++ "`"
  | negative n => "integer `-" ++ toString n ++ "`"
  | float sign units => "floating point `" ++ floatLayout.write sign units ++ "`"

/-- What was found, in words. -/
def Found.describe : Found → String
  | null => "null"
  | bool value => "boolean `" ++ (if value then "true" else "false") ++ "`"
  | number value => value.describe
  | text value => "string " ++ Text.quoted value
  | list => "sequence"
  | object => "map"

/-- The error in words. -/
def Error.message : Error → String
  | endInValue => "EOF while parsing a value"
  | endInObject => "EOF while parsing an object"
  | endInList => "EOF while parsing a list"
  | endInString => "EOF while parsing a string"
  | expectedValue => "expected value"
  | expectedColon => "expected `:`"
  | expectedCommaOrBracket => "expected `,` or `]`"
  | expectedCommaOrBrace => "expected `,` or `\x7d`"
  | expectedWord => "expected ident"
  | keyNotString => "key must be a string"
  | trailingComma => "trailing comma"
  | trailingCharacters => "trailing characters"
  | invalidNumber => "invalid number"
  | numberOutOfRange => "number out of range"
  | invalidEscape => "invalid escape"
  | controlCharacter => "control character (\\u0000-\\u001F) found while parsing a string"
  | loneSurrogate => "lone leading surrogate in hex escape"
  | unpairedEscape => "unexpected end of hex escape"
  | invalidCodePoint => "invalid unicode code point"
  | duplicateField name => "duplicate field `" ++ name ++ "`"
  | wrongType found wanted => "invalid type: " ++ found.describe ++ ", expected " ++ wanted
  | outOfRange value wanted => "invalid value: " ++ value.describe ++ ", expected " ++ wanted

end ChipVm.Json
