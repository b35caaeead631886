/-
# Settings from JSON

A configuration is a JSON record.  Every field may be left out, and then keeps its standard
value, so an empty object is a configuration.
-/
import ChipVm.Config.Basic
import ChipVm.Json.Record

namespace ChipVm

namespace Dialect

/-- The switches of a dialect as fields of a record. -/
def shape : Json.Shape Dialect where
  title := "struct Quirks"
  fields :=
    [ ⟨"logic_resets_flag",
        Json.Reader.into Json.readBool fun value dialect =>
          { dialect with logicResetsFlag := value }⟩,
      ⟨"shift_uses_vy",
        Json.Reader.into Json.readBool fun value dialect =>
          { dialect with shiftUsesVy := value }⟩,
      ⟨"load_store_increments_index",
        Json.Reader.into Json.readBool fun value dialect =>
          { dialect with transferMovesIndex := value }⟩ ]

/-- Reads a dialect; switches that are not given are as in the classic one. -/
def reader : Json.Reader Dialect := Json.readRecord shape classic

end Dialect

namespace Config

/-- The settings as fields of a record. -/
def shape : Json.Shape Config where
  title := "struct Config"
  fields :=
    [ ⟨"quirks",
        Json.Reader.into Dialect.reader fun value config => { config with dialect := value }⟩,
      ⟨"instructions_per_second",
        Json.Reader.into (Json.readWhole UInt32.size "u32") fun value config =>
          { config with rate := UInt32.ofNat value }⟩,
      ⟨"seed",
        Json.Reader.into (Json.readNullable (Json.readWhole UInt64.size "u64")) fun value config =>
          { config with seed := value.map UInt64.ofNat }⟩ ]

/-- Reads a configuration; settings that are not given are the standard ones. -/
def reader : Json.Reader Config := Json.readRecord shape standard

/-- The configuration that the bytes of a JSON text describe. -/
def ofBytes (bytes : List UInt8) : Except Json.Failure Config :=
  Json.readAll reader bytes

/-- The bytes of a text in UTF-8. -/
def textBytes (text : String) : List UInt8 :=
  text.toList.flatMap String.utf8EncodeChar

/-- The configuration that a JSON text describes. -/
def ofJson (text : String) : Except Json.Failure Config :=
  ofBytes (textBytes text)

end Config

end ChipVm
