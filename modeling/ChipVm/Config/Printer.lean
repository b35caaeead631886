/-
# Settings to JSON

The JSON text of a configuration: every field, in order, with no blank in between.
-/
import ChipVm.Config.Basic

namespace ChipVm

/-- `true` or `false`. -/
def boolJson (value : Bool) : String := if value then "true" else "false"

/-- The JSON object of a dialect. -/
def Dialect.toJson (dialect : Dialect) : String :=
  "\x7b\"logic_resets_flag\":" ++ boolJson dialect.logicResetsFlag
    ++ ",\"shift_uses_vy\":" ++ boolJson dialect.shiftUsesVy
    ++ ",\"load_store_increments_index\":" ++ boolJson dialect.transferMovesIndex ++ "\x7d"

/-- A seed, or `null`. -/
def seedJson : Option UInt64 → String
  | none => "null"
  | some seed => toString seed.toNat

/-- The JSON object of a configuration. -/
def Config.toJson (config : Config) : String :=
  "\x7b\"quirks\":" ++ config.dialect.toJson
    ++ ",\"instructions_per_second\":" ++ toString config.rate.toNat
    ++ ",\"seed\":" ++ seedJson config.seed ++ "\x7d"

end ChipVm
