/-
# Partial settings

A description of settings names some of them, in any order, and may say other things besides.  This
file says what such a text looks like (`Config.Described`), and that reading it gives the settings
it names and the standard ones otherwise (`Config.given`), unless a setting is named twice
(`Config.Repeats`).

Both objects, that of the settings and that of the dialect inside it, are read in the same way, so
what holds of one object is applied twice: the members convey what they are written for
(`Dialect.faithful`, `Config.faithful`), and what they collect is looked up field by field
(`Dialect.given_of_reading`, `Config.given_of_reading`).
-/
import ChipVm.Config.Reader
import ChipVm.Proofs.Json.Record

namespace ChipVm

open Json Json.Grammar

/-! ## Descriptions of dialects -/

namespace Dialect

/-- The name of a switch. -/
def Switch.key : Switch → String
  | .logic => "logic_resets_flag"
  | .shift => "shift_uses_vy"
  | .transfer => "load_store_increments_index"

/-- The names of all switches. -/
def keys : List String := [Switch.logic.key, Switch.shift.key, Switch.transfer.key]

/-- What an object for a dialect says: how a switch is set, or something else. -/
inductive Member where
  | switch (switch : Switch) (value : Bool)
  | other (name : String)

namespace Member

/-- The name that a member stands under. -/
def name : Member → String
  | .switch s _ => s.key
  | .other name => name

/-- How a member is written after members with some names.  Under a name that is not that of a
switch any value may stand, and so it may where a switch is named again. -/
def Writes (seen : List String) : Member → List Char → Prop
  | .switch _ value, text => Boolean value text
  | .other name, text => (name ∈ keys → name ∈ seen) ∧ Derives .value text

/-- How a member sets a switch, if it does. -/
def sets (switch : Switch) : Member → Option Bool
  | .switch s value => if s = switch then some value else none
  | .other _ => none

end Member

/-- How members set a switch, which is else as in the classic dialect. -/
def setting (members : List Member) (switch : Switch) : Bool :=
  (members.findSome? (Member.sets switch)).getD (classic.isOn switch)

/-- The dialect that members give. -/
def given (members : List Member) : Dialect :=
  ⟨setting members .logic, setting members .shift, setting members .transfer⟩

/-- A switch is named twice. -/
def Repeats (name : String) (members : List Member) : Prop :=
  name ∈ keys ∧ (members.map Member.name).Duplicate name

end Dialect

/-! ## Descriptions of settings -/

namespace Config

/-- The names of all settings. -/
def keys : List String := ["quirks", "instructions_per_second", "seed"]

/-- What an object for settings says: one of the settings, or something else. -/
inductive Member where
  | dialect (members : List Dialect.Member)
  | rate (rate : UInt32)
  | seed (seed : Option UInt64)
  | other (name : String)

namespace Member

/-- The name that a member stands under. -/
def name : Member → String
  | .dialect _ => "quirks"
  | .rate _ => "instructions_per_second"
  | .seed _ => "seed"
  | .other name => name

/-- How a member is written after members with some names.  Under a name that is not that of a
setting any value may stand, and so it may where a setting is named again. -/
def Writes (seen : List String) : Member → List Char → Prop
  | .dialect members, text => ObjectOf Dialect.Member.name Dialect.Member.Writes members text
  | .rate n, text => WholeNumber n.toNat text
  | .seed none, text => text = ['n', 'u', 'l', 'l']
  | .seed (some n), text => WholeNumber n.toNat text
  | .other name, text => (name ∈ keys → name ∈ seen) ∧ Derives .value text

/-- The dialect that a member gives, if it does. -/
def dialect? : Member → Option Dialect
  | .dialect members => some (Dialect.given members)
  | _ => none

/-- The rate that a member gives, if it does. -/
def rate? : Member → Option UInt32
  | .rate n => some n
  | _ => none

/-- The seed that a member gives, or the lack of one, if it does. -/
def seed? : Member → Option (Option UInt64)
  | .seed s => some s
  | _ => none

end Member

/-- The settings that members give, which are else the standard ones. -/
def given (members : List Member) : Config where
  dialect := (members.findSome? Member.dialect?).getD standard.dialect
  rate := (members.findSome? Member.rate?).getD standard.rate
  seed := (members.findSome? Member.seed?).getD standard.seed

/-- A setting is named twice, or a switch of a dialect. -/
def Repeats (name : String) (members : List Member) : Prop :=
  (name ∈ keys ∧ (members.map Member.name).Duplicate name) ∨
    ∃ inner, .dialect inner ∈ members ∧ Dialect.Repeats name inner

/-- The text is an object with these members, with white space around it. -/
def Described (members : List Member) (text : List Char) : Prop :=
  ∃ before object after, Blank before ∧ ObjectOf Member.name Member.Writes members object ∧
    Blank after ∧ text = before ++ object ++ after

end Config

/-! ## Reading a dialect -/

namespace Dialect

/-- What a member changes. -/
def Member.put : Member → Dialect → Dialect
  | .switch .logic value => fun dialect => { dialect with logicResetsFlag := value }
  | .switch .shift value => fun dialect => { dialect with shiftUsesVy := value }
  | .switch .transfer value => fun dialect => { dialect with transferMovesIndex := value }
  | .other _ => id

/-- What reading the members of a dialect comes to. -/
def reading (members : List Member) : Except String Dialect :=
  collect keys Member.name (fun member => .ok member.put) [] classic members

lemma faithful : Faithful shape.fields Member.name Member.Writes fun member => .ok member.put := by
  intro seen member text h
  cases member with
  | switch switch value =>
    have hread : Yields readBool text (.ok value) := yields_readBool h
    right
    cases switch with
    | logic =>
      refine .field rfl ?_
      exact hread.into _
    | shift =>
      refine .field rfl ?_
      exact hread.into _
    | transfer =>
      refine .field rfl ?_
      exact hread.into _
  | other name => exact seen_or_conveys h.1 h.2

lemma yields_reader {members : List Member} {text : List Char}
    (h : ObjectOf Member.name Member.Writes members text) :
    Yields reader text (reading members) :=
  yields_readRecord faithful h classic

lemma repeats_of_reading {members : List Member} {name : String}
    (h : reading members = .error name) : Repeats name members := by
  rcases collect_error h with ⟨hmet, -⟩ | htwice | ⟨member, -, hfails⟩
  · cases hmet
  · exact htwice
  · cases hfails

/-- A dialect that is read has every switch as its members set it, since none is named twice. -/
lemma given_of_reading {members : List Member} {dialect : Dialect}
    (h : reading members = .ok dialect) :
    dialect = given members ∧ ∀ name, ¬Repeats name members := by
  have hput : ∀ (member : Member) change,
      (.ok member.put : Except String (Dialect → Dialect)) = .ok change → change = member.put := by
    rintro member _ ⟨⟩
    rfl
  obtain ⟨-, htwice, -, hvalue⟩ := collect_ok hput h
  have hswitch (switch : Switch) : dialect.isOn switch = setting members switch := by
    rw [hvalue]
    refine get_foldl (fun dialect : Dialect => dialect.isOn switch) (Member.sets switch) ?_ ?_
      (htwice switch.key (by cases switch <;> decide))
    · intro member dialect
      rcases member with ⟨s, value⟩ | name
      · cases s <;> cases switch <;> rfl
      · rfl
    · intro member hsets
      rcases member with ⟨s, value⟩ | name
      · by_cases hs : s = switch
        · exact congrArg Switch.key hs
        · simp [Member.sets, hs] at hsets
      · cases hsets
  refine ⟨?_, fun name hrepeats => htwice name hrepeats.1 hrepeats.2⟩
  rw [given, ← hswitch, ← hswitch, ← hswitch]
  rfl

end Dialect

/-! ## Reading settings -/

namespace Config

/-- What a member changes, or the switch that is named twice in it. -/
def Member.outcome : Member → Except String (Config → Config)
  | .dialect members =>
    (Dialect.reading members).map fun dialect config => { config with dialect := dialect }
  | .rate n => .ok fun config => { config with rate := n }
  | .seed s => .ok fun config => { config with seed := s }
  | .other _ => .ok id

/-- What a member changes if nothing is named twice in it. -/
def Member.put : Member → Config → Config
  | .dialect members => fun config => { config with dialect := Dialect.given members }
  | .rate n => fun config => { config with rate := n }
  | .seed s => fun config => { config with seed := s }
  | .other _ => id

/-- What reading the members of settings comes to. -/
def reading (members : List Member) : Except String Config :=
  collect keys Member.name Member.outcome [] standard members

lemma Member.reading_of_outcome_ok {inner : List Dialect.Member} {change : Config → Config}
    (h : (Member.dialect inner).outcome = .ok change) :
    ∃ dialect, Dialect.reading inner = .ok dialect ∧
      change = fun config => { config with dialect := dialect } := by
  cases hreading : Dialect.reading inner with
  | error name => simp [outcome, hreading, Except.map] at h
  | ok dialect =>
    simp only [outcome, hreading, Except.map, Except.ok.injEq] at h
    exact ⟨dialect, rfl, h.symm⟩

lemma Member.reading_of_outcome_error {inner : List Dialect.Member} {name : String}
    (h : (Member.dialect inner).outcome = .error name) : Dialect.reading inner = .error name := by
  cases hreading : Dialect.reading inner with
  | error repeated => simpa [outcome, hreading, Except.map] using h
  | ok dialect => simp [outcome, hreading, Except.map] at h

lemma Member.eq_put_of_outcome {member : Member} {change : Config → Config}
    (h : member.outcome = .ok change) : change = member.put := by
  cases member with
  | dialect inner =>
    obtain ⟨dialect, hreading, rfl⟩ := reading_of_outcome_ok h
    rw [(Dialect.given_of_reading hreading).1]
    rfl
  | rate n =>
    cases h
    rfl
  | seed s =>
    cases h
    rfl
  | other name =>
    cases h
    rfl

lemma faithful : Faithful shape.fields Member.name Member.Writes Member.outcome := by
  intro seen member text h
  cases member with
  | dialect members =>
    right
    refine .field rfl ?_
    exact (Dialect.yields_reader h).into _
  | rate n =>
    right
    refine .field rfl ?_
    -- Within its bounds, a number is the same as the machine word made of it.
    have hread := (yields_readWhole "u32" h n.toNat_lt (by decide)).into fun value config =>
      ({ config with rate := UInt32.ofNat value } : Config)
    simpa [Except.map, Member.outcome] using hread
  | seed s =>
    right
    refine .field rfl ?_
    cases s with
    | none =>
      obtain rfl : text = _ := h
      exact (yields_readNullable_null _).into _
    | some n =>
      have hread := (yields_readNullable_whole "u64" h n.toNat_lt (by decide)).into
        fun value config => ({ config with seed := value.map UInt64.ofNat } : Config)
      simpa [Except.map, Member.outcome] using hread
  | other name => exact seen_or_conveys h.1 h.2

lemma repeats_of_reading {members : List Member} {name : String}
    (h : reading members = .error name) : Repeats name members := by
  rcases collect_error h with ⟨hmet, -⟩ | htwice | ⟨member, hmember, hfails⟩
  · cases hmet
  · exact .inl htwice
  · cases member with
    | dialect inner =>
      have hreading := Member.reading_of_outcome_error hfails
      exact .inr ⟨inner, hmember, Dialect.repeats_of_reading hreading⟩
    | rate n => cases hfails
    | seed s => cases hfails
    | other name => cases hfails

/-- Settings that are read are what their members give, since none of them is named twice. -/
lemma given_of_reading {members : List Member} {config : Config}
    (h : reading members = .ok config) :
    config = given members ∧ ∀ name, ¬Repeats name members := by
  obtain ⟨-, htwice, houtcomes, hvalue⟩ :=
    collect_ok (fun _ _ hchange => Member.eq_put_of_outcome hchange) h
  have hfield {β : Type} (get : Config → β) (pick : Member → Option β) {key : String}
      (hknown : key ∈ keys)
      (hget : ∀ member config, get (Member.put member config) = (pick member).getD (get config))
      (hkey : ∀ member, (pick member).isSome → member.name = key) :
      get config = (members.findSome? pick).getD (get standard) := by
    rw [hvalue]
    exact get_foldl get pick hget hkey (htwice key hknown)
  have hdialect : config.dialect = (given members).dialect := by
    refine hfield Config.dialect Member.dialect? (by decide : "quirks" ∈ keys) ?_ ?_
    · rintro ⟨⟩ config <;> rfl
    · rintro ⟨⟩ hsome <;> first | rfl | cases hsome
  have hrate : config.rate = (given members).rate := by
    refine hfield Config.rate Member.rate? (by decide : "instructions_per_second" ∈ keys) ?_ ?_
    · rintro ⟨⟩ config <;> rfl
    · rintro ⟨⟩ hsome <;> first | rfl | cases hsome
  have hseed : config.seed = (given members).seed := by
    refine hfield Config.seed Member.seed? (by decide : "seed" ∈ keys) ?_ ?_
    · rintro ⟨⟩ config <;> rfl
    · rintro ⟨⟩ hsome <;> first | rfl | cases hsome
  refine ⟨?_, ?_⟩
  · calc
      config = ⟨config.dialect, config.rate, config.seed⟩ := rfl
      _ = given members := by rw [hdialect, hrate, hseed]
  · rintro name (⟨hknown, hduplicate⟩ | ⟨inner, hinner, hrepeats⟩)
    · exact htwice name hknown hduplicate
    · obtain ⟨dialect, hreading, -⟩ := Member.reading_of_outcome_ok (houtcomes _ hinner)
      exact (Dialect.given_of_reading hreading).2 name hrepeats

/-- Reading a description comes to what reading its members comes to. -/
lemma ofJson_of_described {members : List Member} {text : String}
    (h : Described members text.toList) :
    (∀ config, reading members = .ok config → ofJson text = .ok config) ∧
      ∀ name, reading members = .error name →
        ∃ failure, ofJson text = .error failure ∧ failure.error = .duplicateField name := by
  obtain ⟨before, object, after, hbefore, hobject, hafter, htext⟩ := h
  have hread := readAll_of_yields hbefore hafter (yields_readRecord faithful hobject standard)
  rw [← htext] at hread
  exact hread

lemma ofJson_eq_given {members : List Member} {text : String} (h : Described members text.toList)
    (hnone : ∀ name, ¬Repeats name members) : ofJson text = .ok (given members) := by
  cases hreading : reading members with
  | ok config =>
    obtain ⟨rfl, -⟩ := given_of_reading hreading
    exact (ofJson_of_described h).1 _ hreading
  | error name => exact absurd (repeats_of_reading hreading) (hnone name)

lemma ofJson_eq_error {members : List Member} {text : String} (h : Described members text.toList)
    (hsome : ∃ name, Repeats name members) :
    ∃ name failure, Repeats name members ∧ ofJson text = .error failure ∧
      failure.error = .duplicateField name := by
  cases hreading : reading members with
  | ok config =>
    obtain ⟨name, hrepeats⟩ := hsome
    exact absurd hrepeats ((given_of_reading hreading).2 name)
  | error name =>
    obtain ⟨failure, hfailure, hname⟩ := (ofJson_of_described h).2 name hreading
    exact ⟨name, failure, repeats_of_reading hreading, hfailure, hname⟩

/-- Whatever settings a description names take the place of the standard ones, in whatever order it
names them and whatever else it says, unless it names one of them twice. -/
theorem given_settings_replace_standard (members : List Member) (text : String)
    (h : Described members text.toList) :
    ((∀ name, ¬Repeats name members) → ofJson text = .ok (given members)) ∧
      ((∃ name, Repeats name members) →
        ∃ name failure, Repeats name members ∧ ofJson text = .error failure ∧
          failure.error = .duplicateField name) :=
  ⟨ofJson_eq_given h, ofJson_eq_error h⟩

/-- A seed, something else, and a switch. -/
def shuffled : List Member := [.seed (some 7), .other "x", .dialect [.switch .shift false]]

/-- A text that says so. -/
def shuffledText : String :=
  "\x7b \"seed\":7,\"x\":[null,\x7b\"a\":-1.5\x7d],\"quirks\":\x7b\"shift_uses_vy\":false\x7d \x7d"

lemma described_shuffled : Described shuffled shuffledText.toList := by
  have hnone : Blank [] := by decide
  have hspace : Blank [' '] := by decide
  have hseed : WholeNumber 7 ['7'] := by decide
  have hnumber : Numeral _ :=
    .intro (.inr rfl) (by decide : Whole ['1']) (.given (by decide : Digits ['5'])) .absent
  have hname : Quoted _ := ⟨['a'], .plain (by decide) .nil, rfl⟩
  have hother : Derives .value _ :=
    .list (.elements hnone .null hnone (.element hnone
      (.object (.member hnone hname hnone hnone (.number hnumber) hnone)) hnone))
  have hdialect : ObjectOf Dialect.Member.name Dialect.Member.Writes [.switch .shift false] _ :=
    .members (.last hnone (named_quote (by decide)) hnone hnone .false hnone)
  exact ⟨[], _, [], hnone, .members
    (.more hspace (named_quote (by decide)) hnone hnone hseed hnone
    (.more hnone (named_quote (by decide)) hnone hnone ⟨by decide, hother⟩ hnone
    (.last hnone (named_quote (by decide)) hnone hnone hdialect hspace))), hnone, by decide⟩

lemma not_repeats_shuffled (name : String) : ¬Repeats name shuffled := by
  rintro (⟨-, htwice⟩ | ⟨inner, hinner, -, htwice⟩)
  · exact htwice.not_nodup (by decide)
  · have hdialect : inner = [.switch .shift false] := by simpa [shuffled] using hinner
    rw [hdialect] at htwice
    exact htwice.not_nodup (by decide)

/-- No seed, and then another seed, spelt in another way and with a value that is none. -/
def twice : List Member := [.seed none, .other "seed"]

/-- A text that says so. -/
def twiceText : String := "\x7b\"seed\":null,\"\\u0073eed\":[]\x7d"

lemma described_twice : Described twice twiceText.toList := by
  have hnone : Blank [] := by decide
  have hname : Named "seed" _ :=
    ⟨['\\', 'u', '0', '0', '7', '3', 'e', 'e', 'd'],
      .unit (rfl : codeUnit? '0' '0' '7' '3' = some 0x73) (by decide) (spells_self (by decide)),
      rfl⟩
  exact ⟨[], _, [], hnone, .members
    (.more hnone (named_quote (by decide)) hnone hnone rfl hnone
    (.last hnone hname hnone hnone ⟨by decide, .emptyList hnone⟩ hnone)), hnone, by decide⟩

lemma repeats_twice : Repeats "seed" twice :=
  .inl ⟨by decide, by decide⟩

theorem given_settings_replace_standard_shuffled :
    (Described shuffled shuffledText.toList ∧ (∀ name, ¬Repeats name shuffled) ∧
      ofJson shuffledText = .ok ⟨⟨true, false, true⟩, 700, some 7⟩) ∧
    Described twice twiceText.toList ∧ Repeats "seed" twice ∧
      ∃ name failure, Repeats name twice ∧ ofJson twiceText = .error failure ∧
        failure.error = .duplicateField name :=
  ⟨⟨described_shuffled, not_repeats_shuffled,
      (given_settings_replace_standard shuffled shuffledText described_shuffled).1
        not_repeats_shuffled⟩,
    described_twice, repeats_twice,
      (given_settings_replace_standard twice twiceText described_twice).2 ⟨"seed", repeats_twice⟩⟩

end Config

end ChipVm
