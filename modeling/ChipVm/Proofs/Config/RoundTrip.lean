/-
# Settings written and read back

The text that is written for some settings is a description of them: it names every setting once,
in order, with no white space (`Config.described_toJson`).  Reading it therefore gives back the
settings it was written for.

The numbers are written by the digits of the library and read digit by digit, so that a number is
written without a superfluous zero, and with the digits that write it (`wholeNumber_repr`).
-/
import ChipVm.Config.Printer
import ChipVm.Proofs.Config.Partial

namespace ChipVm

open Json Json.Grammar

/-! ## Numbers -/

/-- The digits of a number other than zero do not start with a zero. -/
lemma head_toDigits {n : Nat} (h : 0 < n) : (Nat.toDigits 10 n).head? ≠ some '0' := by
  -- The first digit of `n` is that of `n / 10`, down to a number of one digit.
  induction n using Nat.strongRecOn with
  | ind n ih =>
    by_cases hsmall : n < 10
    · rw [Nat.toDigits_of_lt_base hsmall]
      simp only [List.head?_cons, ne_eq, Option.some.injEq, Nat.digitChar_eq_zero]
      omega
    · rw [Nat.toDigits_of_base_le (by decide) (Nat.le_of_not_lt hsmall),
        List.head?_append_of_ne_nil _ Nat.toDigits_ne_nil]
      exact ih (n / 10) (by omega) (by omega)

lemma wholeNumber_repr (n : Nat) : WholeNumber n (toString n).toList := by
  have hdigits : (toString n).toList = Nat.toDigits 10 n := Nat.toList_repr
  rw [hdigits]
  refine ⟨⟨⟨Nat.toDigits_ne_nil, ?_⟩, ?_⟩, Nat.ofDigitChars_ten_toDigits⟩
  · intro c hc
    exact Nat.isDigit_of_mem_toDigits (by decide) (by decide) hc
  · intro hzero
    have hn : n = 0 := Nat.eq_zero_of_not_pos fun hpos => head_toDigits hpos hzero
    rw [hn, Nat.toDigits_zero]
    rfl

/-! ## Objects without white space -/

section

variable {μ : Type} {name : μ → String} {Writes : List String → μ → List Char → Prop}
  {seen : List String} {member : μ} {members : List μ} {key value rest : List Char}

lemma membersOf_last (hkey : Named (name member) key) (hvalue : Writes seen member value) :
    MembersOf name Writes seen [member] (key ++ ':' :: value) := by
  have hblank : Blank [] := by decide
  simpa using MembersOf.last hblank hkey hblank hblank hvalue hblank

lemma membersOf_more (hkey : Named (name member) key) (hvalue : Writes seen member value)
    (hrest : MembersOf name Writes (name member :: seen) members rest) :
    MembersOf name Writes seen (member :: members) (key ++ ':' :: (value ++ ',' :: rest)) := by
  have hblank : Blank [] := by decide
  simpa using MembersOf.more hblank hkey hblank hblank hvalue hblank hrest

end

/-! ## Settings -/

lemma boolean_boolJson (value : Bool) : Boolean value (boolJson value).toList := by
  cases value with
  | true => exact .true
  | false => exact .false

namespace Dialect

/-- What the text of a dialect says. -/
def members (dialect : Dialect) : List Member :=
  [.switch .logic dialect.logicResetsFlag, .switch .shift dialect.shiftUsesVy,
    .switch .transfer dialect.transferMovesIndex]

lemma plain_of_mem_keys : ∀ key ∈ keys, PlainText key.toList := by
  decide

lemma objectOf_toJson (dialect : Dialect) :
    ObjectOf Member.name Member.Writes dialect.members dialect.toJson.toList := by
  have hkey (switch : Switch) : Named switch.key (quote switch.key) :=
    named_quote (plain_of_mem_keys _ (by cases switch <;> decide))
  have htext : dialect.toJson.toList =
      '{' :: ((quote Switch.logic.key ++ ':' :: ((boolJson dialect.logicResetsFlag).toList ++
        ',' :: (quote Switch.shift.key ++ ':' :: ((boolJson dialect.shiftUsesVy).toList ++
        ',' :: (quote Switch.transfer.key ++
          ':' :: (boolJson dialect.transferMovesIndex).toList))))) ++ ['}']) := by
    have hlogic : "\x7b\"logic_resets_flag\":".toList =
        '{' :: (quote Switch.logic.key ++ [':']) := by decide
    have hshift : ",\"shift_uses_vy\":".toList = ',' :: (quote Switch.shift.key ++ [':']) := by
      decide
    have htransfer : ",\"load_store_increments_index\":".toList =
        ',' :: (quote Switch.transfer.key ++ [':']) := by decide
    have hend : "\x7d".toList = ['}'] := by decide
    unfold toJson
    simp only [String.toList_append, hlogic, hshift, htransfer, hend, List.append_assoc,
      List.cons_append, List.nil_append]
  rw [htext]
  exact .members <|
    membersOf_more (hkey .logic) (boolean_boolJson _) <|
    membersOf_more (hkey .shift) (boolean_boolJson _) <|
    membersOf_last (hkey .transfer) (boolean_boolJson _)

lemma not_repeats_members (dialect : Dialect) (name : String) :
    ¬Repeats name dialect.members := by
  rintro ⟨-, htwice⟩
  exact htwice.not_nodup (by decide : keys.Nodup)

end Dialect

namespace Config

/-- What the text of settings says. -/
def members (config : Config) : List Member :=
  [.dialect config.dialect.members, .rate config.rate, .seed config.seed]

lemma writes_seedJson (seen : List String) (seed : Option UInt64) :
    Member.Writes seen (.seed seed) (seedJson seed).toList := by
  cases seed with
  | none => rfl
  | some n => exact wholeNumber_repr n.toNat

lemma plain_of_mem_keys : ∀ key ∈ keys, PlainText key.toList := by
  decide

lemma described_toJson (config : Config) : Described config.members config.toJson.toList := by
  have hkey (key : String) (h : key ∈ keys) : Named key (quote key) :=
    named_quote (plain_of_mem_keys key h)
  have htext : config.toJson.toList =
      '{' :: ((quote "quirks" ++ ':' :: (config.dialect.toJson.toList ++
        ',' :: (quote "instructions_per_second" ++ ':' :: ((toString config.rate.toNat).toList ++
        ',' :: (quote "seed" ++ ':' :: (seedJson config.seed).toList))))) ++ ['}']) := by
    have hdialect : "\x7b\"quirks\":".toList = '{' :: (quote "quirks" ++ [':']) := by decide
    have hrate : ",\"instructions_per_second\":".toList =
        ',' :: (quote "instructions_per_second" ++ [':']) := by decide
    have hseed : ",\"seed\":".toList = ',' :: (quote "seed" ++ [':']) := by decide
    have hend : "\x7d".toList = ['}'] := by decide
    unfold toJson
    simp only [String.toList_append, hdialect, hrate, hseed, hend, List.append_assoc,
      List.cons_append, List.nil_append]
  refine ⟨[], config.toJson.toList, [], by decide, ?_, by decide, by simp⟩
  rw [htext]
  exact .members <|
    membersOf_more (hkey "quirks" (by decide)) config.dialect.objectOf_toJson <|
    membersOf_more (hkey "instructions_per_second" (by decide)) (wholeNumber_repr _) <|
    membersOf_last (hkey "seed" (by decide)) (writes_seedJson _ _)

lemma not_repeats_members (config : Config) (name : String) : ¬Repeats name config.members := by
  rintro (⟨-, htwice⟩ | ⟨inner, hinner, hrepeats⟩)
  · exact htwice.not_nodup (by decide : keys.Nodup)
  · have hdialect : inner = config.dialect.members := by simpa [members] using hinner
    exact config.dialect.not_repeats_members name (hdialect ▸ hrepeats)

lemma ofJson_toJson (config : Config) : ofJson config.toJson = .ok config :=
  ofJson_eq_given config.described_toJson config.not_repeats_members

/-- Settings survive being written and read, whatever they are and wherever they come from. -/
theorem settings_survive_writing :
    (∀ config : Config, ofJson config.toJson = .ok config) ∧
      ∀ text config, ofJson text = .ok config → ofJson config.toJson = .ok config := by
  refine ⟨ofJson_toJson, ?_⟩
  intro text config _
  exact config.ofJson_toJson

/-- The largest rate and the largest seed. -/
def utmost : Config := ⟨⟨false, true, false⟩, 4294967295, some 18446744073709551615⟩

theorem settings_survive_writing_utmost :
    ofJson utmost.toJson = .ok utmost ∧ ofJson shuffledText = .ok (given shuffled) ∧
      ofJson (given shuffled).toJson = .ok (given shuffled) := by
  have hshuffled := ofJson_eq_given described_shuffled not_repeats_shuffled
  exact ⟨settings_survive_writing.1 utmost, hshuffled,
    settings_survive_writing.2 shuffledText (given shuffled) hshuffled⟩

end Config

end ChipVm
