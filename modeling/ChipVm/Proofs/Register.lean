/-
# The names of the registers

A register is named by one hexadecimal digit, which a `V` or `v` may stand in front of
(`Register.Spells`).  The reader is more generous on the way: it takes a hexadecimal number of any
length, with or without a sign, and only then looks whether it took a single byte.  No byte but a
digit is a number, so what it takes in the end are exactly the names
(`Register.parse_eq_ok_iff`), and whatever it refuses it hands back whole.
-/
import ChipVm.Proofs.Text.Hexadecimal
import ChipVm.RegisterFile

namespace ChipVm

open Text (HexDigit)

namespace Register

/-- `text` is one hexadecimal digit worth `value`, or that digit after one `V` or `v`. -/
def Spells (text : String) (value : Nat) : Prop :=
  ∃ c, HexDigit c value ∧
    (text.toList = [c] ∨ text.toList = ['V', c] ∨ text.toList = ['v', c])

/-- The ways to write a register: its name in upper or lower case, with or without the letter. -/
def spellings (x : Register) : List String :=
  let name := x.name.toList
  [name, name.map Char.toLower, name.tail, name.tail.map Char.toLower].map String.ofList

variable {text : String} {x : Register} {c : Char} {value : Nat}

lemma ne_letter_of_hexDigit (h : HexDigit c value) : c ≠ 'V' ∧ c ≠ 'v' := by
  constructor
  · rintro rfl
    rcases h with ⟨-, hhigh, -⟩ | ⟨-, hhigh, -⟩ | ⟨hlow, -, -⟩
    · exact absurd hhigh (by decide)
    · exact absurd hhigh (by decide)
    · exact absurd hlow (by decide)
  · rintro rfl
    rcases h with ⟨-, hhigh, -⟩ | ⟨-, hhigh, -⟩ | ⟨-, hhigh, -⟩
    · exact absurd hhigh (by decide)
    · exact absurd hhigh (by decide)
    · exact absurd hhigh (by decide)

lemma utf8Size_of_hexDigit (h : HexDigit c value) : c.utf8Size = 1 := by
  rw [Char.utf8Size_eq_one_iff]
  have hbound : c ≤ 'f' := by
    rcases h with ⟨-, hhigh, -⟩ | ⟨-, hhigh, -⟩ | ⟨-, hhigh, -⟩
    · exact Char.le_trans hhigh (by decide)
    · exact Char.le_trans hhigh (by decide)
    · exact hhigh
  exact UInt32.le_trans hbound (by decide)

/-- One letter is passed over, and a digit is no letter. -/
lemma withoutLetter_eq_iff (text : List Char) (h : HexDigit c value) :
    withoutLetter text = [c] ↔ text = [c] ∨ text = ['V', c] ∨ text = ['v', c] := by
  obtain ⟨hupper, hlower⟩ := ne_letter_of_hexDigit h
  fun_cases withoutLetter text with
  | case1 rest => simp [hupper.symm]
  | case2 rest => simp [hlower.symm]
  | case3 text hnotUpper hnotLower =>
    constructor
    · exact Or.inl
    · rintro (rfl | rfl | rfl)
      · rfl
      · exact absurd rfl (hnotUpper [c])
      · exact absurd rfl (hnotLower [c])

lemma spells_iff :
    Spells text value ↔ ∃ c, withoutLetter text.toList = [c] ∧ HexDigit c value := by
  refine exists_congr fun c => ?_
  rw [and_comm]
  exact and_congr_left fun h => (withoutLetter_eq_iff text.toList h).symm

/-- A number that is no longer than a byte is a digit. -/
lemma ofDigit?_eq_some_iff {digit : List Char} :
    ofDigit? digit = some x ↔ ∃ c, digit = [c] ∧ HexDigit c x.index.val := by
  constructor
  · intro h
    unfold ofDigit? at h
    split at h
    · cases h
    · rename_i index hread
      split at h
      · rename_i hsize
        cases h
        obtain ⟨c, rfl⟩ := Text.eq_singleton_of_utf8ByteSize hsize
        rw [Text.hexByte?_singleton, Text.hexValue?_eq_some_iff] at hread
        exact ⟨c, rfl, hread⟩
      · cases h
  · rintro ⟨c, rfl, hdigit⟩
    have hvalue : Text.hexByte? [c] = some x.index.val := by
      rw [Text.hexByte?_singleton, Text.hexValue?_eq_some_iff]
      exact hdigit
    have hsize : (String.ofList [c]).utf8ByteSize = 1 := by
      rw [Text.utf8ByteSize_ofList_cons, utf8Size_of_hexDigit hdigit]
      rfl
    unfold ofDigit?
    split
    · rename_i hread
      cases hvalue.symm.trans hread
    · rename_i index hread
      obtain rfl := Option.some.inj (hvalue.symm.trans hread)
      rw [dif_pos hsize]

/-- The reader takes a text exactly if it spells a register, and that is the one it gives. -/
lemma parse_eq_ok_iff : parse text = .ok x ↔ Spells text x.index.val := by
  rw [spells_iff, ← ofDigit?_eq_some_iff, parse]
  cases ofDigit? (withoutLetter text.toList) with
  | none => simp
  | some y => simp

/-- What is refused is handed back as it was. -/
lemma text_of_parse_error {error : ParseError} (h : parse text = .error error) :
    error.text = text := by
  rw [parse] at h
  cases hread : ofDigit? (withoutLetter text.toList) with
  | none =>
    rw [hread] at h
    cases h
    rfl
  | some y =>
    rw [hread] at h
    cases h

lemma lt_of_hexDigit (h : HexDigit c value) : value < registerCount := by
  obtain ⟨digit, -, rfl⟩ := Option.map_eq_some_iff.1 (Text.hexValue?_of_hexDigit h)
  exact digit.isLt

lemma toList_name (x : Register) : x.name.toList = ['V', x.index.val.digitChar.toUpper] := by
  have hdigits : Nat.toDigits 16 x.index.val = [x.index.val.digitChar] :=
    Nat.toDigits_of_lt_base x.index.isLt
  simp [name, Text.hex, Text.hexDigits, hdigits, List.leftpad]

lemma spells_of_mem_spellings (h : text ∈ x.spellings) : Spells text x.index.val := by
  have hdigit : ∀ n < registerCount,
      HexDigit n.digitChar.toUpper n ∧ HexDigit n.digitChar.toUpper.toLower n := by decide
  obtain ⟨hupper, hlower⟩ := hdigit x.index.val x.index.isLt
  have hletter : 'V'.toLower = 'v' := by decide
  simp only [spellings, toList_name, List.map_cons, List.map_nil, List.tail_cons, hletter,
    List.mem_cons, List.not_mem_nil, or_false] at h
  rcases h with rfl | rfl | rfl | rfl
  · exact ⟨_, hupper, by simp⟩
  · exact ⟨_, hlower, by simp⟩
  · exact ⟨_, hupper, by simp⟩
  · exact ⟨_, hlower, by simp⟩

/-- Reading takes exactly the texts that are one hexadecimal digit after at most one letter `V`,
and gives the register with the value of that digit, which there is in every register file;
everything else is refused with the whole text.  Every way to write a register is read as it. -/
theorem reading_takes_exactly_names :
    (∀ text,
      (∀ value, Spells text value → ∃ x, parse text = .ok x ∧ x.index.val = value) ∧
      (∀ x, parse text = .ok x → Spells text x.index.val ∧ x.index.val < registerCount ∧
        ∀ file : RegisterFile, file.v[x.index.val]? = some (file.get x)) ∧
      ∀ error, parse text = .error error → error.text = text) ∧
    ∀ x : Register, ∀ text ∈ x.spellings, parse text = .ok x := by
  refine ⟨fun text => ⟨?_, ?_, ?_⟩, ?_⟩
  · intro value hspells
    have hlt : value < registerCount := by
      obtain ⟨c, hdigit, -⟩ := hspells
      exact lt_of_hexDigit hdigit
    exact ⟨⟨⟨value, hlt⟩⟩, parse_eq_ok_iff.2 hspells, rfl⟩
  · intro x hparse
    refine ⟨parse_eq_ok_iff.1 hparse, x.index.isLt, fun file => ?_⟩
    exact Vector.getElem?_eq_getElem x.index.isLt
  · intro error hparse
    exact text_of_parse_error hparse
  · intro x text hmem
    exact parse_eq_ok_iff.2 (spells_of_mem_spellings hmem)

/-- A small letter and a small digit name a register.  A sign in front of a digit is refused, and
so are two digits, although both are numbers. -/
theorem reading_takes_exactly_names_signed :
    parse "vf" = .ok vf ∧
    Text.hexByte? ['+', '1'] = some 1 ∧ parse "V+1" = .error ⟨"V+1"⟩ ∧
    Text.hexByte? ['1', '0'] = some 16 ∧ parse "V10" = .error ⟨"V10"⟩ := by
  have hlong : ∀ text : String, 2 < text.toList.length → parse text = .error ⟨text⟩ := by
    intro text hlength
    obtain ⟨-, hok, herror⟩ := reading_takes_exactly_names.1 text
    cases hparse : parse text with
    | ok x =>
      obtain ⟨⟨c, -, htext⟩, -⟩ := hok x hparse
      rcases htext with h | h | h <;> simp [h] at hlength
    | error error => rw [← herror error hparse]
  exact ⟨reading_takes_exactly_names.2 vf "vf" (by decide), by decide, hlong _ (by decide),
    by decide, hlong _ (by decide)⟩

end Register

end ChipVm
