/-
# Hexadecimal numbers written and read back

What a hexadecimal digit is, and what it is worth, is said by the three ranges that the digits
come from (`HexDigit`); reading a character takes exactly those (`hexValue?_eq_some_iff`).

The digits of a number are read back as that number, and zeros in front do not change it, so that
a number that is written to any least width is read as itself (`hexNumber?_hex`).
-/
import Mathlib.Tactic.Lemma
import ChipVm.Text.Hex

namespace ChipVm.Text

/-! ## Digits -/

/-- `c` is a hexadecimal digit of either case that is worth `value`. -/
def HexDigit (c : Char) (value : Nat) : Prop :=
  ('0' ≤ c ∧ c ≤ '9' ∧ value = c.toNat - '0'.toNat) ∨
  ('A' ≤ c ∧ c ≤ 'F' ∧ value = c.toNat - 'A'.toNat + 10) ∨
  ('a' ≤ c ∧ c ≤ 'f' ∧ value = c.toNat - 'a'.toNat + 10)

instance (c : Char) (value : Nat) : Decidable (HexDigit c value) :=
  inferInstanceAs (Decidable (_ ∨ _ ∨ _))

lemma hexDigit_of_hexValue? {c : Char} {value : Fin 16} (h : hexValue? c = some value) :
    HexDigit c value.val := by
  unfold hexValue? at h
  split at h <;> cases h <;> decide

lemma hexValue?_of_hexDigit {c : Char} {value : Nat} (h : HexDigit c value) :
    (hexValue? c).map Fin.val = some value := by
  -- each range is gone through code point by code point
  have hdecimal : ∀ n < 58, 48 ≤ n →
      (hexValue? (Char.ofNat n)).map Fin.val = some (n - 48) := by decide
  have hupper : ∀ n < 71, 65 ≤ n →
      (hexValue? (Char.ofNat n)).map Fin.val = some (n - 65 + 10) := by decide
  have hlower : ∀ n < 103, 97 ≤ n →
      (hexValue? (Char.ofNat n)).map Fin.val = some (n - 97 + 10) := by decide
  rcases h with ⟨hlow, hhigh, rfl⟩ | ⟨hlow, hhigh, rfl⟩ | ⟨hlow, hhigh, rfl⟩
  · simpa using hdecimal c.toNat (Nat.lt_succ_of_le hhigh) hlow
  · simpa using hupper c.toNat (Nat.lt_succ_of_le hhigh) hlow
  · simpa using hlower c.toNat (Nat.lt_succ_of_le hhigh) hlow

lemma hexValue?_eq_some_iff {c : Char} {value : Nat} :
    (hexValue? c).map Fin.val = some value ↔ HexDigit c value := by
  constructor
  · intro h
    obtain ⟨digit, hdigit, rfl⟩ := Option.map_eq_some_iff.1 h
    exact hexDigit_of_hexValue? hdigit
  · exact hexValue?_of_hexDigit

/-! ## Runs of digits -/

lemma hexFrom?_append (n : Nat) (first second : List Char) :
    hexFrom? n (first ++ second) = (hexFrom? n first).bind fun m => hexFrom? m second := by
  induction first generalizing n with
  | nil => rfl
  | cons c first ih =>
    rw [List.cons_append, hexFrom?, hexFrom?]
    cases hexValue? c with
    | none => rfl
    | some value => exact ih (16 * n + value.val)

/-- Zeros in front do not count. -/
lemma hexFrom?_zeros (count : Nat) (digits : List Char) :
    hexFrom? 0 (List.replicate count '0' ++ digits) = hexFrom? 0 digits := by
  induction count with
  | zero => rfl
  | succ count ih => exact ih

lemma hexFrom?_digit {n : Nat} (m : Nat) (h : n < 16) :
    hexFrom? m [n.digitChar.toUpper] = some (16 * m + n) := by
  have hvalue : ∀ n < 16, (hexValue? n.digitChar.toUpper).map Fin.val = some n := by decide
  obtain ⟨value, hread, rfl⟩ := Option.map_eq_some_iff.1 (hvalue n h)
  rw [hexFrom?, hread]
  rfl

lemma hexFrom?_hexDigits (n : Nat) : hexFrom? 0 (hexDigits n) = some n := by
  -- The last digit of `n` follows on those of `n / 16`, down to a number of one digit.
  induction n using Nat.strongRecOn with
  | ind n ih =>
    by_cases hsmall : n < 16
    · rw [hexDigits, Nat.toDigits_of_lt_base hsmall]
      simpa using hexFrom?_digit 0 hsmall
    · have hdigits : hexDigits n = hexDigits (n / 16) ++ [(n % 16).digitChar.toUpper] := by
        rw [hexDigits, Nat.toDigits_of_base_le (by decide) (Nat.le_of_not_lt hsmall)]
        simp [hexDigits]
      rw [hdigits, hexFrom?_append, ih (n / 16) (by omega), Option.bind_some,
        hexFrom?_digit _ (Nat.mod_lt n (by decide)), Nat.div_add_mod]

lemma hexFrom?_hex (width n : Nat) : hexFrom? 0 (hex width n).toList = some n := by
  rw [hex, String.toList_ofList, List.leftpad, hexFrom?_zeros, hexFrom?_hexDigits]

lemma length_hex (width n : Nat) :
    (hex width n).toList.length = max width (Nat.toDigits 16 n).length := by
  rw [hex, String.toList_ofList, List.length_leftpad, hexDigits, List.length_map]

/-- A number is read back from the digits that write it, whatever the least width. -/
lemma hexNumber?_hex (width n : Nat) : hexNumber? (hex width n).toList = some n := by
  have hne : (hex width n).toList ≠ [] := by
    rw [← List.length_pos_iff, length_hex]
    exact Nat.lt_of_lt_of_le Nat.length_toDigits_pos (Nat.le_max_right _ _)
  obtain ⟨c, rest, hdigits⟩ := List.exists_cons_of_ne_nil hne
  rw [hdigits, hexNumber?, ← hdigits]
  · exact hexFrom?_hex width n
  · simp

/-- All characters that write a number are digits. -/
lemma exists_hexValue?_of_mem {digits : List Char} {n m : Nat} (h : hexFrom? n digits = some m)
    {c : Char} (hc : c ∈ digits) : ∃ value, hexValue? c = some value := by
  induction digits generalizing n with
  | nil => cases hc
  | cons d digits ih =>
    rw [hexFrom?] at h
    cases hd : hexValue? d with
    | none =>
      rw [hd] at h
      cases h
    | some value =>
      rw [hd] at h
      rcases List.mem_cons.1 hc with rfl | hc
      · exact ⟨value, hd⟩
      · exact ih h hc

end ChipVm.Text
