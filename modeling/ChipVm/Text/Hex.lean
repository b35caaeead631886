/-
# Hexadecimal text

Numbers are written in upper-case hexadecimal, padded with zeros to a least width and longer
where the number needs it.  Runs of bytes are written in lower case, two digits each.  Digits are
read in either case.
-/

namespace ChipVm.Text

/-- The upper-case hexadecimal digits of `n`, most significant first, without leading zeros. -/
def hexDigits (n : Nat) : List Char :=
  (Nat.toDigits 16 n).map Char.toUpper

/-- `n` in upper-case hexadecimal with at least `width` digits. -/
def hex (width n : Nat) : String :=
  String.ofList ((hexDigits n).leftpad width '0')

/-- `n` as a hexadecimal literal: `0x` and then at least `width` digits. -/
def hexLiteral (width n : Nat) : String :=
  "0x" ++ hex width n

/-- The two lower-case hexadecimal digits of a byte. -/
def byteDigits (b : UInt8) : List Char :=
  [Nat.digitChar (b.toNat / 16), Nat.digitChar (b.toNat % 16)]

/-- A run of bytes in lower-case hexadecimal, two digits for each byte. -/
def hexBytes (bytes : List UInt8) : String :=
  String.ofList (bytes.flatMap byteDigits)

/-- The value of a hexadecimal digit of either case. -/
def hexValue? (c : Char) : Option (Fin 16) :=
  match c with
  | '0' => some ⟨0x0, by decide⟩ | '1' => some ⟨0x1, by decide⟩
  | '2' => some ⟨0x2, by decide⟩ | '3' => some ⟨0x3, by decide⟩
  | '4' => some ⟨0x4, by decide⟩ | '5' => some ⟨0x5, by decide⟩
  | '6' => some ⟨0x6, by decide⟩ | '7' => some ⟨0x7, by decide⟩
  | '8' => some ⟨0x8, by decide⟩ | '9' => some ⟨0x9, by decide⟩
  | 'a' | 'A' => some ⟨0xA, by decide⟩ | 'b' | 'B' => some ⟨0xB, by decide⟩
  | 'c' | 'C' => some ⟨0xC, by decide⟩ | 'd' | 'D' => some ⟨0xD, by decide⟩
  | 'e' | 'E' => some ⟨0xE, by decide⟩ | 'f' | 'F' => some ⟨0xF, by decide⟩
  | _ => none

/-- The number that `n` grows to with each further hexadecimal digit. -/
def hexFrom? (n : Nat) : List Char → Option Nat
  | [] => some n
  | c :: rest =>
    match hexValue? c with
    | none => none
    | some value => hexFrom? (16 * n + value.val) rest

/-- The number that a run of hexadecimal digits writes; there has to be at least one. -/
def hexNumber? : List Char → Option Nat
  | [] => none
  | digits => hexFrom? 0 digits

/-- A number below 2^8 in hexadecimal, with any number of digits.  A plus sign may stand in
front. -/
def hexByte? (text : List Char) : Option Nat :=
  match text with
  | '+' :: digits => (hexNumber? digits).filter (· < UInt8.size)
  | digits => (hexNumber? digits).filter (· < UInt8.size)

theorem utf8ByteSize_ofList_cons (c : Char) (rest : List Char) :
    (String.ofList (c :: rest)).utf8ByteSize
      = c.utf8Size + (String.ofList rest).utf8ByteSize := by
  have happend : String.ofList (c :: rest) = String.singleton c ++ String.ofList rest := by
    simp
  rw [happend, String.utf8ByteSize_append, String.utf8ByteSize_singleton]

/-- A text of one byte is a single character. -/
theorem eq_singleton_of_utf8ByteSize {text : List Char}
    (h : (String.ofList text).utf8ByteSize = 1) : ∃ c, text = [c] := by
  cases text with
  | nil => cases h
  | cons c rest =>
    cases rest with
    | nil => exact ⟨c, rfl⟩
    | cons d rest =>
      rw [utf8ByteSize_ofList_cons, utf8ByteSize_ofList_cons] at h
      have hc := c.utf8Size_pos
      have hd := d.utf8Size_pos
      omega

/-- A single character is read as the digit that it is; a sign alone is no number. -/
theorem hexByte?_singleton (c : Char) : hexByte? [c] = (hexValue? c).map Fin.val := by
  by_cases hsign : c = '+'
  · subst hsign
    decide
  · have hplain : hexByte? [c] = (hexFrom? 0 [c]).filter (· < UInt8.size) := by
      simp [hexByte?, hexNumber?, hsign]
    rw [hplain, hexFrom?]
    cases hexValue? c with
    | none => rfl
    | some value =>
      have hfits : value.val < UInt8.size := Nat.lt_trans value.isLt (by decide)
      simp only [hexFrom?, Nat.mul_zero, Nat.zero_add, Option.filter, hfits, decide_true, if_true,
        Option.map_some]

/-- A number that one byte writes is a digit. -/
theorem lt_of_hexByte? {text : List Char} {n : Nat} (h : hexByte? text = some n)
    (hsize : (String.ofList text).utf8ByteSize = 1) : n < 16 := by
  obtain ⟨c, rfl⟩ := eq_singleton_of_utf8ByteSize hsize
  obtain ⟨value, -, rfl⟩ := Option.map_eq_some_iff.1 ((hexByte?_singleton c).symm.trans h)
  exact value.isLt

end ChipVm.Text
