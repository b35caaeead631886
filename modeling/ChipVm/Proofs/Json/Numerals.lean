/-
# Numbers among the tokens

A number goes on for as long as a character can continue it, so where it ends depends on what
follows.  Nothing that may follow a value continues a number (`Stops`), and in front of such a text
the parts of a number are found one by one where the grammar has them: the whole number becomes a
single token without a flaw (`toks_numeral`).

A plain whole number below 2^64 is read digit by digit without loss (`toks_wholeNumber`).
-/
import ChipVm.Proofs.Json.Tokens

namespace ChipVm.Json

open Grammar

variable {text rest : List Char} {bytes after : List UInt8}

/-! ## What may follow -/

/-- Does not go on with a number: nothing, or a text that starts with white space or with what may
follow a value. -/
def Stops (rest : List Char) : Prop :=
  ∀ c, rest.head? = some c → c ∈ [' ', '\t', '\n', '\r', ',', ']', '}']

lemma stops_nil : Stops [] := by
  intro c hc
  cases hc

lemma stops_cons {c : Char} (h : c ∈ [' ', '\t', '\n', '\r', ',', ']', '}']) (rest : List Char) :
    Stops (c :: rest) := by
  intro d hd
  cases hd
  exact h

lemma Stops.blank_append {blank : List Char} (h : Stops rest) (hblank : Blank blank) :
    Stops (blank ++ rest) := by
  cases blank with
  | nil => exact h
  | cons c blank =>
    refine stops_cons ?_ _
    rcases hblank c List.mem_cons_self with rfl | rfl | rfl | rfl <;> decide

/-- The byte does not continue a number. -/
def StopByte (byte : UInt8) : Prop :=
  isDigit byte = false ∧ byte ≠ 0x2E ∧ byte ≠ 0x65 ∧ byte ≠ 0x45

lemma Stops.stopByte (h : Stops rest) {byte : UInt8} (hbyte : (encode rest).head? = some byte) :
    StopByte byte := by
  cases rest with
  | nil => cases hbyte
  | cons c rest =>
    have hc := h c rfl
    simp only [List.mem_cons, List.not_mem_nil, or_false] at hc
    rcases hc with rfl | rfl | rfl | rfl | rfl | rfl | rfl <;>
    · rw [encode_cons_ascii (by decide)] at hbyte
      cases hbyte
      exact ⟨by decide, by decide, by decide, by decide⟩

/-! ## Digits -/

lemma toNat_of_isDigit {c : Char} (h : c.isDigit = true) : 0x30 ≤ c.toNat ∧ c.toNat ≤ 0x39 :=
  Char.isDigit_iff_toNat.1 h

lemma ascii_of_isDigit {c : Char} (h : c.isDigit = true) : c.toNat < 0x80 :=
  Nat.lt_of_le_of_lt (toNat_of_isDigit h).2 (by decide)

lemma isDigit_byteOf {c : Char} (h : c.isDigit = true) : isDigit (byteOf c) = true := by
  obtain ⟨hlow, hhigh⟩ := toNat_of_isDigit h
  simp only [isDigit, UInt8.le_iff_toNat_le, toNat_byteOf (ascii_of_isDigit h),
    UInt8.reduceToNat, Bool.and_eq_true, decide_eq_true_eq]
  exact ⟨hlow, hhigh⟩

/-- Digits take one byte each. -/
lemma encode_digits (h : ∀ c ∈ text, c.isDigit = true) : encode text = text.map byteOf := by
  induction text with
  | nil => rfl
  | cons c text ih =>
    rw [encode_cons_ascii (ascii_of_isDigit (h c List.mem_cons_self)), List.map_cons,
      ih fun d hd => h d (List.mem_cons_of_mem c hd)]

lemma exists_encode_digits {digits : List Char} (h : Digits digits) :
    ∃ byte tail, encode digits = byte :: tail ∧ isDigit byte = true := by
  obtain ⟨hne, hdigits⟩ := h
  obtain ⟨c, digits, rfl⟩ := List.exists_cons_of_ne_nil hne
  have hc := hdigits c List.mem_cons_self
  exact ⟨byteOf c, encode digits, encode_cons_ascii (ascii_of_isDigit hc) digits, isDigit_byteOf hc⟩

lemma scanDigits_digits {digits : List Char} (h : Digits digits)
    (hafter : ∀ byte, after.head? = some byte → isDigit byte = false) :
    scanDigits (encode digits ++ after) = .ok (encode digits, after) := by
  have hall : ∀ byte ∈ encode digits, isDigit byte = true := by
    rw [encode_digits h.2]
    intro byte hbyte
    obtain ⟨c, hc, rfl⟩ := List.mem_map.1 hbyte
    exact isDigit_byteOf (h.2 c hc)
  have hnone : after.takeWhile isDigit = [] ∧ after.dropWhile isDigit = after := by
    cases after with
    | nil => exact ⟨rfl, rfl⟩
    | cons byte after => simp [hafter byte rfl]
  have htake : (encode digits ++ after).takeWhile isDigit = encode digits := by
    rw [List.takeWhile_append_of_pos hall, hnone.1, List.append_nil]
  have hdrop : (encode digits ++ after).dropWhile isDigit = after := by
    rw [List.dropWhile_append_of_pos hall, hnone.2]
  obtain ⟨byte, tail, hencode, -⟩ := exists_encode_digits h
  rw [scanDigits, htake, hdrop, hencode]

lemma scanWhole_whole {whole : List Char} (h : Whole whole)
    (hafter : ∀ byte, after.head? = some byte → isDigit byte = false) :
    scanWhole (encode whole ++ after) = .ok (encode whole, after) := by
  obtain ⟨hdigits, hzero⟩ := h
  have hsingle : ¬((encode whole).head? = some 0x30 ∧ 1 < (encode whole).length) := by
    rintro ⟨hhead, hlong⟩
    rw [encode_digits hdigits.2] at hhead hlong
    cases whole with
    | nil => cases hhead
    | cons c whole =>
      have hc := hdigits.2 c List.mem_cons_self
      have hnat : c.toNat = '0'.toNat := by
        rw [← toNat_byteOf (ascii_of_isDigit hc)]
        simp only [List.map_cons, List.head?_cons, Option.some.injEq] at hhead
        rw [hhead]
        rfl
      have hlength := hzero (congrArg some (Char.toNat_inj.1 hnat))
      rw [List.length_map] at hlong
      omega
  rw [scanWhole, scanDigits_digits hdigits hafter]
  exact if_neg hsingle

/-! ## Fractions and exponents -/

lemma scanFraction_absent (h : ∀ byte, after.head? = some byte → byte ≠ 0x2E) :
    scanFraction after = .ok (none, after) := by
  unfold scanFraction
  split
  · exact absurd rfl (h _ rfl)
  · rfl

lemma scanFraction_fraction {fraction : List Char} (h : Fraction fraction)
    (hafter : ∀ byte, after.head? = some byte → isDigit byte = false ∧ byte ≠ 0x2E) :
    ∃ read, scanFraction (encode fraction ++ after) = .ok (read, after) := by
  cases h with
  | absent => exact ⟨none, scanFraction_absent fun byte hbyte => (hafter byte hbyte).2⟩
  | @given digits hdigits =>
    refine ⟨some (encode digits), ?_⟩
    have hscan := scanDigits_digits hdigits fun byte hbyte => (hafter byte hbyte).1
    have hpoint : byteOf '.' = 0x2E := rfl
    rw [encode_cons_ascii (by decide), hpoint, List.cons_append]
    simp only [scanFraction, hscan]

lemma scanExponent_absent (h : ∀ byte, after.head? = some byte → byte ≠ 0x65 ∧ byte ≠ 0x45) :
    scanExponent after = .ok (none, after) := by
  cases after with
  | nil => rfl
  | cons byte after =>
    obtain ⟨hlower, hupper⟩ := h byte rfl
    rw [scanExponent, if_neg (by simp [hlower, hupper])]

lemma scanSign_sign {sign digits : List Char} (hsign : sign = [] ∨ sign = ['+'] ∨ sign = ['-'])
    (h : Digits digits) :
    (scanSign (encode (sign ++ digits) ++ after)).2 = encode digits ++ after := by
  rcases hsign with rfl | rfl | rfl
  · obtain ⟨byte, tail, hencode, hdigit⟩ := exists_encode_digits h
    rw [List.nil_append, hencode, List.cons_append]
    unfold scanSign
    split
    · cases ‹byte :: _ = _›
      cases hdigit
    · cases ‹byte :: _ = _›
      cases hdigit
    · rfl
  · rw [List.singleton_append, encode_cons_ascii (by decide)]
    rfl
  · rw [List.singleton_append, encode_cons_ascii (by decide)]
    rfl

lemma scanExponent_exponent {exponent : List Char} (h : Exponent exponent)
    (hafter : ∀ byte, after.head? = some byte → StopByte byte) :
    ∃ read, scanExponent (encode exponent ++ after) = .ok (read, after) := by
  cases h with
  | absent => exact ⟨none, scanExponent_absent fun byte hbyte => (hafter byte hbyte).2.2⟩
  | @given letter sign digits hletter hsign hdigits =>
    have hascii : letter.toNat < 0x80 := by rcases hletter with rfl | rfl <;> decide
    have hbyte : byteOf letter = 0x65 ∨ byteOf letter = 0x45 := by
      rcases hletter with rfl | rfl <;> decide
    have hscan := scanDigits_digits hdigits fun byte hbyte => (hafter byte hbyte).1
    rw [encode_cons_ascii hascii, List.cons_append, scanExponent, if_pos hbyte,
      scanSign_sign hsign hdigits, hscan]
    exact ⟨_, rfl⟩

/-! ## Numbers -/

lemma scanMinus_of_ne {byte : UInt8} (h : byte ≠ 0x2D) (bytes : List UInt8) :
    scanMinus (byte :: bytes) = (false, byte :: bytes) := by
  unfold scanMinus
  split
  · cases ‹byte :: _ = _›
    exact absurd rfl h
  · rfl

lemma scanMinus_digits {digits : List Char} (h : Digits digits) :
    scanMinus (encode digits ++ after) = (false, encode digits ++ after) := by
  obtain ⟨byte, tail, hencode, hdigit⟩ := exists_encode_digits h
  rw [hencode, List.cons_append]
  refine scanMinus_of_ne ?_ _
  rintro rfl
  cases hdigit

lemma scanNumber_of {whole rest₁ rest₂ rest₃ : List UInt8} {fraction : Option (List UInt8)}
    {exponent : Option (Bool × List UInt8)}
    (hwhole : scanWhole (scanMinus bytes).2 = .ok (whole, rest₁))
    (hfraction : scanFraction rest₁ = .ok (fraction, rest₂))
    (hexponent : scanExponent rest₂ = .ok (exponent, rest₃)) :
    scanNumber bytes = .ok (⟨(scanMinus bytes).1, whole, fraction, exponent⟩, rest₃) := by
  simp only [scanNumber, hwhole, hfraction, hexponent]

/-- What a fraction or an exponent starts with ends the digits before it. -/
lemma head_exponent {exponent : List Char} (h : Exponent exponent)
    (hafter : ∀ byte, after.head? = some byte → StopByte byte) {byte : UInt8}
    (hbyte : (encode exponent ++ after).head? = some byte) :
    isDigit byte = false ∧ byte ≠ 0x2E := by
  cases h with
  | absent => exact ⟨(hafter byte hbyte).1, (hafter byte hbyte).2.1⟩
  | @given letter sign digits hletter hsign hdigits =>
    rcases hletter with rfl | rfl <;>
    · rw [encode_cons_ascii (by decide)] at hbyte
      cases hbyte
      decide

lemma head_fraction {fraction : List Char} (h : Fraction fraction)
    (hafter : ∀ byte, after.head? = some byte → isDigit byte = false) {byte : UInt8}
    (hbyte : (encode fraction ++ after).head? = some byte) : isDigit byte = false := by
  cases h with
  | absent => exact hafter byte hbyte
  | given hdigits =>
    rw [encode_cons_ascii (by decide)] at hbyte
    cases hbyte
    decide

lemma scanNumber_numeral (h : Numeral text)
    (hafter : ∀ byte, after.head? = some byte → StopByte byte) :
    ∃ read, scanNumber (encode text ++ after) = .ok (read, after) := by
  obtain @⟨sign, whole, fraction, exponent, hsign, hwhole, hfraction, hexponent⟩ := h
  -- Each part ends where the next one starts, so they are settled from right to left.
  obtain ⟨readExponent, hreadExponent⟩ := scanExponent_exponent hexponent hafter
  obtain ⟨readFraction, hreadFraction⟩ :=
    scanFraction_fraction hfraction fun byte hbyte => head_exponent hexponent hafter hbyte
  have hreadWhole := scanWhole_whole hwhole fun byte hbyte =>
    head_fraction hfraction (fun b hb => (head_exponent hexponent hafter hb).1) hbyte
  have hminus : (scanMinus (encode (sign ++ whole ++ fraction ++ exponent) ++ after)).2 =
      encode whole ++ (encode fraction ++ (encode exponent ++ after)) := by
    simp only [encode_append, List.append_assoc]
    rcases hsign with rfl | rfl
    · rw [encode_nil, List.nil_append, scanMinus_digits hwhole.1]
    · rw [encode_cons_ascii (by decide)]
      rfl
  rw [← hminus] at hreadWhole
  exact ⟨_, scanNumber_of hreadWhole hreadFraction hreadExponent⟩

lemma scanNumber_whole (h : Whole text)
    (hafter : ∀ byte, after.head? = some byte → StopByte byte) :
    scanNumber (encode text ++ after) = .ok (⟨false, encode text, none, none⟩, after) := by
  have hminus : scanMinus (encode text ++ after) = (false, encode text ++ after) :=
    scanMinus_digits h.1
  have hreadWhole := scanWhole_whole h fun byte hbyte => (hafter byte hbyte).1
  have hfraction := scanFraction_absent fun byte hbyte => (hafter byte hbyte).2.1
  have hexponent := scanExponent_absent fun byte hbyte => (hafter byte hbyte).2.2
  have hscan := scanNumber_of (by rw [hminus]; exact hreadWhole) hfraction hexponent
  rwa [hminus] at hscan

/-- What is a number starts with a minus sign or a digit. -/
lemma start_of_scanNumber {byte : UInt8} {read : NumberText}
    (h : scanNumber (byte :: bytes) = .ok (read, after)) : byte = 0x2D ∨ isDigit byte = true := by
  refine Decidable.byContradiction fun hstart => ?_
  obtain ⟨hminus, hdigit⟩ := not_or.1 hstart
  simp [scanNumber, scanWhole, scanDigits, scanMinus_of_ne hminus, hdigit] at h

lemma nextToken_number {byte : UInt8} (h : byte = 0x2D ∨ isDigit byte = true) :
    nextToken byte bytes = numberToken (byte :: bytes) := by
  have hnumber : (byte = 0x2D || isDigit byte) = true := by simpa using h
  unfold nextToken
  split
  case h_11 => exact if_pos hnumber
  all_goals exact absurd hnumber (by decide)

lemma tokens_of_scanNumber {read : NumberText} (h : scanNumber bytes = .ok (read, after)) :
    tokens bytes = .number (read.read after) none :: tokens after := by
  cases bytes with
  | nil => cases h
  | cons byte bytes =>
    have hstart := start_of_scanNumber h
    have hvisible : isBlank byte = false := by
      rcases hstart with rfl | hdigit
      · rfl
      · refine Bool.eq_false_iff.2 fun hblank => ?_
        simp only [isBlank, Bool.or_eq_true, decide_eq_true_eq] at hblank
        rcases hblank with ((rfl | rfl) | rfl) | rfl <;> cases hdigit
    rw [tokens, if_neg (by simp [hvisible]), nextToken_number hstart, numberToken, h]

/-- A number is one token without a flaw. -/
lemma toks_numeral (h : Numeral text) (hrest : Stops rest) :
    ∃ read, toks (text ++ rest) = .number read none :: toks rest := by
  obtain ⟨read, hscan⟩ := scanNumber_numeral h fun byte hbyte => hrest.stopByte hbyte
  rw [← encode_append] at hscan
  exact ⟨_, tokens_of_scanNumber hscan⟩

/-! ## Values -/

lemma digitValue_byteOf {c : Char} (h : c.toNat < 0x80) :
    digitValue (byteOf c) = c.toNat - '0'.toNat := by
  rw [digitValue, toNat_byteOf h]
  rfl

/-- Digits that write a number below 2^64 are all taken. -/
lemma appendDigits_digits {n : Nat} (h : ∀ c ∈ text, c.isDigit = true)
    (hfits : Nat.ofDigitChars 10 text n < UInt64.size) :
    appendDigits n (encode text) = (Nat.ofDigitChars 10 text n, []) := by
  induction text generalizing n with
  | nil => rw [encode_nil, appendDigits, Nat.ofDigitChars_nil]
  | cons c text ih =>
    have hascii := ascii_of_isDigit (h c List.mem_cons_self)
    rw [Nat.ofDigitChars_cons, Nat.mul_comm 10 n] at hfits ⊢
    have hgrows : n * 10 + (c.toNat - '0'.toNat) ≤
        Nat.ofDigitChars 10 text (n * 10 + (c.toNat - '0'.toNat)) := by
      rw [Nat.ofDigitChars_eq_ofDigitChars_zero]
      exact Nat.le_add_right_of_le (Nat.le_mul_of_pos_left _ (Nat.pow_pos (by decide)))
    rw [encode_cons_ascii hascii, appendDigits, digitValue_byteOf hascii,
      if_pos (Nat.lt_of_le_of_lt hgrows hfits),
      ih (fun d hd => h d (List.mem_cons_of_mem c hd)) hfits]

/-- A plain whole number is read as that number. -/
lemma toks_wholeNumber {n : Nat} (h : WholeNumber n text) (hn : n < UInt64.size)
    (hrest : Stops rest) :
    toks (text ++ rest) = .number (.ok (.whole n)) none :: toks rest := by
  obtain ⟨hwhole, rfl⟩ := h
  have hscan := scanNumber_whole hwhole fun byte hbyte => hrest.stopByte hbyte
  rw [← encode_append] at hscan
  have hvalue : NumberText.read ⟨false, encode text, none, none⟩ (encode rest) =
      .ok (.whole (Nat.ofDigitChars 10 text 0)) := by
    simp [NumberText.read, NumberText.value, appendDigits_digits hwhole.1.2 hn]
  rw [toks, tokens_of_scanNumber hscan, hvalue, toks]

end ChipVm.Json
