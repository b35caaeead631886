/-
# Strings among the tokens

A string is looked at byte by byte, and its characters may take several bytes.  Nothing in the
middle of a character is taken for a quote, a backslash or a control character
(`plainByte_of_mem_encodeChar`), so a string ends at its closing quote (`skipText_quotable`), and
what is read between the quotes is what it spells (`decodeText_spells`).

Hence a string is one token without a flaw (`toks_quoted`), and a name in quotes is read as that
name, however it is spelt (`toks_named`).
-/
import Mathlib.Tactic.SplitIfs
import ChipVm.Proofs.Json.Tokens

namespace ChipVm.Json

open Grammar

variable {text rest : List Char}

/-! ## Bytes between quotes -/

/-- The byte stands for itself between quotes. -/
def PlainByte (byte : UInt8) : Prop := 0x20 ≤ byte ∧ byte ≠ 0x22 ∧ byte ≠ 0x5C

/-- Nothing in a plain character is taken for a quote, a backslash or a control character. -/
lemma plainByte_of_mem_encodeChar {c : Char} (hc : Plain c) {byte : UInt8}
    (hbyte : byte ∈ String.utf8EncodeChar c) : PlainByte byte := by
  have hplain (hlow : 0x20 ≤ byte.toNat) (hquote : byte.toNat ≠ 0x22)
      (hslash : byte.toNat ≠ 0x5C) : PlainByte byte :=
    ⟨hlow, fun he => hquote (by rw [he]; rfl), fun he => hslash (by rw [he]; rfl)⟩
  by_cases h : c.toNat < 0x80
  · obtain ⟨hlow, hquote, hslash⟩ := hc
    rw [encodeChar_ascii h, List.mem_singleton] at hbyte
    have hnat : byte.toNat = c.toNat := by rw [hbyte, toNat_byteOf h]
    rw [hnat] at hplain
    exact hplain hlow (fun he => hquote (Char.toNat_inj.1 he))
      fun he => hslash (Char.toNat_inj.1 he)
  · have hlarge := le_of_mem_encodeChar (Nat.le_of_not_lt h) hbyte
    exact hplain (by omega) (by omega) (by omega)

/-- The letters of escapes, and what they stand for, take one byte each. -/
lemma simpleEscape_byteOf {letter c : Char} (h : escape? letter = some c) :
    letter.toNat < 0x80 ∧ String.utf8EncodeChar c = [byteOf c] ∧
      simpleEscape? (byteOf letter) = some (byteOf c) := by
  unfold escape? at h
  split at h <;> cases h <;> decide

lemma hexByte_byteOf {c : Char} {value : Nat} (h : hexDigit? c = some value) :
    c.toNat < 0x80 ∧ hexByte? (byteOf c) = some value := by
  have hchar {d e : Char} : d ≤ e ↔ d.toNat ≤ e.toNat := Iff.rfl
  have hascii : c.toNat < 0x80 := by
    simp only [hexDigit?, hchar, Char.reduceToNat] at h
    split_ifs at h <;> omega
  refine ⟨hascii, ?_⟩
  rw [← h, hexByte?, hexDigit?]
  simp only [UInt8.le_iff_toNat_le, toNat_byteOf hascii, hchar, UInt8.reduceToNat,
    Char.reduceToNat]
  split_ifs with hdigit hupper hlower
  · rfl
  · congr 1
    omega
  · congr 1
    omega
  · rfl

/-- The digits of a code unit take one byte each. -/
lemma encode_unit {a b c d : Char} {unit : Nat} (h : codeUnit? a b c d = some unit)
    (rest : List Char) :
    ∃ w x y z, hexWord? w x y z = some unit ∧
      encode ('\\' :: 'u' :: a :: b :: c :: d :: rest) =
        0x5C :: 0x75 :: w :: x :: y :: z :: encode rest := by
  unfold codeUnit? at h
  split at h
  · rename_i na nb nc nd hna hnb hnc hnd
    obtain ⟨ha, hna⟩ := hexByte_byteOf hna
    obtain ⟨hb, hnb⟩ := hexByte_byteOf hnb
    obtain ⟨hc, hnc⟩ := hexByte_byteOf hnc
    obtain ⟨hd, hnd⟩ := hexByte_byteOf hnd
    refine ⟨byteOf a, byteOf b, byteOf c, byteOf d, ?_, ?_⟩
    · rw [← h, hexWord?, hna, hnb, hnc, hnd]
      simp only [Option.some.injEq]
      omega
    · rw [encode_cons_ascii (by decide), encode_cons_ascii (by decide), encode_cons_ascii ha,
        encode_cons_ascii hb, encode_cons_ascii hc, encode_cons_ascii hd]
      rfl
  · cases h

lemma skipText_plain {byte : UInt8} (h : PlainByte byte) (rest : List UInt8) :
    skipText (byte :: rest) = skipText rest := by
  obtain ⟨hlow, hquote, hslash⟩ := h
  rw [skipText, if_neg (UInt8.not_lt.2 hlow)] <;> intros <;> contradiction

lemma skipText_escape {letter byte : UInt8} (h : simpleEscape? letter = some byte)
    (rest : List UInt8) : skipText (0x5C :: letter :: rest) = skipText rest := by
  have hunit : letter ≠ 0x75 := by
    rintro rfl
    cases h
  rw [skipText, if_pos (by simp [h])] <;> intros <;> contradiction

lemma skipText_unit {a b c d : UInt8} {unit : Nat} (h : hexWord? a b c d = some unit)
    (rest : List UInt8) : skipText (0x5C :: 0x75 :: a :: b :: c :: d :: rest) = skipText rest := by
  rw [skipText, if_pos (by simp [h])]

lemma decodeText_plain {byte : UInt8} (h : PlainByte byte) (before rest : List UInt8) :
    decodeText before (byte :: rest) = decodeText (byte :: before) rest := by
  obtain ⟨hlow, hquote, hslash⟩ := h
  rw [decodeText, if_neg (UInt8.not_lt.2 hlow)] <;> intros <;> contradiction

lemma decodeText_escape {letter byte : UInt8} (h : simpleEscape? letter = some byte)
    (before rest : List UInt8) :
    decodeText before (0x5C :: letter :: rest) = decodeText (byte :: before) rest := by
  have hunit : letter ≠ 0x75 := by
    rintro rfl
    cases h
  rw [decodeText, h] <;> intros <;> contradiction

lemma decodeText_unit {a b c d : UInt8} {unit : Nat} {decoded after rest : List UInt8}
    (h : hexWord? a b c d = some unit) (hescape : unicodeEscape unit rest = .ok (decoded, after))
    (before : List UInt8) :
    decodeText before (0x5C :: 0x75 :: a :: b :: c :: d :: rest) =
      decodeText (decoded.reverse ++ before) after := by
  rw [decodeText, h]
  dsimp only
  split
  · rename_i hfailed
    rw [hescape] at hfailed
    cases hfailed
  · rename_i hread
    rw [hescape] at hread
    cases hread
    rfl

lemma skipText_of_plain {bytes : List UInt8} (h : ∀ byte ∈ bytes, PlainByte byte)
    (rest : List UInt8) : skipText (bytes ++ rest) = skipText rest := by
  induction bytes with
  | nil => rfl
  | cons byte bytes ih =>
    rw [List.cons_append, skipText_plain (h byte List.mem_cons_self),
      ih fun b hb => h b (List.mem_cons_of_mem byte hb)]

lemma decodeText_of_plain {bytes : List UInt8} (h : ∀ byte ∈ bytes, PlainByte byte)
    (before rest : List UInt8) :
    decodeText before (bytes ++ rest) = decodeText (bytes.reverse ++ before) rest := by
  induction bytes generalizing before with
  | nil => rfl
  | cons byte bytes ih =>
    rw [List.cons_append, decodeText_plain (h byte List.mem_cons_self),
      ih fun b hb => h b (List.mem_cons_of_mem byte hb)]
    simp

/-! ## Code units -/

lemma isLeading_iff {unit : Nat} : isLeading unit = true ↔ 0xD800 ≤ unit ∧ unit < 0xDC00 := by
  simp only [isLeading, Bool.and_eq_true, decide_eq_true_eq]
  omega

lemma isTrailing_iff {unit : Nat} : isTrailing unit = true ↔ 0xDC00 ≤ unit ∧ unit < 0xE000 := by
  simp only [isTrailing, Bool.and_eq_true, decide_eq_true_eq]
  omega

/-- A unit that is no surrogate names a character by itself. -/
lemma unicodeEscape_single {unit : Nat} (h : unit < 0xD800 ∨ 0xE000 ≤ unit) (rest : List UInt8) :
    unicodeEscape unit rest = .ok (String.utf8EncodeChar (Char.ofNat unit), rest) := by
  rw [unicodeEscape, if_neg (by rw [isTrailing_iff]; omega), if_neg (by rw [isLeading_iff]; omega),
    codePointBytes]

lemma trailingSurrogate_unit {a b c d : UInt8} {trailing : Nat}
    (h : hexWord? a b c d = some trailing) (hsecond : 0xDC00 ≤ trailing ∧ trailing < 0xE000)
    (rest : List UInt8) :
    trailingSurrogate (0x5C :: 0x75 :: a :: b :: c :: d :: rest) = .ok (trailing, rest) := by
  rw [trailingSurrogate, h]
  exact if_pos (isTrailing_iff.2 hsecond)

/-- Two surrogates name a character together. -/
lemma unicodeEscape_pair {leading trailing : Nat} {a b c d : UInt8}
    (hfirst : 0xD800 ≤ leading ∧ leading < 0xDC00) (h : hexWord? a b c d = some trailing)
    (hsecond : 0xDC00 ≤ trailing ∧ trailing < 0xE000) (rest : List UInt8) :
    unicodeEscape leading (0x5C :: 0x75 :: a :: b :: c :: d :: rest) =
      .ok (String.utf8EncodeChar
        (Char.ofNat (0x10000 + (leading - 0xD800) * 0x400 + (trailing - 0xDC00))), rest) := by
  rw [unicodeEscape, if_neg (by rw [isTrailing_iff]; omega), if_pos (isLeading_iff.2 hfirst),
    trailingSurrogate_unit h hsecond]
  rfl

/-! ## Strings -/

/-- A string ends at the first quote that is not escaped. -/
lemma skipText_quotable {inner : List Char} (h : Quotable inner) (rest : List Char) :
    skipText (encode (inner ++ '"' :: rest)) = .ok (encode rest) := by
  induction h with
  | nil =>
    have hquote : byteOf '"' = 0x22 := rfl
    rw [List.nil_append, encode_cons_ascii (by decide), hquote, skipText]
  | plain hc _ ih =>
    rw [List.cons_append, encode_cons,
      skipText_of_plain fun _ => plainByte_of_mem_encodeChar hc, ih]
  | escape hletter _ ih =>
    obtain ⟨c, hc⟩ := Option.isSome_iff_exists.1 hletter
    obtain ⟨hascii, -, hbyte⟩ := simpleEscape_byteOf hc
    rw [List.cons_append, List.cons_append, encode_cons_ascii (by decide),
      encode_cons_ascii hascii]
    exact (skipText_escape hbyte _).trans ih
  | unit hunit _ ih =>
    obtain ⟨unit, hunit⟩ := Option.isSome_iff_exists.1 hunit
    obtain ⟨w, x, y, z, hword, hencode⟩ := encode_unit hunit (_ ++ '"' :: rest)
    exact (congrArg skipText hencode).trans ((skipText_unit hword _).trans ih)

/-- Decoding what stands between quotes gives what it spells. -/
lemma decodeText_spells {inner chars : List Char} (h : Spells inner chars) (before : List UInt8)
    (rest : List Char) :
    decodeText before (encode (inner ++ '"' :: rest)) =
      .ok (before.reverse ++ encode chars, encode rest) := by
  induction h generalizing before with
  | nil =>
    have hquote : byteOf '"' = 0x22 := rfl
    rw [List.nil_append, encode_cons_ascii (by decide), hquote, decodeText, encode_nil,
      List.append_nil]
  | plain hc _ ih =>
    rw [List.cons_append, encode_cons,
      decodeText_of_plain fun _ => plainByte_of_mem_encodeChar hc, ih, encode_cons]
    simp
  | escape hletter _ ih =>
    obtain ⟨hascii, hc, hbyte⟩ := simpleEscape_byteOf hletter
    rw [List.cons_append, List.cons_append, encode_cons_ascii (by decide),
      encode_cons_ascii hascii]
    refine (decodeText_escape hbyte _ _).trans ?_
    rw [ih, encode_cons, hc]
    simp
  | unit hunit hsingle _ ih =>
    obtain ⟨w, x, y, z, hword, hencode⟩ := encode_unit hunit (_ ++ '"' :: rest)
    refine (congrArg (decodeText before) hencode).trans ?_
    rw [decodeText_unit hword (unicodeEscape_single hsingle _), ih, encode_cons]
    simp
  | @pair a b c d a' b' c' d' leading trailing text _ hleading hfirst htrailing hsecond _ ih =>
    obtain ⟨w', x', y', z', hword', hencode'⟩ := encode_unit htrailing (text ++ '"' :: rest)
    obtain ⟨w, x, y, z, hword, hencode⟩ :=
      encode_unit hleading ('\\' :: 'u' :: a' :: b' :: c' :: d' :: (text ++ '"' :: rest))
    have hescape := unicodeEscape_pair hfirst hword' hsecond (encode (text ++ '"' :: rest))
    rw [hencode'] at hencode
    refine (congrArg (decodeText before) hencode).trans ?_
    rw [decodeText_unit hword hescape, ih, encode_cons]
    simp

/-- A string is one token without a flaw, and what it says is read up to the closing quote. -/
lemma toks_text {inner : List Char} (h : Quotable inner) :
    toks ('"' :: (inner ++ ['"']) ++ rest) =
      .text (readText (encode (inner ++ '"' :: rest))) none :: toks rest := by
  have htoken : nextToken (byteOf '"') (encode (inner ++ '"' :: rest)) =
      (.text (readText (encode (inner ++ '"' :: rest))) none, encode rest) := by
    show textToken _ = _
    rw [textToken, skipText_quotable h]
  rw [List.cons_append, List.append_assoc, List.singleton_append,
    toks_cons (by decide) (by decide), htoken, toks]

lemma toks_quoted (h : Quoted text) :
    ∃ read, toks (text ++ rest) = .text read none :: toks rest := by
  obtain ⟨inner, hinner, rfl⟩ := h
  exact ⟨_, toks_text hinner⟩

/-- A name in quotes is read as that name. -/
lemma toks_named {name : String} (h : Named name text) :
    toks (text ++ rest) = .text (.ok name) none :: toks rest := by
  obtain ⟨inner, hinner, rfl⟩ := h
  have hread : readText (encode (inner ++ '"' :: rest)) = .ok name := by
    rw [readText, decodeText_spells hinner]
    dsimp only
    rw [List.reverse_nil, List.nil_append, fromUTF8_encode, String.ofList_toList]
  rw [toks_text hinner.quotable, hread]

end ChipVm.Json
