/-
# The tokens of a text

A text is cut into tokens byte by byte, and its grammar speaks of characters.  Every character that
the grammar knows by name is a single byte (`encode_cons_ascii`), and the bytes of all others are
large (`le_of_mem_encodeChar`), so the two views of a text agree.

Each part of a text becomes the token it is meant to be, and the tokens after it are those of what
follows it in the text.  Here this is said of white space, which becomes nothing (`toks_blank`), of
brackets, and of words.
-/
import Mathlib.Tactic.Lemma
import ChipVm.Json.Token
import ChipVm.Proofs.Json.Grammar

namespace ChipVm.Json

open Grammar

variable {text rest : List Char}

/-! ## Characters and bytes -/

/-- The bytes of a text in UTF-8. -/
def encode (text : List Char) : List UInt8 := text.flatMap String.utf8EncodeChar

@[simp] lemma encode_nil : encode [] = [] := rfl

@[simp] lemma encode_append (text rest : List Char) :
    encode (text ++ rest) = encode text ++ encode rest :=
  List.flatMap_append

lemma encode_cons (c : Char) (rest : List Char) :
    encode (c :: rest) = String.utf8EncodeChar c ++ encode rest :=
  List.flatMap_cons

/-- The byte of a character that takes a single one. -/
def byteOf (c : Char) : UInt8 := UInt8.ofNat c.toNat

lemma encodeChar_ascii {c : Char} (h : c.toNat < 0x80) : String.utf8EncodeChar c = [byteOf c] :=
  if_pos (Nat.le_of_lt_succ h)

lemma encode_cons_ascii {c : Char} (h : c.toNat < 0x80) (rest : List Char) :
    encode (c :: rest) = byteOf c :: encode rest := by
  rw [encode_cons, encodeChar_ascii h]
  rfl

lemma toNat_byteOf {c : Char} (h : c.toNat < 0x80) : (byteOf c).toNat = c.toNat := by
  rw [byteOf, UInt8.toNat_ofNat']
  omega

/-- A character that takes several bytes has none below `0x80` among them. -/
lemma le_of_mem_encodeChar {c : Char} (h : 0x80 ≤ c.toNat) {byte : UInt8}
    (hbyte : byte ∈ String.utf8EncodeChar c) : 0x80 ≤ byte.toNat := by
  have hlarge (n : Nat) (hlow : 0x80 ≤ n) (hhigh : n < 0x100) : 0x80 ≤ (UInt8.ofNat n).toNat := by
    rw [UInt8.toNat_ofNat']
    omega
  have hc : c.val.toNat = c.toNat := rfl
  -- A first byte is at least `0xC0` and a later one at least `0x80`, and none of them wraps around.
  unfold String.utf8EncodeChar at hbyte
  dsimp only at hbyte
  rw [hc] at hbyte
  split at hbyte
  · omega
  · split at hbyte
    · simp only [List.mem_cons, List.not_mem_nil, or_false] at hbyte
      rcases hbyte with rfl | rfl <;> exact hlarge _ (by omega) (by omega)
    · split at hbyte
      · simp only [List.mem_cons, List.not_mem_nil, or_false] at hbyte
        rcases hbyte with rfl | rfl | rfl <;> exact hlarge _ (by omega) (by omega)
      · simp only [List.mem_cons, List.not_mem_nil, or_false] at hbyte
        rcases hbyte with rfl | rfl | rfl | rfl <;> exact hlarge _ (by omega) (by omega)

lemma fromUTF8_encode (text : List Char) :
    String.fromUTF8? ⟨(encode text).toArray⟩ = some (String.ofList text) := by
  have hbytes : (⟨(encode text).toArray⟩ : ByteArray) = (String.ofList text).toByteArray := by
    rw [String.toByteArray_ofList, List.utf8Encode]
    exact ByteArray.ext (List.data_toByteArray).symm
  rw [hbytes, String.fromUTF8?, dif_pos (String.ofList text).isValidUTF8]
  rfl

/-! ## White space, brackets and words -/

/-- The tokens of a text. -/
def toks (text : List Char) : List Token := tokens (encode text)

@[simp] lemma toks_nil : toks [] = [] := by
  rw [toks, encode_nil, tokens]

lemma toks_cons_blank {c : Char} (h : c.toNat < 0x80) (hblank : isBlank (byteOf c) = true) :
    toks (c :: rest) = toks rest := by
  rw [toks, encode_cons_ascii h, tokens, if_pos hblank, toks]

lemma toks_blank {blank : List Char} (h : Blank blank) : toks (blank ++ rest) = toks rest := by
  induction blank with
  | nil => rfl
  | cons c blank ih =>
    have hrest := ih fun d hd => h d (List.mem_cons_of_mem c hd)
    rw [List.cons_append, ← hrest]
    rcases h c List.mem_cons_self with rfl | rfl | rfl | rfl <;>
      exact toks_cons_blank (by decide) (by decide)

/-- The first token of a text that does not start with white space. -/
lemma toks_cons {c : Char} (h : c.toNat < 0x80) (hvisible : isBlank (byteOf c) = false) :
    toks (c :: rest) =
      (nextToken (byteOf c) (encode rest)).1 :: tokens (nextToken (byteOf c) (encode rest)).2 := by
  rw [toks, encode_cons_ascii h, tokens, if_neg (by simp [hvisible])]

@[simp] lemma toks_openObject : toks ('{' :: rest) = .openObject :: toks rest :=
  toks_cons (by decide) (by decide)

@[simp] lemma toks_closeObject : toks ('}' :: rest) = .closeObject :: toks rest :=
  toks_cons (by decide) (by decide)

@[simp] lemma toks_openList : toks ('[' :: rest) = .openList :: toks rest :=
  toks_cons (by decide) (by decide)

@[simp] lemma toks_closeList : toks (']' :: rest) = .closeList :: toks rest :=
  toks_cons (by decide) (by decide)

@[simp] lemma toks_comma : toks (',' :: rest) = .comma :: toks rest :=
  toks_cons (by decide) (by decide)

@[simp] lemma toks_colon : toks (':' :: rest) = .colon :: toks rest :=
  toks_cons (by decide) (by decide)

lemma skipLetters_append (letters rest : List UInt8) :
    skipLetters letters (letters ++ rest) = .ok rest := by
  induction letters with
  | nil => rfl
  | cons letter letters ih => rw [List.cons_append, skipLetters, if_pos rfl, ih]

lemma toks_word {word : Word} {c : Char} {letters : List Char} (h : c.toNat < 0x80)
    (hvisible : isBlank (byteOf c) = false)
    (hnext : ∀ bytes, nextToken (byteOf c) bytes = wordToken word (encode letters) bytes) :
    toks (c :: (letters ++ rest)) = .word (.ok word) :: toks rest := by
  have htoken : wordToken word (encode letters) (encode (letters ++ rest)) =
      (.word (.ok word), encode rest) := by
    rw [encode_append, wordToken, skipLetters_append]
  rw [toks_cons h hvisible, hnext, htoken, toks]

lemma toks_null : toks (['n', 'u', 'l', 'l'] ++ rest) = .word (.ok .null) :: toks rest :=
  toks_word (by decide) (by decide) fun _ => rfl

lemma toks_boolean {value : Bool} (h : Boolean value text) :
    toks (text ++ rest) = .word (.ok (.bool value)) :: toks rest := by
  cases h with
  | true => exact toks_word (by decide) (by decide) fun _ => rfl
  | false => exact toks_word (by decide) (by decide) fun _ => rfl

end ChipVm.Json
