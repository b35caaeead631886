/-
# Strings in JSON texts

The bytes after an opening quote, up to the closing one.  `skipText` only looks for the end and
checks the form of the escapes on the way; `readText` also decodes them.

An escape `\uXXXX` names a UTF-16 code unit, so a character beyond the first plane takes two of
them, a leading and a trailing surrogate.
-/
import ChipVm.Json.Error

namespace ChipVm.Json

/-- The value of a hexadecimal digit of either case. -/
def hexByte? (b : UInt8) : Option Nat :=
  if 0x30 ≤ b ∧ b ≤ 0x39 then some (b.toNat - 0x30)
  else if 0x41 ≤ b ∧ b ≤ 0x46 then some (b.toNat - 0x37)
  else if 0x61 ≤ b ∧ b ≤ 0x66 then some (b.toNat - 0x57)
  else none

/-- The number that four hexadecimal digits write. -/
def hexWord? (a b c d : UInt8) : Option Nat :=
  match hexByte? a, hexByte? b, hexByte? c, hexByte? d with
  | some a, some b, some c, some d => some (((a * 16 + b) * 16 + c) * 16 + d)
  | _, _, _, _ => none

/-- The byte that a one-letter escape stands for. -/
def simpleEscape? (b : UInt8) : Option UInt8 :=
  match b with
  | 0x22 => some 0x22
  | 0x5C => some 0x5C
  | 0x2F => some 0x2F
  | 0x62 => some 0x08
  | 0x66 => some 0x0C
  | 0x6E => some 0x0A
  | 0x72 => some 0x0D
  | 0x74 => some 0x09
  | _ => none

/-- What follows the string whose opening quote has been passed. -/
def skipText : List UInt8 → Except Flaw (List UInt8)
  | [] => .error ⟨.endInString, []⟩
  | 0x22 :: rest => .ok rest
  | 0x5C :: 0x75 :: a :: b :: c :: d :: rest =>
    if (hexWord? a b c d).isSome then skipText rest else .error ⟨.invalidEscape, rest⟩
  | 0x5C :: 0x75 :: _ => .error ⟨.endInString, []⟩
  | 0x5C :: escape :: rest =>
    if (simpleEscape? escape).isSome then skipText rest else .error ⟨.invalidEscape, rest⟩
  | 0x5C :: [] => .error ⟨.endInString, []⟩
  | byte :: rest => if byte < 0x20 then .error ⟨.controlCharacter, rest⟩ else skipText rest

/-- Whether a code unit is a leading surrogate. -/
def isLeading (unit : Nat) : Bool := 0xD800 ≤ unit && unit ≤ 0xDBFF

/-- Whether a code unit is a trailing surrogate. -/
def isTrailing (unit : Nat) : Bool := 0xDC00 ≤ unit && unit ≤ 0xDFFF

/-- The character that a pair of surrogates names. -/
def pairedCodePoint (leading trailing : Nat) : Nat :=
  0x10000 + (leading - 0xD800) * 0x400 + (trailing - 0xDC00)

/-- The bytes of the character with a code point. -/
def codePointBytes (codePoint : Nat) : List UInt8 :=
  String.utf8EncodeChar (Char.ofNat codePoint)

/-- The trailing surrogate that has to follow a leading one, and what comes after it. -/
def trailingSurrogate : List UInt8 → Except Flaw (Nat × List UInt8)
  | [] => .error ⟨.endInString, []⟩
  | 0x5C :: [] => .error ⟨.endInString, []⟩
  | 0x5C :: 0x75 :: a :: b :: c :: d :: rest =>
    match hexWord? a b c d with
    | none => .error ⟨.invalidEscape, rest⟩
    | some unit => if isTrailing unit then .ok (unit, rest) else .error ⟨.loneSurrogate, rest⟩
  | 0x5C :: 0x75 :: _ => .error ⟨.endInString, []⟩
  | 0x5C :: _ :: rest => .error ⟨.unpairedEscape, rest⟩
  | _ :: rest => .error ⟨.unpairedEscape, rest⟩

/-- The bytes that the escape of a code unit stands for, and what comes after it; a second escape
is taken along where the first is a leading surrogate. -/
def unicodeEscape (unit : Nat) (rest : List UInt8) : Except Flaw (List UInt8 × List UInt8) :=
  if isTrailing unit then .error ⟨.loneSurrogate, rest⟩
  else if isLeading unit then
    match trailingSurrogate rest with
    | .error flaw => .error flaw
    | .ok (trailing, rest) => .ok (codePointBytes (pairedCodePoint unit trailing), rest)
  else .ok (codePointBytes unit, rest)

/-- A trailing surrogate takes six bytes. -/
theorem length_of_trailingSurrogate {bytes rest : List UInt8} {unit : Nat}
    (h : trailingSurrogate bytes = .ok (unit, rest)) : rest.length < bytes.length := by
  unfold trailingSurrogate at h
  split at h
  · simp at h
  · simp at h
  · split at h
    · simp at h
    · split at h
      · simp only [Except.ok.injEq, Prod.mk.injEq] at h
        simp only [List.length_cons, ← h.2]
        omega
      · simp at h
  · simp at h
  · simp at h
  · simp at h

/-- An escape leaves no more than there was. -/
theorem length_of_unicodeEscape {bytes rest decoded : List UInt8} {unit : Nat}
    (h : unicodeEscape unit bytes = .ok (decoded, rest)) : rest.length ≤ bytes.length := by
  unfold unicodeEscape at h
  split at h
  · simp at h
  · split at h
    · split at h
      · simp at h
      · rename_i trailing after found
        simp only [Except.ok.injEq, Prod.mk.injEq] at h
        exact h.2 ▸ Nat.le_of_lt (length_of_trailingSurrogate found)
    · simp only [Except.ok.injEq, Prod.mk.injEq] at h
      exact h.2 ▸ Nat.le_refl _

/-- The bytes of the string whose opening quote has been passed, its escapes decoded, in front of
which stands what was decoded before, in reverse; and what follows the string. -/
def decodeText (before : List UInt8) (bytes : List UInt8) :
    Except Flaw (List UInt8 × List UInt8) :=
  match bytes with
  | [] => .error ⟨.endInString, []⟩
  | 0x22 :: rest => .ok (before.reverse, rest)
  | 0x5C :: 0x75 :: a :: b :: c :: d :: rest =>
    match hexWord? a b c d with
    | none => .error ⟨.invalidEscape, rest⟩
    | some unit =>
      match _h : unicodeEscape unit rest with
      | .error flaw => .error flaw
      | .ok (decoded, after) => decodeText (decoded.reverse ++ before) after
  | 0x5C :: 0x75 :: _ => .error ⟨.endInString, []⟩
  | 0x5C :: escape :: rest =>
    match simpleEscape? escape with
    | none => .error ⟨.invalidEscape, rest⟩
    | some byte => decodeText (byte :: before) rest
  | 0x5C :: [] => .error ⟨.endInString, []⟩
  | byte :: rest =>
    if byte < 0x20 then .error ⟨.controlCharacter, rest⟩ else decodeText (byte :: before) rest
termination_by bytes.length
decreasing_by
  all_goals simp only [List.length_cons]
  · have := length_of_unicodeEscape _h
    omega
  · omega
  · omega

/-- The string whose opening quote has been passed. -/
def readText (bytes : List UInt8) : Except Flaw String :=
  match decodeText [] bytes with
  | .error flaw => .error flaw
  | .ok (decoded, rest) =>
    match String.fromUTF8? ⟨decoded.toArray⟩ with
    | some text => .ok text
    | none => .error ⟨.invalidCodePoint, rest⟩

end ChipVm.Json
