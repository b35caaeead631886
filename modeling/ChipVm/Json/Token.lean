/-
# The tokens of a JSON text

A text is cut into tokens from left to right.  Whether a flawed token matters depends on where it
stands, so a flaw does not end the cutting with an error: it is carried by the token, which is
then the last one.  A value that is only passed over is checked less closely than one that is
understood, and a token carries what is to be said of it in either case.
-/
import ChipVm.Json.Number
import ChipVm.Json.Text

namespace ChipVm.Json

/-- The words that JSON knows. -/
inductive Word where
  | null
  | bool (value : Bool)
deriving DecidableEq, Repr

/-- The pieces that a text is made of. -/
inductive Token where
  | openObject
  | closeObject
  | openList
  | closeList
  | comma
  | colon
  /-- Something that starts like a word. -/
  | word (read : Except Flaw Word)
  /-- Something that starts like a number: what it means, and what is wrong with its form. -/
  | number (read : Except Flaw Number) (flaw : Option Flaw)
  /-- Something that starts with a quote: the text, and what is wrong with its form. -/
  | text (read : Except Flaw String) (flaw : Option Flaw)
  /-- A character that starts none of the above. -/
  | stray

/-- Whether a byte is white space between tokens. -/
def isBlank (b : UInt8) : Bool :=
  b = 0x20 || b = 0x09 || b = 0x0A || b = 0x0D

/-- What follows the given letters. -/
def skipLetters : List UInt8 → List UInt8 → Except Flaw (List UInt8)
  | [], rest => .ok rest
  | _ :: _, [] => .error ⟨.endInValue, []⟩
  | letter :: letters, byte :: rest =>
    if byte = letter then skipLetters letters rest else .error ⟨.expectedWord, rest⟩

/-- The token of a word whose first letter has been passed, and what follows it. -/
def wordToken (word : Word) (letters bytes : List UInt8) : Token × List UInt8 :=
  match skipLetters letters bytes with
  | .ok rest => (.word (.ok word), rest)
  | .error flaw => (.word (.error flaw), [])

/-- The token of a number, and what follows it. -/
def numberToken (bytes : List UInt8) : Token × List UInt8 :=
  match scanNumber bytes with
  | .ok (text, rest) => (.number (text.read rest) none, rest)
  | .error flaw => (.number (.error flaw.whenRead) (some flaw.whenSkipped), [])

/-- The token of a string whose opening quote has been passed, and what follows it. -/
def textToken (bytes : List UInt8) : Token × List UInt8 :=
  match skipText bytes with
  | .ok rest => (.text (readText bytes) none, rest)
  | .error flaw => (.text (readText bytes) (some flaw), [])

/-- The token that starts with the given byte, and what follows it. -/
def nextToken (byte : UInt8) (bytes : List UInt8) : Token × List UInt8 :=
  match byte with
  | 0x7B => (.openObject, bytes)
  | 0x7D => (.closeObject, bytes)
  | 0x5B => (.openList, bytes)
  | 0x5D => (.closeList, bytes)
  | 0x2C => (.comma, bytes)
  | 0x3A => (.colon, bytes)
  | 0x22 => textToken bytes
  | 0x6E => wordToken .null [0x75, 0x6C, 0x6C] bytes
  | 0x74 => wordToken (.bool true) [0x72, 0x75, 0x65] bytes
  | 0x66 => wordToken (.bool false) [0x61, 0x6C, 0x73, 0x65] bytes
  | byte =>
    if byte = 0x2D || isDigit byte then numberToken (byte :: bytes) else (.stray, bytes)

/-! ## A token takes something away -/

theorem length_of_skipLetters {letters bytes rest : List UInt8}
    (h : skipLetters letters bytes = .ok rest) : rest.length ≤ bytes.length := by
  fun_induction skipLetters letters bytes with
  | case1 => simp_all
  | case2 => simp at h
  | case3 _ _ _ ih => exact Nat.le_succ_of_le (ih h)
  | case4 => simp at h

theorem length_of_skipText {bytes rest : List UInt8} (h : skipText bytes = .ok rest) :
    rest.length ≤ bytes.length := by
  fun_induction skipText bytes with
  | case1 => simp at h
  | case2 => simp_all
  | case3 a b c d tail _ ih =>
    have := ih h
    simp only [List.length_cons]
    omega
  | case4 => simp at h
  | case5 => simp at h
  | case6 escape tail _ _ _ ih =>
    have := ih h
    simp only [List.length_cons]
    omega
  | case7 => simp at h
  | case8 => simp at h
  | case9 => simp at h
  | case10 byte tail _ _ _ _ _ _ ih =>
    have := ih h
    simp only [List.length_cons]
    omega

theorem length_of_nextToken (byte : UInt8) (bytes : List UInt8) :
    (nextToken byte bytes).2.length ≤ bytes.length := by
  have words (word : Word) (letters : List UInt8) :
      (wordToken word letters bytes).2.length ≤ bytes.length := by
    unfold wordToken
    split
    · exact length_of_skipLetters ‹_›
    · exact Nat.zero_le _
  have texts : (textToken bytes).2.length ≤ bytes.length := by
    unfold textToken
    split
    · exact length_of_skipText ‹_›
    · exact Nat.zero_le _
  have numbers : (numberToken (byte :: bytes)).2.length ≤ bytes.length := by
    unfold numberToken
    split
    · exact Nat.le_of_lt_succ (length_of_scanNumber ‹_›)
    · exact Nat.zero_le _
  unfold nextToken
  split
  · exact Nat.le_refl _
  · exact Nat.le_refl _
  · exact Nat.le_refl _
  · exact Nat.le_refl _
  · exact Nat.le_refl _
  · exact Nat.le_refl _
  · exact texts
  · exact words _ _
  · exact words _ _
  · exact words _ _
  · split
    · exact numbers
    · exact Nat.le_refl _

/-- The tokens of a text. -/
def tokens (bytes : List UInt8) : List Token :=
  match bytes with
  | [] => []
  | byte :: rest =>
    if isBlank byte then tokens rest
    else (nextToken byte rest).1 :: tokens (nextToken byte rest).2
termination_by bytes.length
decreasing_by
  · simp
  · exact Nat.lt_succ_of_le (length_of_nextToken byte rest)

end ChipVm.Json
