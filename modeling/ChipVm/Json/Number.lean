/-
# Numbers in JSON texts

A number is an optional minus sign, a whole part without superfluous zeros, an optional fraction
and an optional exponent, each of them with at least one digit.  `scanNumber` takes such a text
apart, and `NumberText.value` says which number is meant.

Whole numbers are exact as far as they fit into 64 bits.  All others are floating point numbers:
as many leading digits as fit into 64 bits are taken as one whole number, the digits after them
only count, and the result is scaled by a power of ten with one rounding for each operation.
-/
import ChipVm.Json.Error

namespace ChipVm.Json

/-- Whether a byte is a decimal digit. -/
def isDigit (b : UInt8) : Bool := 0x30 ≤ b && b ≤ 0x39

/-- The value of a decimal digit. -/
def digitValue (b : UInt8) : Nat := b.toNat - 0x30

/-- The text of a number, taken apart. -/
structure NumberText where
  /-- Whether a minus sign stands in front. -/
  negative : Bool
  /-- The digits before the point. -/
  whole : List UInt8
  /-- The digits after the point, if there is one. -/
  fraction : Option (List UInt8)
  /-- Whether the exponent is negative, and its digits, if there is one. -/
  exponent : Option (Bool × List UInt8)
deriving DecidableEq, Repr

/-- Why a text is not a number. -/
inductive NumberFlaw where
  /-- A zero in front of other digits, and what follows the first of them. -/
  | leadingZero (rest : List UInt8)
  /-- No digit in front of `rest`, where one is due. -/
  | missingDigit (rest : List UInt8)
deriving DecidableEq, Repr

/-- What is to be said of a flawed number that was to be understood. -/
def NumberFlaw.whenRead : NumberFlaw → Flaw
  | leadingZero rest => ⟨.invalidNumber, rest⟩
  | missingDigit [] => ⟨.endInValue, []⟩
  | missingDigit (_ :: rest) => ⟨.invalidNumber, rest⟩

/-- What is to be said of a flawed number that was only to be passed over. -/
def NumberFlaw.whenSkipped : NumberFlaw → Flaw
  | leadingZero rest => ⟨.invalidNumber, rest⟩
  | missingDigit rest => ⟨.invalidNumber, rest.tail⟩

/-- The digits in front, of which there is at least one, and what follows them. -/
def scanDigits (bytes : List UInt8) : Except NumberFlaw (List UInt8 × List UInt8) :=
  match bytes.takeWhile isDigit with
  | [] => .error (.missingDigit bytes)
  | digits => .ok (digits, bytes.dropWhile isDigit)

/-- The digits before the point: a single zero, or digits that start with another one. -/
def scanWhole (bytes : List UInt8) : Except NumberFlaw (List UInt8 × List UInt8) :=
  match scanDigits bytes with
  | .error flaw => .error flaw
  | .ok (digits, rest) =>
    if digits.head? = some 0x30 ∧ 1 < digits.length then .error (.leadingZero (bytes.drop 2))
    else .ok (digits, rest)

/-- The fraction, if there is a point. -/
def scanFraction (bytes : List UInt8) : Except NumberFlaw (Option (List UInt8) × List UInt8) :=
  match bytes with
  | 0x2E :: rest =>
    match scanDigits rest with
    | .error flaw => .error flaw
    | .ok (digits, rest) => .ok (some digits, rest)
  | bytes => .ok (none, bytes)

/-- The sign of an exponent and what follows it. -/
def scanSign (bytes : List UInt8) : Bool × List UInt8 :=
  match bytes with
  | 0x2B :: rest => (false, rest)
  | 0x2D :: rest => (true, rest)
  | bytes => (false, bytes)

/-- The exponent, if there is a letter for it. -/
def scanExponent (bytes : List UInt8) :
    Except NumberFlaw (Option (Bool × List UInt8) × List UInt8) :=
  match bytes with
  | letter :: rest =>
    if letter = 0x65 ∨ letter = 0x45 then
      match scanDigits (scanSign rest).2 with
      | .error flaw => .error flaw
      | .ok (digits, after) => .ok (some ((scanSign rest).1, digits), after)
    else .ok (none, bytes)
  | [] => .ok (none, [])

/-- The minus sign in front, and what follows it. -/
def scanMinus (bytes : List UInt8) : Bool × List UInt8 :=
  match bytes with
  | 0x2D :: rest => (true, rest)
  | bytes => (false, bytes)

/-- The number in front of a text, and what follows it.  It goes on for as long as a character can
continue it. -/
def scanNumber (bytes : List UInt8) : Except NumberFlaw (NumberText × List UInt8) :=
  match scanWhole (scanMinus bytes).2 with
  | .error flaw => .error flaw
  | .ok (whole, rest) =>
    match scanFraction rest with
    | .error flaw => .error flaw
    | .ok (fraction, rest) =>
      match scanExponent rest with
      | .error flaw => .error flaw
      | .ok (exponent, rest) =>
        .ok (⟨(scanMinus bytes).1, whole, fraction, exponent⟩, rest)

/-! ## Scanning takes something away -/

theorem length_of_scanDigits {bytes digits rest : List UInt8}
    (h : scanDigits bytes = .ok (digits, rest)) : rest.length < bytes.length := by
  unfold scanDigits at h
  split at h
  · simp at h
  · rename_i nonempty
    simp only [Except.ok.injEq, Prod.mk.injEq] at h
    have whole := congrArg List.length (List.takeWhile_append_dropWhile (p := isDigit) (l := bytes))
    have := List.length_pos_iff.2 nonempty
    rw [List.length_append, h.2] at whole
    omega

theorem length_of_scanWhole {bytes digits rest : List UInt8}
    (h : scanWhole bytes = .ok (digits, rest)) : rest.length < bytes.length := by
  unfold scanWhole at h
  split at h
  · simp at h
  · rename_i found
    split at h
    · simp at h
    · simp only [Except.ok.injEq, Prod.mk.injEq] at h
      exact h.2 ▸ length_of_scanDigits found

theorem length_of_scanFraction {bytes rest : List UInt8} {fraction : Option (List UInt8)}
    (h : scanFraction bytes = .ok (fraction, rest)) : rest.length ≤ bytes.length := by
  unfold scanFraction at h
  split at h
  · split at h
    · simp at h
    · rename_i found
      simp only [Except.ok.injEq, Prod.mk.injEq] at h
      exact h.2 ▸ Nat.le_succ_of_le (Nat.le_of_lt (length_of_scanDigits found))
  · simp only [Except.ok.injEq, Prod.mk.injEq] at h
    exact h.2 ▸ Nat.le_refl _

theorem length_scanSign (bytes : List UInt8) : (scanSign bytes).2.length ≤ bytes.length := by
  unfold scanSign
  split <;> simp

theorem length_of_scanExponent {bytes rest : List UInt8} {exponent : Option (Bool × List UInt8)}
    (h : scanExponent bytes = .ok (exponent, rest)) : rest.length ≤ bytes.length := by
  unfold scanExponent at h
  split at h
  · split at h
    · split at h
      · simp at h
      · rename_i tail _ _ _ _ found
        simp only [Except.ok.injEq, Prod.mk.injEq] at h
        have := length_of_scanDigits found
        have := length_scanSign tail
        simp only [List.length_cons, ← h.2]
        omega
    · simp only [Except.ok.injEq, Prod.mk.injEq] at h
      exact h.2 ▸ Nat.le_refl _
  · simp only [Except.ok.injEq, Prod.mk.injEq] at h
    exact h.2 ▸ Nat.le_refl _

theorem length_scanMinus (bytes : List UInt8) : (scanMinus bytes).2.length ≤ bytes.length := by
  unfold scanMinus
  split <;> simp

theorem length_of_scanNumber {bytes rest : List UInt8} {text : NumberText}
    (h : scanNumber bytes = .ok (text, rest)) : rest.length < bytes.length := by
  unfold scanNumber at h
  split at h
  · simp at h
  · rename_i whole
    split at h
    · simp at h
    · rename_i fraction
      split at h
      · simp at h
      · rename_i exponent
        simp only [Except.ok.injEq, Prod.mk.injEq] at h
        have := length_of_scanWhole whole
        have := length_of_scanFraction fraction
        have := length_of_scanExponent exponent
        have := length_scanMinus bytes
        rw [← h.2]
        omega

/-! ## Values -/

/-- Appends digits to a number for as long as it stays below 2^64: the number, and the digits that
did not fit. -/
def appendDigits (n : Nat) : List UInt8 → Nat × List UInt8
  | [] => (n, [])
  | digit :: rest =>
    if n * 10 + digitValue digit < UInt64.size then appendDigits (n * 10 + digitValue digit) rest
    else (n, digit :: rest)

/-- The number that a run of digits writes. -/
def digitsValue (digits : List UInt8) : Nat :=
  digits.foldl (fun n digit => n * 10 + digitValue digit) 0

/-- Exponents beyond this are not computed with. -/
def exponentLimit : Nat := 0x7FFFFFFF

/-- The double precision value of `significand * 10 ^ -exponent`: divided by ever so many powers of
ten as the format has, as long as there is something left to divide. -/
def scaleDown (value : Nat) (exponent : Nat) : Nat :=
  if exponent ≤ 308 then
    Decimal.Double.div value (Decimal.Double.tenTo exponent)
  else if value = 0 then
    0
  else
    scaleDown (Decimal.Double.div value (Decimal.Double.tenTo 308)) (exponent - 308)
termination_by exponent

/-- The double precision value of `significand * 10 ^ exponent`. -/
def scale (significand : Nat) (exponent : Int) : Except Error Nat :=
  let value := Decimal.Double.ofNat significand
  match exponent with
  | .ofNat k =>
    if k ≤ 308 then
      match Decimal.Double.mul? value (Decimal.Double.tenTo k) with
      | some product => .ok product
      | none => .error .numberOutOfRange
    else if value = 0 then .ok 0
    else .error .numberOutOfRange
  | .negSucc k => .ok (scaleDown value (k + 1))

/-- An exponent of up to `exponentLimit` added to or taken from another. -/
def shiftExponent (start : Int) (negative : Bool) (digits : Nat) : Int :=
  if negative then max (start - digits) (-0x80000000) else min (start + digits) exponentLimit

/-- The value of `significand * 10 ^ start`, scaled by a written exponent.  An exponent beyond
`exponentLimit` makes zero if it is negative, and no number if it is positive, unless the
significand is zero. -/
def scaleWritten (significand : Nat) (start : Int) :
    Option (Bool × List UInt8) → Except Error Nat
  | none => scale significand start
  | some (negative, digits) =>
    let written := digitsValue digits
    if written ≤ exponentLimit then scale significand (shiftExponent start negative written)
    else if significand ≠ 0 ∧ negative = false then .error .numberOutOfRange
    else .ok 0

/-- The number that a text means. -/
def NumberText.value (text : NumberText) : Except Error Number :=
  let (significand, surplus) := appendDigits 0 text.whole
  if surplus.isEmpty ∧ text.fraction = none ∧ text.exponent = none then
    if text.negative = false then .ok (.whole significand)
    else if 0 < significand ∧ significand ≤ 0x8000000000000000 then .ok (.negative significand)
    else .ok (.float true (Decimal.Double.ofNat significand))
  else
    let fraction := text.fraction.getD []
    let (all, ignored) := appendDigits significand fraction
    let start : Int := surplus.length - (fraction.length - ignored.length : Nat)
    match scaleWritten all start text.exponent with
    | .error error => .error error
    | .ok units => .ok (.float text.negative units)

/-- The digits after the one that takes a number beyond the limit of exponents, if one does.  `n` is
what the digits before them write. -/
def digitsBeyondLimit (n : Nat) : List UInt8 → Option (List UInt8)
  | [] => none
  | digit :: rest =>
    if n * 10 + digitValue digit ≤ exponentLimit then
      digitsBeyondLimit (n * 10 + digitValue digit) rest
    else some rest

/-- What has not been looked at when a number turns out to be too large, where `rest` follows it.
It turns out where the exponent goes beyond its limit, or else where a further byte shows that the
number is at its end. -/
def NumberText.unseen (text : NumberText) (rest : List UInt8) : List UInt8 :=
  match text.exponent.bind fun (_, digits) => digitsBeyondLimit 0 digits with
  | some digits => digits ++ rest
  | none => rest.tail

/-- The number that a text means, where `rest` follows it. -/
def NumberText.read (text : NumberText) (rest : List UInt8) : Except Flaw Number :=
  match text.value with
  | .ok value => .ok value
  | .error error => .error ⟨error, text.unseen rest⟩

end ChipVm.Json
