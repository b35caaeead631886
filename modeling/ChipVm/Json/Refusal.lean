/-
# Why and where reading stops

Readers work on tokens, and what makes a reader stop is a flawed token, a token that is out of
place, or a token with a value that is not wanted.  A `Refusal` says which, and holds the tokens
from that one on.

For the place in the text the tokens that are left are counted: `starts` has what is left of the
text at the start of each token.  A token is seen to be out of place by its first byte; its value
is known once the whole of it has been looked at, which for a number takes the byte after it.
-/
import ChipVm.Json.Token

namespace ChipVm.Json

/-- What can be wrong with a token. -/
inductive Objection where
  /-- It is flawed. -/
  | flawed (flaw : Flaw)
  /-- It is out of place. -/
  | misplaced (error : Error)
deriving DecidableEq, Repr

/-- What makes reading stop. -/
inductive Refusal where
  /-- A token is flawed. -/
  | flawed (flaw : Flaw)
  /-- The first of these tokens is out of place, or the end of the text if there are none. -/
  | misplaced (error : Error) (ts : List Token)
  /-- The value of the first of these tokens is not wanted. -/
  | unwanted (error : Error) (ts : List Token)

/-- The refusal that follows from an objection to the first of these tokens. -/
def Objection.against (ts : List Token) : Objection → Refusal
  | flawed flaw => .flawed flaw
  | misplaced error => .misplaced error ts

/-- What is wrong. -/
def Refusal.error : Refusal → Error
  | flawed flaw => flaw.error
  | misplaced error _ => error
  | unwanted error _ => error

/-- What is left of a text at the start of each of its tokens. -/
def starts (bytes : List UInt8) : List (List UInt8) :=
  match bytes with
  | [] => []
  | byte :: rest =>
    if isBlank byte then starts rest
    else (byte :: rest) :: starts (nextToken byte rest).2
termination_by bytes.length
decreasing_by
  · simp
  · exact Nat.lt_succ_of_le (length_of_nextToken byte rest)

/-- Every token has a start. -/
theorem length_starts (bytes : List UInt8) : (starts bytes).length = (tokens bytes).length := by
  fun_induction starts bytes with
  | case1 => simp [tokens]
  | case2 byte rest blank ih => rw [tokens, if_pos blank, ih]
  | case3 byte rest visible ih =>
    rw [tokens, if_neg visible, List.length_cons, List.length_cons, ih]

/-- What is left of a text at the start of the first of its last `count` tokens. -/
def lastStart (bytes : List UInt8) (count : Nat) : List UInt8 :=
  ((starts bytes)[(starts bytes).length - count]?).getD []

/-- What has not been looked at once the value of the token is known that starts the text. -/
def unseenAfter : List UInt8 → List UInt8
  | [] => []
  | byte :: rest =>
    match nextToken byte rest with
    | (.number _ _, rest) => rest.tail
    | (_, rest) => rest

/-- The end of the text that has not been looked at. -/
def Refusal.unseen (bytes : List UInt8) : Refusal → List UInt8
  | flawed flaw => flaw.unseen
  | misplaced _ ts => (lastStart bytes ts.length).tail
  | unwanted _ ts => unseenAfter (lastStart bytes ts.length)

/-- The failure to read a text that was refused. -/
def Refusal.failure (bytes : List UInt8) (refusal : Refusal) : Failure :=
  ⟨refusal.error, .after (bytes.take (bytes.length - (refusal.unseen bytes).length))⟩

end ChipVm.Json
