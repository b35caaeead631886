/-
# Reading records

A record is read from an object that names its fields in any order, or from a list that gives
them in theirs.  Fields that are not given keep the values they start from.  A field given twice
is an error; members that are no fields are passed over.

A reader takes tokens from the front and hands back fewer than it was given, so reading ends.
-/
import ChipVm.Json.Skip

namespace ChipVm.Json

/-- What is left of some tokens after at least one of them was taken. -/
abbrev Rest (ts : List Token) := { rest : List Token // rest.length < ts.length }

/-- Reads a value from the front of some tokens. -/
abbrev Reader (α : Type) := (ts : List Token) → Except Refusal (α × Rest ts)

/-- What was found, of a token that starts a value. -/
def found : Token → Except Objection Found
  | .word (.ok .null) => .ok .null
  | .word (.ok (.bool value)) => .ok (.bool value)
  | .word (.error flaw) => .error (.flawed flaw)
  | .number (.ok value) _ => .ok (.number value)
  | .number (.error flaw) _ => .error (.flawed flaw)
  | .text (.ok value) _ => .ok (.text value)
  | .text (.error flaw) _ => .error (.flawed flaw)
  | .openList => .ok .list
  | .openObject => .ok .object
  | _ => .error (.misplaced .expectedValue)

/-- The refusal of a token, in front of others, that is not what was wanted.  Lists and objects are
refused at their brackets, other values for what they are. -/
def mismatch (wanted : String) (t : Token) (ts : List Token) : Refusal :=
  match found t with
  | .ok .list => .misplaced (.wrongType .list wanted) (t :: ts)
  | .ok .object => .misplaced (.wrongType .object wanted) (t :: ts)
  | .ok found => .unwanted (.wrongType found wanted) (t :: ts)
  | .error objection => objection.against (t :: ts)

/-- Passes over a value. -/
def skipValue : Reader Unit
  | [] => .error (.misplaced .endInValue [])
  | t :: ts =>
    match follow .value [] t with
    | .error objection => .error (objection.against (t :: ts))
    | .ok (place, outer) =>
      match h : skip place outer ts with
      | .error refusal => .error refusal
      | .ok rest => .ok ((), ⟨rest, Nat.lt_succ_of_le (length_of_skip h)⟩)

/-- Reads `true` or `false`. -/
def readBool : Reader Bool
  | [] => .error (.misplaced .endInValue [])
  | .word (.ok (.bool value)) :: ts => .ok (value, ⟨ts, Nat.lt_succ_self _⟩)
  | t :: ts => .error (mismatch "a boolean" t ts)

/-- Reads a whole number below `bound`. -/
def readWhole (bound : Nat) (wanted : String) : Reader Nat
  | [] => .error (.misplaced .endInValue [])
  | t :: ts =>
    match t with
    | .number (.ok (.whole n)) _ =>
      if n < bound then .ok (n, ⟨ts, Nat.lt_succ_self _⟩)
      else .error (.unwanted (.outOfRange (.whole n) wanted) (t :: ts))
    | .number (.ok (.negative n)) _ =>
      .error (.unwanted (.outOfRange (.negative n) wanted) (t :: ts))
    | t => .error (mismatch wanted t ts)

/-- Reads a value that may be `null`. -/
def readNullable {α : Type} (reader : Reader α) : Reader (Option α)
  | .word (.ok .null) :: ts => .ok (none, ⟨ts, Nat.lt_succ_self _⟩)
  | .word (.error flaw) :: _ => .error (.flawed flaw)
  | ts =>
    match reader ts with
    | .error refusal => .error refusal
    | .ok (value, rest) => .ok (some value, rest)

/-- A field of a record: its name, and how its value is read and put into the record. -/
structure Field (α : Type) where
  /-- The name of the field. -/
  name : String
  /-- Reads the field, as a change to the record. -/
  read : Reader (α → α)

/-- Makes a reader into one of changes. -/
def Reader.into {α β : Type} (reader : Reader β) (put : β → α → α) : Reader (α → α) := fun ts =>
  match reader ts with
  | .error refusal => .error refusal
  | .ok (value, rest) => .ok (put value, rest)

/-- The shape of a record. -/
structure Shape (α : Type) where
  /-- What the record is called. -/
  title : String
  /-- Its fields in order. -/
  fields : List (Field α)

/-- Reads the value of a member: into the field of that name if there is one, else past it.  The
names of the fields met before and this one are kept. -/
def readMember {α : Type} (fields : List (Field α)) (met : List String) (name : String) :
    Reader ((α → α) × List String) := fun ts =>
  match fields.find? fun field => field.name == name with
  | some field =>
    match field.read ts with
    | .error refusal => .error refusal
    | .ok (change, rest) => .ok ((change, name :: met), rest)
  | none =>
    match skipValue ts with
    | .error refusal => .error refusal
    | .ok ((), rest) => .ok ((id, met), rest)

/-- What is left after the colon that is due. -/
def passColon (ts : List Token) : Except Refusal (Rest ts) :=
  match ts with
  | [] => .error (.misplaced .endInObject [])
  | .colon :: rest => .ok ⟨rest, Nat.lt_succ_self _⟩
  | ts => .error (.misplaced .expectedColon ts)

/-- Reads the members of an object up to its end, from where a key is due.  `met` are the fields
that were given before; one of them given again is refused at what follows its name. -/
def readMembers {α : Type} (fields : List (Field α)) (met : List String) (record : α)
    (ts : List Token) : Except Refusal (α × Rest ts) :=
  match ts with
  | .text (.error flaw) _ :: _ => .error (.flawed flaw)
  | .text (.ok name) _ :: ts =>
    if name ∈ met then .error (.misplaced (.duplicateField name) ts)
    else
      match passColon ts with
      | .error refusal => .error refusal
      | .ok ⟨ts₁, h₁⟩ =>
        match readMember fields met name ts₁ with
        | .error refusal => .error refusal
        | .ok ((change, met), ⟨ts₂, h₂⟩) =>
          match ts₂ with
          | [] => .error (.misplaced .endInObject [])
          | .closeObject :: rest =>
            .ok (change record, ⟨rest, by simp only [List.length_cons] at h₂ ⊢; omega⟩)
          | .comma :: [] => .error (.misplaced .endInValue [])
          | .comma :: .closeObject :: rest =>
            .error (.misplaced .trailingComma (.closeObject :: rest))
          | .comma :: ts₃ =>
            match readMembers fields met (change record) ts₃ with
            | .error refusal => .error refusal
            | .ok (record, ⟨rest, h₃⟩) =>
              .ok (record, ⟨rest, by simp only [List.length_cons] at h₂ ⊢; omega⟩)
          | other => .error (.misplaced .expectedCommaOrBrace other)
  | ts => .error (.misplaced .keyNotString ts)
termination_by ts.length
decreasing_by
  simp only [List.length_cons] at h₂ ⊢
  omega

/-- Reads the rest of an object whose brace has been passed. -/
def readObject {α : Type} (fields : List (Field α)) (record : α) (ts : List Token) :
    Except Refusal (α × Rest ts) :=
  match ts with
  | [] => .error (.misplaced .endInObject [])
  | .closeObject :: rest => .ok (record, ⟨rest, Nat.lt_succ_self _⟩)
  | ts => readMembers fields [] record ts

/-- What is left after the end of a list all of whose fields have been given. -/
def passListEnd (ts : List Token) : Except Refusal (Rest ts) :=
  match ts with
  | [] => .error (.misplaced .endInList [])
  | .closeList :: rest => .ok ⟨rest, Nat.lt_succ_self _⟩
  | .comma :: .closeList :: rest => .error (.misplaced .trailingComma (.closeList :: rest))
  | .comma :: rest => .error (.misplaced .trailingCharacters rest)
  | ts => .error (.misplaced .trailingCharacters ts)

/-- Reads the elements of a list after the first, for the fields that are left. -/
def readElements {α : Type} : List (Field α) → α → (ts : List Token) → Except Refusal (α × Rest ts)
  | [], record, ts =>
    match passListEnd ts with
    | .error refusal => .error refusal
    | .ok rest => .ok (record, rest)
  | field :: fields, record, ts =>
    match ts with
    | [] => .error (.misplaced .endInList [])
    | .closeList :: rest => .ok (record, ⟨rest, Nat.lt_succ_self _⟩)
    | .comma :: [] => .error (.misplaced .endInValue [])
    | .comma :: .closeList :: rest => .error (.misplaced .trailingComma (.closeList :: rest))
    | .comma :: ts₁ =>
      match field.read ts₁ with
      | .error refusal => .error refusal
      | .ok (change, ⟨ts₂, h₂⟩) =>
        match readElements fields (change record) ts₂ with
        | .error refusal => .error refusal
        | .ok (record, ⟨rest, h₃⟩) =>
          .ok (record, ⟨rest, by simp only [List.length_cons]; omega⟩)
    | ts => .error (.misplaced .expectedCommaOrBracket ts)

/-- Reads the rest of a list whose bracket has been passed. -/
def readList {α : Type} (fields : List (Field α)) (record : α) (ts : List Token) :
    Except Refusal (α × Rest ts) :=
  match fields, ts with
  | _, [] => .error (.misplaced .endInList [])
  | _, .closeList :: rest => .ok (record, ⟨rest, Nat.lt_succ_self _⟩)
  | [], ts =>
    match passListEnd ts with
    | .error refusal => .error refusal
    | .ok rest => .ok (record, rest)
  | field :: fields, ts =>
    match field.read ts with
    | .error refusal => .error refusal
    | .ok (change, ⟨ts₁, h₁⟩) =>
      match readElements fields (change record) ts₁ with
      | .error refusal => .error refusal
      | .ok (record, ⟨rest, h₂⟩) => .ok (record, ⟨rest, by omega⟩)

/-- Reads a record that starts from the given one. -/
def readRecord {α : Type} (shape : Shape α) (start : α) : Reader α := fun ts =>
  match ts with
  | [] => .error (.misplaced .endInValue [])
  | .openObject :: ts =>
    match readObject shape.fields start ts with
    | .error refusal => .error refusal
    | .ok (record, ⟨rest, h⟩) => .ok (record, ⟨rest, Nat.lt_succ_of_lt h⟩)
  | .openList :: ts =>
    match readList shape.fields start ts with
    | .error refusal => .error refusal
    | .ok (record, ⟨rest, h⟩) => .ok (record, ⟨rest, Nat.lt_succ_of_lt h⟩)
  | t :: ts => .error (mismatch shape.title t ts)

/-- The value of a whole text, after which nothing may follow. -/
def readAll {α : Type} (reader : Reader α) (bytes : List UInt8) : Except Failure α :=
  match reader (tokens bytes) with
  | .error refusal => .error (refusal.failure bytes)
  | .ok (value, ⟨[], _⟩) => .ok value
  | .ok (_, ⟨t :: ts, _⟩) =>
    .error (Refusal.failure bytes (.misplaced .trailingCharacters (t :: ts)))

end ChipVm.Json
