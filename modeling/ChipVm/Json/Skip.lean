/-
# Passing over a value

A value that nobody asks for is passed over: its form is checked and nothing else.  The brackets
that are open stand in a list, innermost first, so a value may be nested to any depth.
-/
import ChipVm.Json.Refusal

namespace ChipVm.Json

/-- A bracket that is open. -/
inductive Bracket where
  | object
  | list
deriving DecidableEq, Repr

/-- Where in a value the next token stands. -/
inductive Place where
  /-- A value is due. -/
  | value
  /-- The first element or the end of a list is due. -/
  | listStart
  /-- The first key or the end of an object is due. -/
  | objectStart
  /-- A key is due. -/
  | key
  /-- The colon after a key is due. -/
  | colon
  /-- A value has just ended. -/
  | after
deriving DecidableEq, Repr

/-- Where a token leads that starts a value. -/
def startValue (outer : List Bracket) : Token → Except Objection (Place × List Bracket)
  | .word (.ok _) => .ok (.after, outer)
  | .word (.error flaw) => .error (.flawed flaw)
  | .number _ none => .ok (.after, outer)
  | .number _ (some flaw) => .error (.flawed flaw)
  | .text _ none => .ok (.after, outer)
  | .text _ (some flaw) => .error (.flawed flaw)
  | .openList => .ok (.listStart, .list :: outer)
  | .openObject => .ok (.objectStart, .object :: outer)
  | _ => .error (.misplaced .expectedValue)

/-- Where a token leads that is a key. -/
def startMember (outer : List Bracket) : Token → Except Objection (Place × List Bracket)
  | .text _ none => .ok (.colon, outer)
  | .text _ (some flaw) => .error (.flawed flaw)
  | _ => .error (.misplaced .keyNotString)

/-- Where a token leads that follows a value. -/
def afterValue (outer : List Bracket) (t : Token) : Except Objection (Place × List Bracket) :=
  match outer, t with
  | .list :: _, .comma => .ok (.value, outer)
  | .list :: rest, .closeList => .ok (.after, rest)
  | .list :: _, _ => .error (.misplaced .expectedCommaOrBracket)
  | .object :: _, .comma => .ok (.key, outer)
  | .object :: rest, .closeObject => .ok (.after, rest)
  | .object :: _, _ => .error (.misplaced .expectedCommaOrBrace)
  | [], _ => .error (.misplaced .trailingCharacters)

/-- Where a token leads. -/
def follow (place : Place) (outer : List Bracket) (t : Token) :
    Except Objection (Place × List Bracket) :=
  match place, t with
  | .listStart, .closeList => .ok (.after, outer.tail)
  | .objectStart, .closeObject => .ok (.after, outer.tail)
  | .colon, .colon => .ok (.value, outer)
  | .value, t => startValue outer t
  | .listStart, t => startValue outer t
  | .objectStart, t => startMember outer t
  | .key, t => startMember outer t
  | .colon, _ => .error (.misplaced .expectedColon)
  | .after, t => afterValue outer t

/-- What is to be said when no token is left. -/
def atEnd : Place → List Bracket → Error
  | .value, _ => .endInValue
  | .listStart, _ => .endInList
  | .after, .list :: _ => .endInList
  | _, _ => .endInObject

/-- What is left once the value has ended and all brackets are closed. -/
def skip (place : Place) (outer : List Bracket) (ts : List Token) :
    Except Refusal (List Token) :=
  match place, outer, ts with
  | .after, [], ts => .ok ts
  | place, outer, [] => .error (.misplaced (atEnd place outer) [])
  | place, outer, t :: ts =>
    match follow place outer t with
    | .error objection => .error (objection.against (t :: ts))
    | .ok (place, outer) => skip place outer ts

theorem length_of_skip {place : Place} {outer : List Bracket} {ts rest : List Token}
    (h : skip place outer ts = .ok rest) : rest.length ≤ ts.length := by
  fun_induction skip place outer ts with
  | case1 => simp_all
  | case2 => simp at h
  | case3 => simp at h
  | case4 _ _ _ _ _ _ _ _ ih => exact Nat.le_succ_of_le (ih h)

end ChipVm.Json
