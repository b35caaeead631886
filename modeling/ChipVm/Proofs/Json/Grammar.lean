/-
# The grammar of JSON texts

Which texts are values, said without reading them.  A text is a list of characters, and a
production of the grammar says how it is put together from shorter ones:

* `Numeral` has the numbers, and `WholeNumber` those among them that are plain whole numbers;
* `Quotable` has what may stand between quotes, and `Spells` says which characters it stands for,
  if it stands for any: the escape of half a surrogate pair is well formed, but means nothing;
* `Derives` has the values, nested to any depth, with white space wherever it is allowed.

An object is also described by its members.  `ObjectOf` has the objects whose members are a given
list of things, each of which has a name and a way to be written.
-/
import Mathlib.Tactic.Lemma

namespace ChipVm.Json.Grammar

/-- White space. -/
def Blank (text : List Char) : Prop := ∀ c ∈ text, c = ' ' ∨ c = '\t' ∨ c = '\n' ∨ c = '\r'

instance (text : List Char) : Decidable (Blank text) := List.decidableBAll _ text

/-! ## Numbers -/

/-- One digit or more. -/
def Digits (text : List Char) : Prop := text ≠ [] ∧ ∀ c ∈ text, c.isDigit = true

instance (text : List Char) : Decidable (Digits text) :=
  @instDecidableAnd _ _ inferInstance (List.decidableBAll _ text)

/-- Digits without a superfluous zero in front. -/
def Whole (text : List Char) : Prop :=
  Digits text ∧ (text.head? = some '0' → text.length = 1)

instance (text : List Char) : Decidable (Whole text) := inferInstanceAs (Decidable (_ ∧ _))

/-- The fraction of a number. -/
inductive Fraction : List Char → Prop where
  | absent : Fraction []
  | given {digits : List Char} (h : Digits digits) : Fraction ('.' :: digits)

/-- The exponent of a number. -/
inductive Exponent : List Char → Prop where
  | absent : Exponent []
  | given {letter : Char} {sign digits : List Char} (hletter : letter = 'e' ∨ letter = 'E')
      (hsign : sign = [] ∨ sign = ['+'] ∨ sign = ['-']) (h : Digits digits) :
      Exponent (letter :: (sign ++ digits))

/-- Numbers. -/
inductive Numeral : List Char → Prop where
  | intro {sign whole fraction exponent : List Char} (hsign : sign = [] ∨ sign = ['-'])
      (hwhole : Whole whole) (hfraction : Fraction fraction) (hexponent : Exponent exponent) :
      Numeral (sign ++ whole ++ fraction ++ exponent)

/-- The plain whole number `n`. -/
def WholeNumber (n : Nat) (text : List Char) : Prop :=
  Whole text ∧ Nat.ofDigitChars 10 text 0 = n

instance (n : Nat) (text : List Char) : Decidable (WholeNumber n text) :=
  inferInstanceAs (Decidable (_ ∧ _))

/-! ## Strings -/

/-- The character that a letter after a backslash stands for. -/
def escape? : Char → Option Char
  | '"' => some '"'
  | '\\' => some '\\'
  | '/' => some '/'
  | 'b' => some '\x08'
  | 'f' => some '\x0c'
  | 'n' => some '\n'
  | 'r' => some '\r'
  | 't' => some '\t'
  | _ => none

/-- The value of a hexadecimal digit. -/
def hexDigit? (c : Char) : Option Nat :=
  if '0' ≤ c ∧ c ≤ '9' then some (c.toNat - '0'.toNat)
  else if 'A' ≤ c ∧ c ≤ 'F' then some (c.toNat - 'A'.toNat + 10)
  else if 'a' ≤ c ∧ c ≤ 'f' then some (c.toNat - 'a'.toNat + 10)
  else none

/-- The code unit that four hexadecimal digits name. -/
def codeUnit? (a b c d : Char) : Option Nat :=
  match hexDigit? a, hexDigit? b, hexDigit? c, hexDigit? d with
  | some a, some b, some c, some d => some (0x1000 * a + 0x100 * b + 0x10 * c + d)
  | _, _, _, _ => none

/-- A character that stands for itself between quotes. -/
def Plain (c : Char) : Prop := ' ' ≤ c ∧ c ≠ '"' ∧ c ≠ '\\'

instance (c : Char) : Decidable (Plain c) := inferInstanceAs (Decidable (_ ∧ _))

/-- Characters that stand for themselves between quotes. -/
def PlainText (text : List Char) : Prop := ∀ c ∈ text, Plain c

instance (text : List Char) : Decidable (PlainText text) := List.decidableBAll _ text

/-- What may stand between quotes. -/
inductive Quotable : List Char → Prop where
  | nil : Quotable []
  | plain {c : Char} {text : List Char} (hc : Plain c) (h : Quotable text) : Quotable (c :: text)
  | escape {letter : Char} {text : List Char} (hletter : (escape? letter).isSome)
      (h : Quotable text) : Quotable ('\\' :: letter :: text)
  | unit {a b c d : Char} {text : List Char} (hunit : (codeUnit? a b c d).isSome)
      (h : Quotable text) : Quotable ('\\' :: 'u' :: a :: b :: c :: d :: text)

/-- The characters that what stands between quotes stands for.  A character beyond the first plane
takes the escapes of two code units, a leading and a trailing surrogate. -/
inductive Spells : List Char → List Char → Prop where
  | nil : Spells [] []
  | plain {c : Char} {text rest : List Char} (hc : Plain c) (h : Spells text rest) :
      Spells (c :: text) (c :: rest)
  | escape {letter c : Char} {text rest : List Char} (hletter : escape? letter = some c)
      (h : Spells text rest) : Spells ('\\' :: letter :: text) (c :: rest)
  | unit {a b c d : Char} {unit : Nat} {text rest : List Char}
      (hunit : codeUnit? a b c d = some unit) (hsingle : unit < 0xD800 ∨ 0xE000 ≤ unit)
      (h : Spells text rest) :
      Spells ('\\' :: 'u' :: a :: b :: c :: d :: text) (Char.ofNat unit :: rest)
  | pair {a b c d a' b' c' d' : Char} {leading trailing : Nat} {text rest : List Char}
      (hleading : codeUnit? a b c d = some leading) (hfirst : 0xD800 ≤ leading ∧ leading < 0xDC00)
      (htrailing : codeUnit? a' b' c' d' = some trailing)
      (hsecond : 0xDC00 ≤ trailing ∧ trailing < 0xE000) (h : Spells text rest) :
      Spells ('\\' :: 'u' :: a :: b :: c :: d :: '\\' :: 'u' :: a' :: b' :: c' :: d' :: text)
        (Char.ofNat (0x10000 + (leading - 0xD800) * 0x400 + (trailing - 0xDC00)) :: rest)

/-- A text in quotes. -/
def Quoted (text : List Char) : Prop := ∃ inner, Quotable inner ∧ text = '"' :: (inner ++ ['"'])

/-- A name in quotes, however it is spelt. -/
def Named (name : String) (text : List Char) : Prop :=
  ∃ inner, Spells inner name.toList ∧ text = '"' :: (inner ++ ['"'])

lemma Spells.quotable {text rest : List Char} (h : Spells text rest) : Quotable text := by
  induction h with
  | nil => exact .nil
  | plain hc _ ih => exact .plain hc ih
  | escape hletter _ ih => exact .escape (by simp [hletter]) ih
  | unit hunit _ _ ih => exact .unit (by simp [hunit]) ih
  | pair hleading _ htrailing _ _ ih =>
    exact .unit (by simp [hleading]) (.unit (by simp [htrailing]) ih)

/-- Plain characters spell themselves. -/
lemma spells_self {text : List Char} (h : PlainText text) : Spells text text := by
  induction text with
  | nil => exact .nil
  | cons c text ih =>
    exact .plain (h c List.mem_cons_self) (ih fun c hc => h c (List.mem_cons_of_mem _ hc))

/-- A name in quotes as it is. -/
def quote (name : String) : List Char := '"' :: (name.toList ++ ['"'])

lemma named_quote {name : String} (h : PlainText name.toList) : Named name (quote name) :=
  ⟨name.toList, spells_self h, rfl⟩

/-! ## Values -/

/-- The word for a truth value. -/
inductive Boolean : Bool → List Char → Prop where
  | true : Boolean true ['t', 'r', 'u', 'e']
  | false : Boolean false ['f', 'a', 'l', 's', 'e']

/-- What is derived: a value, or what stands between the brackets of a list or of an object that is
not empty. -/
inductive Form where
  | value
  | elements
  | members

/-- The values of JSON, with no white space around them. -/
inductive Derives : Form → List Char → Prop where
  | null : Derives .value ['n', 'u', 'l', 'l']
  | boolean {value : Bool} {text : List Char} (h : Boolean value text) : Derives .value text
  | number {text : List Char} (h : Numeral text) : Derives .value text
  | string {text : List Char} (h : Quoted text) : Derives .value text
  | emptyList {blank : List Char} (h : Blank blank) : Derives .value ('[' :: (blank ++ [']']))
  | list {elements : List Char} (h : Derives .elements elements) :
      Derives .value ('[' :: (elements ++ [']']))
  | emptyObject {blank : List Char} (h : Blank blank) :
      Derives .value ('{' :: (blank ++ ['}']))
  | object {members : List Char} (h : Derives .members members) :
      Derives .value ('{' :: (members ++ ['}']))
  /-- The only element, or the last one. -/
  | element {before value after : List Char} (hbefore : Blank before)
      (hvalue : Derives .value value) (hafter : Blank after) :
      Derives .elements (before ++ value ++ after)
  | elements {before value after rest : List Char} (hbefore : Blank before)
      (hvalue : Derives .value value) (hafter : Blank after) (hrest : Derives .elements rest) :
      Derives .elements (before ++ value ++ after ++ ',' :: rest)
  /-- The only member, or the last one. -/
  | member {before name gap gap' value after : List Char} (hbefore : Blank before)
      (hname : Quoted name) (hgap : Blank gap) (hgap' : Blank gap')
      (hvalue : Derives .value value) (hafter : Blank after) :
      Derives .members (before ++ name ++ gap ++ ':' :: gap' ++ value ++ after)
  | members {before name gap gap' value after rest : List Char} (hbefore : Blank before)
      (hname : Quoted name) (hgap : Blank gap) (hgap' : Blank gap')
      (hvalue : Derives .value value) (hafter : Blank after) (hrest : Derives .members rest) :
      Derives .members (before ++ name ++ gap ++ ':' :: gap' ++ value ++ after ++ ',' :: rest)

/-! ## Objects by their members -/

/-- The members of an object that is not empty, each with its name and written its way.  How a
member may be written can depend on the names of the members before it. -/
inductive MembersOf {μ : Type} (name : μ → String) (Writes : List String → μ → List Char → Prop) :
    List String → List μ → List Char → Prop where
  | last {seen : List String} {member : μ} {before key gap gap' value after : List Char}
      (hbefore : Blank before) (hkey : Named (name member) key) (hgap : Blank gap)
      (hgap' : Blank gap') (hvalue : Writes seen member value) (hafter : Blank after) :
      MembersOf name Writes seen [member] (before ++ key ++ gap ++ ':' :: gap' ++ value ++ after)
  | more {seen : List String} {member : μ} {members : List μ}
      {before key gap gap' value after rest : List Char}
      (hbefore : Blank before) (hkey : Named (name member) key) (hgap : Blank gap)
      (hgap' : Blank gap') (hvalue : Writes seen member value) (hafter : Blank after)
      (hrest : MembersOf name Writes (name member :: seen) members rest) :
      MembersOf name Writes seen (member :: members)
        (before ++ key ++ gap ++ ':' :: gap' ++ value ++ after ++ ',' :: rest)

/-- An object with these members, in this order. -/
inductive ObjectOf {μ : Type} (name : μ → String) (Writes : List String → μ → List Char → Prop) :
    List μ → List Char → Prop where
  | empty {blank : List Char} (h : Blank blank) :
      ObjectOf name Writes [] ('{' :: (blank ++ ['}']))
  | members {members : List μ} {inner : List Char} (h : MembersOf name Writes [] members inner) :
      ObjectOf name Writes members ('{' :: (inner ++ ['}']))

end ChipVm.Json.Grammar
