/-
# Instructions read back from their mnemonics

No two instructions are written alike.  The mnemonic of an instruction is a word and up to three
operands (`Instruction.phrase`), with a comma after every operand but the last and blanks in
between (`Phrase.text`).  All three can be undone:

* neither words nor operands hold blanks or commas, so that the text splits at its blanks
  (`Phrase.ofText?_text`);
* the operands differ in how they start, and an address differs from a byte by its third digit
  (`Operand.ofText?_text`);
* instructions with the same word differ in the kinds of their operands
  (`Instruction.ofPhrase?_phrase`).
-/
import Mathlib.Logic.Function.Basic
import ChipVm.Instruction.Mnemonic
import ChipVm.Proofs.Instruction.RoundTrip
import ChipVm.Proofs.Text.Hexadecimal

namespace ChipVm

/-! ## Operands -/

/-- The operands that are fixed words, for parts of the machine other than the registers. -/
inductive Keyword where
  /-- The index register. -/
  | index
  /-- Memory from where the index register points. -/
  | indexed
  /-- The delay timer. -/
  | delay
  /-- The sound timer. -/
  | sound
  /-- The next key press. -/
  | key
  /-- The sprite of a digit. -/
  | glyph
  /-- The decimal digits of a byte. -/
  | decimal
deriving DecidableEq

/-- How a keyword is written. -/
def Keyword.text : Keyword → String
  | index => "I"
  | indexed => "[I]"
  | delay => "DT"
  | sound => "ST"
  | key => "K"
  | glyph => "F"
  | decimal => "B"

/-- What can stand behind the word of an instruction. -/
inductive Operand where
  | register (x : Register)
  | address (address : UInt16)
  | byte (kk : UInt8)
  | height (rows : UInt8)
  | keyword (keyword : Keyword)
deriving DecidableEq

namespace Operand

/-- How an operand is written. -/
def text : Operand → String
  | register x => x.name
  | address a => Instruction.addressText a
  | byte kk => Instruction.byteText kk
  | height rows => toString rows.toNat
  | keyword word => word.text

/-- The operand that a text writes. -/
def ofText? : List Char → Option Operand
  | 'V' :: digits => (Text.hexNumber? digits).map fun n => register (Register.ofNat n)
  | '0' :: 'x' :: digits =>
    (Text.hexNumber? digits).map fun n =>
      if digits.length ≤ 2 then byte (UInt8.ofNat n) else address (UInt16.ofNat n)
  | ['I'] => some (keyword .index)
  | ['[', 'I', ']'] => some (keyword .indexed)
  | ['D', 'T'] => some (keyword .delay)
  | ['S', 'T'] => some (keyword .sound)
  | ['K'] => some (keyword .key)
  | ['F'] => some (keyword .glyph)
  | ['B'] => some (keyword .decimal)
  | digits =>
    if digits.all Char.isDigit then
      some (height (UInt8.ofNat (Nat.ofDigitChars 10 digits 0)))
    else
      none

lemma toList_register (x : Register) :
    (register x).text.toList = 'V' :: (Text.hex 1 x.index.val).toList := by
  simp [text, Register.name]

lemma toList_address (a : UInt16) :
    (address a).text.toList = '0' :: 'x' :: (Text.hex 3 a.toNat).toList := by
  simp [text, Instruction.addressText, Text.hexLiteral]

lemma toList_byte (kk : UInt8) :
    (byte kk).text.toList = '0' :: 'x' :: (Text.hex 2 kk.toNat).toList := by
  simp [text, Instruction.byteText, Text.hexLiteral]

lemma toList_height (rows : UInt8) :
    (height rows).text.toList = Nat.toDigits 10 rows.toNat :=
  Nat.toList_repr

lemma isDigit_of_mem_height {rows : UInt8} {c : Char} (h : c ∈ (height rows).text.toList) :
    c.isDigit = true := by
  rw [toList_height] at h
  exact Nat.isDigit_of_mem_toDigits (by decide) (by decide) h

/-- A run of decimal digits is no other operand. -/
lemma ofText?_digits {digits : List Char} (h : ∀ c ∈ digits, c.isDigit = true) :
    ofText? digits = some (height (UInt8.ofNat (Nat.ofDigitChars 10 digits 0))) := by
  unfold ofText?
  split
  case h_10 => rw [if_pos (List.all_eq_true.2 h)]
  all_goals simp at h

/-- Every operand is read back. -/
lemma ofText?_text (operand : Operand) : ofText? operand.text.toList = some operand := by
  cases operand with
  | register x =>
    have hindex : Register.ofNat x.index.val = x := by
      simp [Register.ofNat, Nat.mod_eq_of_lt x.index.isLt]
    rw [toList_register, ofText?, Text.hexNumber?_hex, Option.map_some, hindex]
  | address a =>
    have hlong : ¬(Text.hex 3 a.toNat).toList.length ≤ 2 := by
      rw [Text.length_hex]
      omega
    rw [toList_address, ofText?, Text.hexNumber?_hex, Option.map_some, if_neg hlong,
      UInt16.ofNat_toNat]
  | byte kk =>
    have hdigits : (Nat.toDigits 16 kk.toNat).length ≤ 2 :=
      (Nat.length_toDigits_le_iff (by decide) (by decide)).2 kk.toNat_lt
    have hshort : (Text.hex 2 kk.toNat).toList.length ≤ 2 := by
      rw [Text.length_hex]
      omega
    rw [toList_byte, ofText?, Text.hexNumber?_hex, Option.map_some, if_pos hshort,
      UInt8.ofNat_toNat]
  | height rows =>
    rw [ofText?_digits fun c hc => isDigit_of_mem_height hc, toList_height,
      Nat.ofDigitChars_ten_toDigits, UInt8.ofNat_toNat]
  | keyword word => cases word <;> rfl

lemma plain_of_mem_hex {width n : Nat} {c : Char} (h : c ∈ (Text.hex width n).toList) :
    c ≠ ' ' ∧ c ≠ ',' := by
  obtain ⟨value, hvalue⟩ := Text.exists_hexValue?_of_mem (Text.hexFrom?_hex width n) h
  constructor
  · rintro rfl
    simp [Text.hexValue?] at hvalue
  · rintro rfl
    simp [Text.hexValue?] at hvalue

/-- Operands hold neither blanks nor commas. -/
lemma plain_of_mem_text {operand : Operand} {c : Char} (h : c ∈ operand.text.toList) :
    c ≠ ' ' ∧ c ≠ ',' := by
  cases operand with
  | register x =>
    rw [toList_register, List.mem_cons] at h
    rcases h with rfl | h
    · decide
    · exact plain_of_mem_hex h
  | address a =>
    rw [toList_address, List.mem_cons, List.mem_cons] at h
    rcases h with rfl | rfl | h
    · decide
    · decide
    · exact plain_of_mem_hex h
  | byte kk =>
    rw [toList_byte, List.mem_cons, List.mem_cons] at h
    rcases h with rfl | rfl | h
    · decide
    · decide
    · exact plain_of_mem_hex h
  | height rows =>
    have hdigit := isDigit_of_mem_height h
    constructor
    · rintro rfl
      cases hdigit
    · rintro rfl
      cases hdigit
  | keyword word =>
    have hplain : ' ' ∉ word.text.toList ∧ ',' ∉ word.text.toList := by
      cases word <;> simp [Keyword.text]
    constructor
    · rintro rfl
      exact hplain.1 h
    · rintro rfl
      exact hplain.2 h

end Operand

/-! ## Phrases -/

/-- A word and its operands. -/
structure Phrase where
  /-- The word in front. -/
  word : String
  /-- The operands behind it. -/
  operands : List Operand
deriving DecidableEq

namespace Phrase

/-- Operands with a comma after every one but the last. -/
def listed : List Operand → List String
  | [] => []
  | [last] => [last.text]
  | operand :: rest => (operand.text ++ ",") :: listed rest

/-- How a phrase is written. -/
def text (phrase : Phrase) : String :=
  " ".intercalate (phrase.word :: listed phrase.operands)

/-- The phrase that a text writes. -/
def ofText? (text : String) : Option Phrase :=
  match text.toList.splitOn ' ' with
  | [] => none
  | word :: pieces =>
    (pieces.mapM fun piece => Operand.ofText? (piece.filter (· != ','))).map fun operands =>
      ⟨String.ofList word, operands⟩

lemma filter_text (operand : Operand) :
    operand.text.toList.filter (· != ',') = operand.text.toList := by
  rw [List.filter_eq_self]
  intro c hc
  simpa using (Operand.plain_of_mem_text hc).2

lemma not_blank_listed {operands : List Operand} {piece : String} (h : piece ∈ listed operands) :
    ' ' ∉ piece.toList := by
  have hplain : ∀ operand : Operand, ' ' ∉ operand.text.toList :=
    fun operand hblank => (Operand.plain_of_mem_text hblank).1 rfl
  fun_induction listed operands with
  | case1 => cases h
  | case2 last =>
    rw [List.mem_singleton] at h
    exact h ▸ hplain last
  | case3 operand rest _ ih =>
    rcases List.mem_cons.1 h with rfl | h
    · simp [hplain operand]
    · exact ih h

lemma filter_listed (operands : List Operand) :
    (listed operands).map (fun piece => piece.toList.filter (· != ','))
      = operands.map fun operand => operand.text.toList := by
  fun_induction listed operands with
  | case1 => rfl
  | case2 last => simp only [List.map_cons, List.map_nil, filter_text]
  | case3 operand rest _ ih => simp [ih, filter_text]

/-- A phrase is read back if its word holds no blank. -/
lemma ofText?_text {phrase : Phrase} (h : ' ' ∉ phrase.word.toList) :
    ofText? phrase.text = some phrase := by
  have hsplit : phrase.text.toList.splitOn ' '
      = phrase.word.toList :: (listed phrase.operands).map String.toList := by
    rw [text, String.toList_intercalate]
    refine List.splitOn_intercalate ' ' ?_ (List.cons_ne_nil _ _)
    intro piece hpiece
    rcases List.mem_cons.1 hpiece with rfl | hpiece
    · exact h
    · obtain ⟨piece, hlisted, rfl⟩ := List.mem_map.1 hpiece
      exact not_blank_listed hlisted
  have hoperands : ((listed phrase.operands).map String.toList).mapM
      (fun piece => Operand.ofText? (piece.filter (· != ','))) = some phrase.operands := by
    have hread := congrArg (List.mapM Operand.ofText?) (filter_listed phrase.operands)
    have hpure : phrase.operands.mapM some = some phrase.operands := by
      simpa using List.mapM_pure (m := Option) (l := phrase.operands) (f := id)
    simpa [Function.comp_def, Operand.ofText?_text, hpure] using hread
  rw [ofText?, hsplit]
  simp [hoperands]

end Phrase

/-! ## Instructions -/

/-- The operation that a word stands for. -/
def AluOp.ofWord? : String → Option AluOp
  | "LD" => some copy
  | "OR" => some or
  | "AND" => some and
  | "XOR" => some xor
  | "ADD" => some add
  | "SUB" => some sub
  | "SHR" => some shiftRight
  | "SUBN" => some subFrom
  | "SHL" => some shiftLeft
  | _ => none

namespace Instruction

/-- The word and the operands of an instruction. -/
def phrase : Instruction → Phrase
  | sys a => ⟨"SYS", [.address a]⟩
  | clear => ⟨"CLS", []⟩
  | ret => ⟨"RET", []⟩
  | jump a => ⟨"JP", [.address a]⟩
  | call a => ⟨"CALL", [.address a]⟩
  | skip (.holds x kk) => ⟨"SE", [.register x, .byte kk]⟩
  | skip (.lacks x kk) => ⟨"SNE", [.register x, .byte kk]⟩
  | skip (.same x y) => ⟨"SE", [.register x, .register y]⟩
  | skip (.differ x y) => ⟨"SNE", [.register x, .register y]⟩
  | skip (.pressed x) => ⟨"SKP", [.register x]⟩
  | skip (.released x) => ⟨"SKNP", [.register x]⟩
  | loadByte x kk => ⟨"LD", [.register x, .byte kk]⟩
  | addByte x kk => ⟨"ADD", [.register x, .byte kk]⟩
  | alu operation x y => ⟨operation.mnemonic, [.register x, .register y]⟩
  | loadIndex a => ⟨"LD", [.keyword .index, .address a]⟩
  | jumpOffset a => ⟨"JP", [.register Register.v0, .address a]⟩
  | random x kk => ⟨"RND", [.register x, .byte kk]⟩
  | draw x y height => ⟨"DRW", [.register x, .register y, .height height]⟩
  | loadDelay x => ⟨"LD", [.register x, .keyword .delay]⟩
  | awaitKey x => ⟨"LD", [.register x, .keyword .key]⟩
  | setDelay x => ⟨"LD", [.keyword .delay, .register x]⟩
  | setSound x => ⟨"LD", [.keyword .sound, .register x]⟩
  | addIndex x => ⟨"ADD", [.keyword .index, .register x]⟩
  | loadGlyph x => ⟨"LD", [.keyword .glyph, .register x]⟩
  | storeDecimal x => ⟨"LD", [.keyword .decimal, .register x]⟩
  | storeThrough x => ⟨"LD", [.keyword .indexed, .register x]⟩
  | loadThrough x => ⟨"LD", [.register x, .keyword .indexed]⟩

/-- The instruction that a word and its operands make up. -/
def ofPhrase? (phrase : Phrase) : Option Instruction :=
  match phrase.word, phrase.operands with
  | "SYS", [.address a] => some (sys a)
  | "CLS", [] => some clear
  | "RET", [] => some ret
  | "JP", [.address a] => some (jump a)
  | "CALL", [.address a] => some (call a)
  | "SE", [.register x, .byte kk] => some (skip (.holds x kk))
  | "SNE", [.register x, .byte kk] => some (skip (.lacks x kk))
  | "SE", [.register x, .register y] => some (skip (.same x y))
  | "SNE", [.register x, .register y] => some (skip (.differ x y))
  | "SKP", [.register x] => some (skip (.pressed x))
  | "SKNP", [.register x] => some (skip (.released x))
  | "LD", [.register x, .byte kk] => some (loadByte x kk)
  | "ADD", [.register x, .byte kk] => some (addByte x kk)
  | "LD", [.keyword .index, .address a] => some (loadIndex a)
  | "JP", [.register x, .address a] => if x = Register.v0 then some (jumpOffset a) else none
  | "RND", [.register x, .byte kk] => some (random x kk)
  | "DRW", [.register x, .register y, .height height] => some (draw x y height)
  | "LD", [.register x, .keyword .delay] => some (loadDelay x)
  | "LD", [.register x, .keyword .key] => some (awaitKey x)
  | "LD", [.keyword .delay, .register x] => some (setDelay x)
  | "LD", [.keyword .sound, .register x] => some (setSound x)
  | "ADD", [.keyword .index, .register x] => some (addIndex x)
  | "LD", [.keyword .glyph, .register x] => some (loadGlyph x)
  | "LD", [.keyword .decimal, .register x] => some (storeDecimal x)
  | "LD", [.keyword .indexed, .register x] => some (storeThrough x)
  | "LD", [.register x, .keyword .indexed] => some (loadThrough x)
  | word, [.register x, .register y] =>
    (AluOp.ofWord? word).map fun operation => alu operation x y
  | _, _ => none

lemma mnemonic_eq_text (i : Instruction) : i.mnemonic = i.phrase.text := by
  have hfirst : Register.v0.name = "V0" := by decide
  rw [← String.toList_inj]
  cases i with
  | skip condition =>
    cases condition <;> simp [mnemonic, phrase, Phrase.text, Phrase.listed, Operand.text]
  | _ =>
    simp [mnemonic, phrase, Phrase.text, Phrase.listed, Operand.text, Keyword.text, hfirst]

lemma ofPhrase?_phrase (i : Instruction) : ofPhrase? i.phrase = some i := by
  cases i with
  | skip condition => cases condition <;> rfl
  | alu operation x y => cases operation <;> rfl
  | _ => rfl

lemma not_blank_word (i : Instruction) : ' ' ∉ i.phrase.word.toList := by
  cases i with
  | skip condition => cases condition <;> simp [phrase]
  | alu operation x y => cases operation <;> simp [phrase, AluOp.mnemonic]
  | _ => simp [phrase]

/-- The instruction that a mnemonic writes. -/
def ofMnemonic? (text : String) : Option Instruction :=
  (Phrase.ofText? text).bind ofPhrase?

lemma ofMnemonic?_mnemonic (i : Instruction) : ofMnemonic? i.mnemonic = some i := by
  rw [ofMnemonic?, mnemonic_eq_text, Phrase.ofText?_text i.not_blank_word, Option.bind_some,
    ofPhrase?_phrase]

lemma mnemonic_injective : Function.Injective mnemonic := by
  intro i j h
  have hi := ofMnemonic?_mnemonic i
  rw [h, ofMnemonic?_mnemonic] at hi
  exact (Option.some.inj hi).symm

/-- Instructions with the same mnemonic are the same, also where their operands are too wide for
an opcode; so opcodes whose instructions have the same mnemonic are the same. -/
theorem mnemonics_are_unambiguous :
    (∀ i j : Instruction, i.mnemonic = j.mnemonic → i = j) ∧
    ∀ (op op' : UInt16) (i j : Instruction), decode op = some i → decode op' = some j →
      i.mnemonic = j.mnemonic → op = op' := by
  refine ⟨fun i j h => mnemonic_injective h, ?_⟩
  intro op op' i j hop hop' h
  obtain rfl := mnemonic_injective h
  exact (encode_of_decode hop).symm.trans (encode_of_decode hop')

/-- Two instructions that only differ in how many digits their operand takes, and the opcode that
alone is written `ADD VA, VB`. -/
theorem mnemonics_are_unambiguous_additions :
    (jumpOffset 0x22).mnemonic = "JP V0, 0x022" ∧
    (jumpOffset 0x22).mnemonic ≠ (jumpOffset 0x2022).mnemonic ∧
    decode 0x8AB4 = some (alu .add (Register.ofNat 10) (Register.ofNat 11)) ∧
    (alu .add (Register.ofNat 10) (Register.ofNat 11)).mnemonic = "ADD VA, VB" ∧
    (alu .add (Register.ofNat 10) (Register.ofNat 11)).encode = 0x8AB4 := by
  have hdecode : decode 0x8AB4 = some (alu .add (Register.ofNat 10) (Register.ofNat 11)) := by
    decide
  refine ⟨by decide, ?_, hdecode, by decide, ?_⟩
  · intro h
    cases mnemonics_are_unambiguous.1 _ _ h
  · exact mnemonics_are_unambiguous.2 _ 0x8AB4 _ _ (by decide) hdecode rfl

end Instruction

end ChipVm
