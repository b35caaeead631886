/-
# Opcodes and instructions correspond

`Instruction.decode` and `Instruction.encode` are two tables written independently of each other.
They agree in both directions:

* an opcode that is read as an instruction is the opcode of that instruction;
* the opcode of an instruction is read as that instruction with its operands cut to the width of
  their places.

The tables share nothing but the layout of an opcode, so the layout comes first: what is packed
into a place of an opcode is found there again, and an opcode is the packing of what is found in
its places.  Each entry of the tables is then one rewriting step.
-/
import Mathlib.Tactic.Lemma
import ChipVm.Instruction.Encoding

namespace ChipVm

namespace Register

/-- A register is one nibble. -/
lemma val_index_lt (x : Register) : x.index.val < 0x10 := x.index.isLt

lemma ofNat_eq {n : Nat} {x : Register} (h : n % 0x10 = x.index.val) : ofNat n = x := by
  obtain ⟨index⟩ := x
  exact congrArg Register.mk (Fin.ext h)

end Register

namespace Opcode

/-! ## What is packed is found again -/

section Packing

variable {f k : Nat}

lemma toNat_ofAddress (hf : f < 0x10) (address : UInt16) :
    (ofAddress f address).toNat = f * 0x1000 + address.toNat % 0x1000 := by
  rw [ofAddress, UInt16.toNat_ofNat']
  exact Nat.mod_eq_of_lt (by omega)

lemma toNat_ofByte (hf : f < 0x10) (x : Register) (hk : k < 0x100) :
    (ofByte f x k).toNat = f * 0x1000 + x.index.val * 0x100 + k := by
  have hx := x.val_index_lt
  rw [ofByte, UInt16.toNat_ofNat']
  exact Nat.mod_eq_of_lt (by omega)

lemma toNat_ofNibble (hf : f < 0x10) (x y : Register) (k : Nat) :
    (ofNibble f x y k).toNat
      = f * 0x1000 + x.index.val * 0x100 + y.index.val * 0x10 + k % 0x10 := by
  have hx := x.val_index_lt
  have hy := y.val_index_lt
  rw [ofNibble, UInt16.toNat_ofNat']
  exact Nat.mod_eq_of_lt (by omega)

lemma family_ofAddress (hf : f < 0x10) (address : UInt16) :
    family (ofAddress f address) = f := by
  rw [family, toNat_ofAddress hf]
  omega

lemma address_ofAddress (hf : f < 0x10) (a : UInt16) :
    address (ofAddress f a) = Instruction.cutAddress a := by
  rw [address, Instruction.cutAddress, toNat_ofAddress hf]
  congr 1
  omega

lemma family_ofByte (hf : f < 0x10) (x : Register) (hk : k < 0x100) :
    family (ofByte f x k) = f := by
  have hx := x.val_index_lt
  rw [family, toNat_ofByte hf x hk]
  omega

lemma x_ofByte (hf : f < 0x10) (r : Register) (hk : k < 0x100) : x (ofByte f r k) = r := by
  have hr := r.val_index_lt
  rw [x, toNat_ofByte hf r hk]
  exact Register.ofNat_eq (by omega)

lemma kk_ofByte (hf : f < 0x10) (r : Register) (hk : k < 0x100) : kk (ofByte f r k) = k := by
  rw [kk, toNat_ofByte hf r hk]
  omega

lemma family_ofNibble (hf : f < 0x10) (x y : Register) (k : Nat) :
    family (ofNibble f x y k) = f := by
  have hx := x.val_index_lt
  have hy := y.val_index_lt
  rw [family, toNat_ofNibble hf]
  omega

lemma x_ofNibble (hf : f < 0x10) (r s : Register) (k : Nat) : x (ofNibble f r s k) = r := by
  have hr := r.val_index_lt
  have hs := s.val_index_lt
  rw [x, toNat_ofNibble hf]
  exact Register.ofNat_eq (by omega)

lemma y_ofNibble (hf : f < 0x10) (r s : Register) (k : Nat) : y (ofNibble f r s k) = s := by
  have hs := s.val_index_lt
  rw [y, toNat_ofNibble hf]
  exact Register.ofNat_eq (by omega)

lemma n_ofNibble (hf : f < 0x10) (r s : Register) (k : Nat) :
    n (ofNibble f r s k) = k % 0x10 := by
  rw [n, toNat_ofNibble hf]
  omega

end Packing

/-! ## An opcode is the packing of its places -/

lemma family_lt (op : UInt16) : family op < 0x10 := by
  have := op.toNat_lt
  rw [family]
  omega

lemma kk_lt (op : UInt16) : kk op < 0x100 := Nat.mod_lt _ (by decide)

lemma n_lt (op : UInt16) : n op < 0x10 := Nat.mod_lt _ (by decide)

lemma val_x (op : UInt16) : (x op).index.val = op.toNat / 0x100 % 0x10 := rfl

lemma val_y (op : UInt16) : (y op).index.val = op.toNat / 0x10 % 0x10 := rfl

lemma toNat_address (op : UInt16) : (address op).toNat = op.toNat % 0x1000 := by
  rw [address, UInt16.toNat_ofNat']
  exact Nat.mod_eq_of_lt (by omega)

lemma ofAddress_places (op : UInt16) : ofAddress (family op) (address op) = op := by
  apply UInt16.toNat_inj.mp
  rw [toNat_ofAddress (family_lt op), toNat_address, family]
  omega

lemma ofByte_places (op : UInt16) : ofByte (family op) (x op) (kk op) = op := by
  apply UInt16.toNat_inj.mp
  rw [toNat_ofByte (family_lt op) _ (kk_lt op), val_x, family, kk]
  omega

lemma ofNibble_places (op : UInt16) : ofNibble (family op) (x op) (y op) (n op) = op := by
  apply UInt16.toNat_inj.mp
  rw [toNat_ofNibble (family_lt op), val_x, val_y, family, n]
  omega

end Opcode

namespace Instruction

/-! ## The tables agree -/

/-- What is written is read back with its operands cut to size. -/
lemma decode_encode (i : Instruction) : decode (encode i) = some (normalize i) := by
  cases i with
  -- the only opcode that may be taken for that of another instruction
  | sys address =>
    have hcut : Opcode.address (Opcode.ofAddress 0x0 address) = cutAddress address :=
      Opcode.address_ofAddress (by decide) address
    have hE0 : Opcode.ofAddress 0x0 address = 0x00E0 ↔ cutAddress address = 0x0E0 := by
      rw [Opcode.ofAddress, cutAddress, Nat.zero_mul, Nat.zero_add]
    have hEE : Opcode.ofAddress 0x0 address = 0x00EE ↔ cutAddress address = 0x0EE := by
      rw [Opcode.ofAddress, cutAddress, Nat.zero_mul, Nat.zero_add]
    simp only [decode, encode, normalize, Opcode.family_ofAddress (f := 0x0) (by decide), hcut,
      hE0, hEE]
  | clear => rfl
  | ret => rfl
  | jump address | call address | loadIndex address | jumpOffset address =>
    simp (disch := decide) only [decode, encode, normalize, Opcode.family_ofAddress,
      Opcode.address_ofAddress]
  | loadByte x kk | addByte x kk | random x kk =>
    have hk := kk.toNat_lt
    simp (disch := omega) only [decode, encode, normalize, Opcode.family_ofByte, Opcode.x_ofByte,
      Opcode.kk_ofByte, UInt8.ofNat_toNat]
  | skip condition =>
    cases condition with
    | holds x kk | lacks x kk =>
      have hk := kk.toNat_lt
      simp (disch := omega) only [decode, encode, normalize, Opcode.family_ofByte,
        Opcode.x_ofByte, Opcode.kk_ofByte, UInt8.ofNat_toNat]
    | same x y | differ x y =>
      simp (disch := decide) only [decode, encode, normalize, Opcode.family_ofNibble,
        Opcode.x_ofNibble, Opcode.y_ofNibble, Opcode.n_ofNibble]
      rfl
    | pressed x | released x =>
      simp (disch := decide) only [decode, encode, normalize, Opcode.family_ofByte,
        Opcode.x_ofByte, Opcode.kk_ofByte, decodeKey]
  | alu operation x y =>
    have hop : AluOp.ofNibble? (operation.nibble % 0x10) = some operation := by
      cases operation <;> rfl
    simp (disch := decide) only [decode, encode, normalize, Opcode.family_ofNibble,
      Opcode.x_ofNibble, Opcode.y_ofNibble, Opcode.n_ofNibble, hop, Option.map_some]
  | draw x y height =>
    simp (disch := decide) only [decode, encode, normalize, Opcode.family_ofNibble,
      Opcode.x_ofNibble, Opcode.y_ofNibble, Opcode.n_ofNibble]
  | loadDelay x | awaitKey x | setDelay x | setSound x | addIndex x | loadGlyph x
  | storeDecimal x | storeThrough x | loadThrough x =>
    simp (disch := decide) only [decode, encode, normalize, Opcode.family_ofByte,
      Opcode.x_ofByte, Opcode.kk_ofByte, decodeMisc]

lemma AluOp.nibble_of_ofNibble? {k : Nat} {operation : AluOp}
    (h : AluOp.ofNibble? k = some operation) : operation.nibble = k := by
  unfold AluOp.ofNibble? at h
  split at h
  case h_10 => cases h
  all_goals
    obtain rfl := Option.some.inj h
    rfl

lemma encode_of_decodeKey {op : UInt16} (hf : Opcode.family op = 0xE) {i : Instruction}
    (h : decodeKey (Opcode.x op) (Opcode.kk op) = some i) : encode i = op := by
  unfold decodeKey at h
  split at h
  · obtain rfl := Option.some.inj h
    rename_i hk
    rw [encode, ← hk, ← hf, Opcode.ofByte_places]
  · obtain rfl := Option.some.inj h
    rename_i hk
    rw [encode, ← hk, ← hf, Opcode.ofByte_places]
  · cases h

lemma encode_of_decodeMisc {op : UInt16} (hf : Opcode.family op = 0xF) {i : Instruction}
    (h : decodeMisc (Opcode.x op) (Opcode.kk op) = some i) : encode i = op := by
  unfold decodeMisc at h
  split at h
  case h_10 => cases h
  all_goals
    obtain rfl := Option.some.inj h
    rename_i hk
    rw [encode, ← hk, ← hf, Opcode.ofByte_places]

/-- An opcode that is read as an instruction is the opcode of that instruction. -/
lemma encode_of_decode {op : UInt16} {i : Instruction} (h : decode op = some i) :
    encode i = op := by
  have hkk : (UInt8.ofNat (Opcode.kk op)).toNat = Opcode.kk op :=
    Nat.mod_eq_of_lt (Opcode.kk_lt op)
  have hn : (UInt8.ofNat (Opcode.n op)).toNat = Opcode.n op :=
    Nat.mod_eq_of_lt (Nat.lt_trans (Opcode.n_lt op) (by decide))
  simp only [decode] at h
  split at h
  -- a host call, unless it is one of the two opcodes that stand among them
  case h_1 hf =>
    obtain rfl := Option.some.inj h
    split
    · exact Eq.symm ‹op = 0x00E0›
    · split
      · exact Eq.symm ‹op = 0x00EE›
      · rw [encode, ← hf, Opcode.ofAddress_places]
  -- an address
  case h_2 hf | h_3 hf | h_11 hf | h_12 hf =>
    obtain rfl := Option.some.inj h
    rw [encode, ← hf, Opcode.ofAddress_places]
  -- a register and a byte
  case h_4 hf | h_5 hf | h_7 hf | h_8 hf | h_13 hf =>
    obtain rfl := Option.some.inj h
    rw [encode, hkk, ← hf, Opcode.ofByte_places]
  -- two registers, where the last nibble is fixed
  case h_6 hf | h_10 hf =>
    split at h
    · obtain rfl := Option.some.inj h
      rename_i hzero
      rw [encode, ← hzero, ← hf, Opcode.ofNibble_places]
    · cases h
  case h_9 hf =>
    obtain ⟨operation, hop, rfl⟩ := Option.map_eq_some_iff.mp h
    rw [encode, AluOp.nibble_of_ofNibble? hop, ← hf, Opcode.ofNibble_places]
  case h_14 hf =>
    obtain rfl := Option.some.inj h
    rw [encode, hn, ← hf, Opcode.ofNibble_places]
  case h_15 hf => exact encode_of_decodeKey hf h
  -- the last family, which the table leaves to its final entry
  case h_16 =>
    have hlt := Opcode.family_lt op
    have hf : Opcode.family op = 0xF := by grind
    exact encode_of_decodeMisc hf h

/-! ## What can be read -/

/-- An instruction that was read has operands that fit. -/
lemma normalize_of_decode {op : UInt16} {i : Instruction} (h : decode op = some i) :
    normalize i = i := by
  have hback := decode_encode i
  rw [encode_of_decode h, h] at hback
  exact (Option.some.inj hback).symm

lemma toNat_cutAddress_lt (address : UInt16) : (cutAddress address).toNat < 0x1000 := by
  rw [cutAddress, UInt16.toNat_ofNat']
  omega

/-- The places that instructions name as read from opcodes lie in the first `0x1000`. -/
lemma toNat_lt_of_decode {op address : UInt16} {i : Instruction} (h : decode op = some i)
    (hi : i = jump address ∨ i = call address ∨ i = jumpOffset address) :
    address.toNat < 0x1000 := by
  have hcut : cutAddress address = address := by
    have hfit := normalize_of_decode h
    rcases hi with rfl | rfl | rfl
    · exact jump.inj hfit
    · exact call.inj hfit
    · exact jumpOffset.inj hfit
  rw [← hcut]
  exact toNat_cutAddress_lt address

/-- Reading and writing opcodes are inverse to each other on the instructions whose operands fit,
and an opcode can be read exactly when it can be written. -/
theorem decode_encode_inverse :
    (∀ op i, decode op = some i → encode i = op) ∧
    (∀ i, decode (encode i) = some (normalize i)) ∧
    (∀ i, decode (encode i) = some i ↔ i = normalize i) ∧
    (∀ i j, i = normalize i → j = normalize j → encode i = encode j → i = j) ∧
    (∀ op, decode op = none ↔ ∀ i, encode i ≠ op) := by
  refine ⟨fun op i h => encode_of_decode h, decode_encode, ?_, ?_, ?_⟩
  · intro i
    rw [decode_encode, Option.some.injEq]
    exact eq_comm
  · intro i j hi hj h
    have hread := congrArg decode h
    rw [decode_encode, decode_encode, ← hi, ← hj] at hread
    exact Option.some.inj hread
  · intro op
    constructor
    · rintro hnone i rfl
      rw [decode_encode] at hnone
      cases hnone
    · intro hno
      cases hread : decode op with
      | none => rfl
      | some i => exact absurd (encode_of_decode hread) (hno i)

/-- Operands that are too wide, a host call that turns into another instruction, an opcode with
every place in use, and one that is no instruction. -/
theorem decode_encode_inverse_at_limits :
    decode (encode (draw Register.v0 Register.vf 0x1F)) = some (draw Register.v0 Register.vf 0xF) ∧
    decode (encode (sys 0xF0E0)) = some clear ∧
    decode (encode (sys 0xF0E0)) ≠ some (sys 0xF0E0) ∧
    encode (alu .shiftLeft (Register.ofNat 0xA) (Register.ofNat 0xB)) = 0x8ABE ∧
    (∀ i, encode i ≠ 0x5121) := by
  obtain ⟨hwrite, hread, hfit, -, hnone⟩ := decode_encode_inverse
  refine ⟨hread _, hread _, ?_, hwrite 0x8ABE _ rfl, (hnone 0x5121).mp rfl⟩
  intro h
  exact absurd ((hfit _).mp h) (by decide)

end Instruction

end ChipVm
