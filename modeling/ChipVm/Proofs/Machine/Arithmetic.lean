/-
# Arithmetic on byte registers

Registers hold bytes, and the arithmetic instructions compute with them modulo 256.  What is lost
by that goes into the flag, so that result and flag together say what the operation comes to on
whole numbers.  `AluOp.Yields` is that account for the operations that combine two registers, and
`Machine.Stores` says where result and flag go: the flag into VF, also if the result was to go
there, the result into its register otherwise, and nothing else changes.

The bytes are read before anything is written, so the same account holds whichever of the two
registers and VF coincide.
-/
import Mathlib.Tactic.Lemma
import ChipVm.Machine.Execute

namespace ChipVm

/-! ## What the operations come to -/

/-- What an operation makes of the bytes `a` and `b`: a result, and a flag if there is one.  The
logical operations have the flag 0 in dialects that reset it and no flag in others; the shifts
shift `b` in dialects that say so, and `a` in others. -/
inductive AluOp.Yields (dialect : Dialect) (a b : UInt8) : AluOp → UInt8 → Option Bool → Prop where
  | copy : Yields dialect a b .copy b none
  | or {r : UInt8} {flag : Option Bool}
      (hbits : ∀ k, r.toNat.testBit k = (a.toNat.testBit k || b.toNat.testBit k))
      (hflag : flag = if dialect.logicResetsFlag then some false else none) :
      Yields dialect a b .or r flag
  | and {r : UInt8} {flag : Option Bool}
      (hbits : ∀ k, r.toNat.testBit k = (a.toNat.testBit k && b.toNat.testBit k))
      (hflag : flag = if dialect.logicResetsFlag then some false else none) :
      Yields dialect a b .and r flag
  | xor {r : UInt8} {flag : Option Bool}
      (hbits : ∀ k, r.toNat.testBit k = (a.toNat.testBit k ^^ b.toNat.testBit k))
      (hflag : flag = if dialect.logicResetsFlag then some false else none) :
      Yields dialect a b .xor r flag
  | add {r : UInt8} {carry : Bool} (hcarry : carry = true ↔ 255 < a.toNat + b.toNat)
      (hsum : r.toNat + 256 * carry.toNat = a.toNat + b.toNat) :
      Yields dialect a b .add r (some carry)
  | sub {r : UInt8} {whole : Bool} (hwhole : whole = true ↔ b.toNat ≤ a.toNat)
      (hdifference : (r.toNat : Int) = a.toNat - b.toNat + 256 * (1 - whole.toNat)) :
      Yields dialect a b .sub r (some whole)
  | subFrom {r : UInt8} {whole : Bool} (hwhole : whole = true ↔ a.toNat ≤ b.toNat)
      (hdifference : (r.toNat : Int) = b.toNat - a.toNat + 256 * (1 - whole.toNat)) :
      Yields dialect a b .subFrom r (some whole)
  | shiftRight {r : UInt8} {out : Bool}
      (hhalf : 2 * r.toNat + out.toNat = if dialect.shiftUsesVy then b.toNat else a.toNat) :
      Yields dialect a b .shiftRight r (some out)
  | shiftLeft {r : UInt8} {out : Bool}
      (hdouble : r.toNat + 256 * out.toNat
        = 2 * if dialect.shiftUsesVy then b.toNat else a.toNat) :
      Yields dialect a b .shiftLeft r (some out)

namespace Machine

section Bytes

variable (a b : UInt8)

lemma toNat_add_carry :
    (a + b).toNat + 256 * (decide (256 ≤ a.toNat + b.toNat)).toNat = a.toNat + b.toNat := by
  have ha := a.toNat_lt
  have hb := b.toNat_lt
  rw [UInt8.toNat_add]
  by_cases hcarry : 256 ≤ a.toNat + b.toNat
  · rw [decide_eq_true hcarry, Bool.toNat_true]
    omega
  · rw [decide_eq_false hcarry, Bool.toNat_false]
    omega

lemma toNat_sub_borrow :
    ((a - b).toNat : Int)
      = a.toNat - b.toNat + 256 * (1 - (decide (b.toNat ≤ a.toNat)).toNat) := by
  have ha := a.toNat_lt
  have hb := b.toNat_lt
  rw [UInt8.toNat_sub]
  by_cases hwhole : b.toNat ≤ a.toNat
  · rw [decide_eq_true hwhole, Bool.toNat_true]
    omega
  · rw [decide_eq_false hwhole, Bool.toNat_false]
    omega

/-- The bit that a shift to the right puts out is the lowest one. -/
lemma toNat_shiftRight_out : 2 * (a >>> 1).toNat + (a.toNat.testBit 0).toNat = a.toNat := by
  have hhalf : (a >>> 1).toNat = a.toNat / 2 := UInt8.toNat_shiftRight a 1
  rw [hhalf, Nat.toNat_testBit]
  omega

/-- The bit that a shift to the left puts out is the highest one. -/
lemma toNat_shiftLeft_out : (a <<< 1).toNat + 256 * (a.toNat.testBit 7).toNat = 2 * a.toNat := by
  have ha := a.toNat_lt
  have hdouble : (a <<< 1).toNat = 2 * a.toNat % 256 := UInt8.toNat_shiftLeft a 1
  rw [hdouble, Nat.toNat_testBit]
  omega

end Bytes

lemma combine_yields (dialect : Dialect) (op : AluOp) (a b : UInt8) :
    op.Yields dialect a b (combine dialect op a b).1 (combine dialect op a b).2 := by
  have hshifted : (if dialect.shiftUsesVy then b else a).toNat
      = if dialect.shiftUsesVy then b.toNat else a.toNat := apply_ite UInt8.toNat _ b a
  cases op with
  | copy => exact .copy
  | or => exact .or (fun k => by rw [← Nat.testBit_or]; rfl) rfl
  | and => exact .and (fun k => by rw [← Nat.testBit_and]; rfl) rfl
  | xor => exact .xor (fun k => by rw [← Nat.testBit_xor]; rfl) rfl
  | add => exact .add decide_eq_true_iff (toNat_add_carry a b)
  | sub => exact .sub decide_eq_true_iff (toNat_sub_borrow a b)
  | subFrom => exact .subFrom decide_eq_true_iff (toNat_sub_borrow b a)
  | shiftRight => exact .shiftRight ((toNat_shiftRight_out _).trans hshifted)
  | shiftLeft => exact .shiftLeft ((toNat_shiftLeft_out _).trans (congrArg (2 * ·) hshifted))

/-! ## Where result and flag go -/

/-- The machine after an instruction that leaves `r` in register `x`, and a flag in VF if there is
one: the flag wins where both go to VF.  The program goes on, and nothing else has changed. -/
structure Stores (m : Machine) (x : Register) (r : UInt8) (flag : Option Bool) (after : Machine) :
    Prop where
  flagged : ∀ f, flag = some f → (after.registers.get Register.vf).toNat = f.toNat
  result : x ≠ Register.vf ∨ flag = none → after.registers.get x = r
  others : ∀ z, z ≠ x → z ≠ Register.vf ∨ flag = none →
    after.registers.get z = m.registers.get z
  index : after.registers.i = m.registers.i
  pc : after.registers.pc = m.registers.pc + 2
  rest : after = { m with registers := after.registers }

lemma stores_storeResult (m : Machine) (x : Register) (r : UInt8) (flag : Option Bool) :
    m.Stores x r flag
      { m with registers := (storeResult m.registers x (r, flag)).advance } := by
  cases flag with
  | none =>
    refine ⟨nofun, fun _ => m.registers.get_set_self x r, ?_, rfl, rfl, rfl⟩
    intro z hz _
    exact m.registers.get_set_of_ne r hz.symm
  | some f =>
    refine ⟨?_, ?_, ?_, rfl, rfl, rfl⟩
    · rintro _ ⟨⟩
      show ((((m.registers.set x r).set Register.vf _).get Register.vf).toNat) = f.toNat
      rw [RegisterFile.get_set_self]
      cases f <;> rfl
    -- the flag is written last, so the result stands only where it is not VF
    · rintro (hx | hnone)
      · exact ((m.registers.set x r).get_set_of_ne _ hx.symm).trans (m.registers.get_set_self x r)
      · cases hnone
    · rintro z hz (hflag | hnone)
      · exact ((m.registers.set x r).get_set_of_ne _ hflag.symm).trans
          (m.registers.get_set_of_ne r hz.symm)
      · cases hnone

/-- The arithmetic instructions compute with whole numbers, as far as a byte and a flag can hold
the outcome, in every dialect and for whatever registers they name.  An immediate addition has no
flag. -/
theorem arithmetic_is_exact (m : Machine) (x y : Register) :
    (∀ kk, ∃ (r : UInt8) (after : Machine), m.execute (.addByte x kk) = .ok () after ∧
      r.toNat = ((m.registers.get x).toNat + kk.toNat) % 256 ∧ m.Stores x r none after) ∧
    (∀ op, ∃ (r : UInt8) (flag : Option Bool) (after : Machine),
      m.execute (.alu op x y) = .ok () after ∧
      op.Yields m.dialect (m.registers.get x) (m.registers.get y) r flag ∧
      m.Stores x r flag after) := by
  constructor
  · intro kk
    exact ⟨_, _, rfl, UInt8.toNat_add _ _, m.stores_storeResult x _ none⟩
  · intro op
    exact ⟨_, _, _, rfl, combine_yields _ _ _ _, m.stores_storeResult x _ _⟩

end Machine

end ChipVm
