/-
# Block transfers undo each other

`FX55` stores V0..Vx from where the index register points, and `FX65` loads them from there.  What
was stored is loaded again, whatever has become of the registers and of the rest of memory in
between; and to store what was loaded changes nothing.  Both need the index register to point at
the block again, since a transfer moves it in some dialects: past the block, which may be the end
of memory.
-/
import Mathlib.Tactic.Lemma
import ChipVm.Proofs.Machine.Footprint

namespace ChipVm.Machine

variable {m after : Machine} {x z : Register}

/-! ## What is loaded -/

/-- Moving the index register past a block that fits into memory does not run over sixteen bits. -/
lemma toNat_i_moveIndex (m : Machine)
    (hfits : m.registers.i.toNat + (x.index.val + 1) ≤ memorySize) :
    (m.moveIndex x).registers.i.toNat
      = m.registers.i.toNat + if m.dialect.transferMovesIndex then x.index.val + 1 else 0 := by
  have hx := x.val_index_lt
  have hcount : (UInt16.ofNat (x.index.val + 1)).toNat = x.index.val + 1 := by
    rw [UInt16.toNat_ofNat']
    omega
  rw [moveIndex]
  split
  · refine (UInt16.toNat_add _ _).trans ?_
    rw [hcount]
    exact Nat.mod_eq_of_lt (Nat.lt_of_le_of_lt hfits (by decide))
  · rfl

lemma loadThrough_ok (h : m.execute (.loadThrough x) = .ok () after) :
    ∃ bytes, m.memory.slice m.registers.i.toNat (x.index.val + 1) = .ok bytes ∧
      after = (({ m with registers := m.registers.setThrough x bytes } : Machine).moveIndex
        x).follow .next := by
  obtain ⟨flow, mid, heffect, rfl⟩ := effect_of_execute h
  obtain ⟨bytes, hslice, rfl, rfl⟩ := effect_loadThrough_ok heffect
  exact ⟨bytes, hslice, rfl⟩

lemma toNat_i_loadThrough (h : m.execute (.loadThrough x) = .ok () after) :
    after.registers.i.toNat
      = m.registers.i.toNat + if m.dialect.transferMovesIndex then x.index.val + 1 else 0 := by
  obtain ⟨bytes, hslice, rfl⟩ := loadThrough_ok h
  have hfits : (m.registers.setThrough x bytes).i.toNat + (x.index.val + 1) ≤ memorySize := by
    rw [RegisterFile.i_setThrough]
    exact Memory.le_of_slice_ok hslice
  have hmoved := toNat_i_moveIndex { m with registers := m.registers.setThrough x bytes } hfits
  dsimp only at hmoved
  rw [RegisterFile.i_setThrough] at hmoved
  exact hmoved

lemma get_moveIndex (m : Machine) (x z : Register) :
    (m.moveIndex x).registers.get z = m.registers.get z := by
  obtain ⟨index, hindex⟩ := m.moveIndex_eq x
  rw [hindex, RegisterFile.get_setIndex]

/-- Each of V0..Vx is loaded from its own place. -/
lemma get_loadThrough (h : m.execute (.loadThrough x) = .ok () after) (hz : z.index ≤ x.index) :
    m.memory.read8 (m.registers.i.toNat + z.index.val) = .ok (after.registers.get z) := by
  obtain ⟨bytes, hslice, rfl⟩ := loadThrough_ok h
  have hlength := Memory.length_of_slice hslice
  have hplace : z.index.val < bytes.length := by
    rw [hlength]
    exact Nat.lt_succ_of_le hz
  have hbyte := List.getElem?_eq_getElem hplace
  have hloaded := (get_moveIndex { m with registers := m.registers.setThrough x bytes } x z).trans
    (m.registers.get_setThrough_of_le hlength hz hbyte)
  exact (Memory.read8_of_slice hslice hbyte).trans (congrArg Except.ok hloaded.symm)

lemma get_loadThrough_of_lt (h : m.execute (.loadThrough x) = .ok () after)
    (hz : x.index < z.index) : after.registers.get z = m.registers.get z := by
  have hpart : Part.byte z ∉ (Instruction.loadThrough x).parts m.dialect := by
    simp [Instruction.parts, Instruction.mem_transferred, Register.mem_through, hz]
  exact same_execute h hpart

lemma memory_loadThrough (h : m.execute (.loadThrough x) = .ok () after) :
    after.memory = m.memory := by
  have hpart : Part.memory ∉ (Instruction.loadThrough x).parts m.dialect := by
    simp [Instruction.parts, Instruction.mem_transferred]
  exact same_execute h hpart

/-! ## Both ways -/

/-- Registers that were stored are loaded again, and bytes that were loaded are stored where they
came from.  In between, everything may change but the block in memory; the index register points
at the block again. -/
theorem block_transfers_invert (m : Machine) (x : Register)
    (hfits : m.registers.i.toNat + x.index.val + 1 ≤ memorySize) :
    (∃ stored, m.execute (.storeThrough x) = .ok () stored ∧
      ∀ between : Machine, between.registers.i = m.registers.i →
        (∀ k ≤ x.index.val, between.memory.read8 (m.registers.i.toNat + k)
          = stored.memory.read8 (m.registers.i.toNat + k)) →
        ∃ loaded, between.execute (.loadThrough x) = .ok () loaded ∧
          (∀ z, z.index ≤ x.index → loaded.registers.get z = m.registers.get z) ∧
          (∀ z, x.index < z.index → loaded.registers.get z = between.registers.get z) ∧
          loaded.memory = between.memory ∧
          loaded.registers.i.toNat = m.registers.i.toNat
            + if between.dialect.transferMovesIndex then x.index.val + 1 else 0) ∧
    (∃ loaded, m.execute (.loadThrough x) = .ok () loaded ∧
      ∃ stored, ({ loaded with registers := loaded.registers.setIndex m.registers.i } :
          Machine).execute (.storeThrough x) = .ok () stored ∧
        stored.memory = m.memory) := by
  constructor
  · obtain ⟨stored, hstored⟩ : ∃ stored, m.execute (.storeThrough x) = .ok () stored :=
      execute_of_fits rfl hfits
    have hover := overwrites_storeThrough hstored
    refine ⟨stored, hstored, ?_⟩
    intro between hindex hblock
    obtain ⟨loaded, hloaded⟩ : ∃ loaded, between.execute (.loadThrough x) = .ok () loaded :=
      execute_of_fits rfl (by rw [hindex]; exact hfits)
    refine ⟨loaded, hloaded, ?_, fun z => get_loadThrough_of_lt hloaded,
      memory_loadThrough hloaded, ?_⟩
    · intro z hz
      have hput := hover.inside z.index.val (m.registers.get z)
        (RegisterFile.getElem?_valuesThrough.mpr ⟨z, rfl, hz, rfl⟩)
      have hgot := get_loadThrough hloaded hz
      rw [hindex, hblock z.index.val hz, hput] at hgot
      exact (Except.ok.inj hgot).symm
    · rw [← hindex]
      exact toNat_i_loadThrough hloaded
  · obtain ⟨loaded, hloaded⟩ : ∃ loaded, m.execute (.loadThrough x) = .ok () loaded :=
      execute_of_fits rfl hfits
    obtain ⟨stored, hstored⟩ : ∃ stored,
        ({ loaded with registers := loaded.registers.setIndex m.registers.i } : Machine).execute
          (.storeThrough x) = .ok () stored := execute_of_fits rfl hfits
    refine ⟨loaded, hloaded, stored, hstored, ?_⟩
    have hover := overwrites_storeThrough hstored
    rw [← memory_loadThrough hloaded]
    refine hover.eq_of_same ?_
    -- what is stored is what was loaded from the same places
    intro k byte hbyte
    obtain ⟨z, rfl, hz, rfl⟩ := RegisterFile.getElem?_valuesThrough.mp hbyte
    show loaded.memory.read8 (m.registers.i.toNat + z.index.val)
      = .ok (loaded.registers.get z)
    rw [memory_loadThrough hloaded]
    exact get_loadThrough hloaded hz

/-- A machine with the registers 1 to 16 and the index register at the last block of sixteen
bytes. -/
def lastBlock : Machine :=
  { ofConfig Config.standard 0 with
    registers := { RegisterFile.initial with
      v := Vector.ofFn fun place => UInt8.ofNat (place.val + 1)
      i := 0xFF0 } }

/-- All of its registers survive in the last bytes of memory while they are cleared, and the index
register is left just past the end. -/
theorem block_transfers_invert_lastBlock :
    lastBlock.registers.i.toNat + Register.vf.index.val + 1 ≤ memorySize ∧
    ∃ stored loaded, lastBlock.execute (.storeThrough Register.vf) = .ok () stored ∧
      ({ stored with registers := { RegisterFile.initial with i := 0xFF0 } } : Machine).execute
        (.loadThrough Register.vf) = .ok () loaded ∧
      loaded.registers.get Register.v0 = 1 ∧ loaded.registers.get Register.vf = 16 ∧
      loaded.registers.i.toNat = 0x1000 := by
  have hfits : lastBlock.registers.i.toNat + Register.vf.index.val + 1 ≤ memorySize := by decide
  obtain ⟨⟨stored, hstored, hback⟩, -⟩ := block_transfers_invert lastBlock Register.vf hfits
  obtain ⟨loaded, hloaded, hsame, -, -, hindex⟩ :=
    hback { stored with registers := { RegisterFile.initial with i := 0xFF0 } } rfl
      fun _ _ => rfl
  have hpart : Part.dialect ∉ (Instruction.storeThrough Register.vf).parts lastBlock.dialect := by
    decide
  have hdialect : stored.dialect = lastBlock.dialect := same_execute hstored hpart
  refine ⟨hfits, stored, loaded, hstored, hloaded, hsame _ (by decide), hsame _ (by decide), ?_⟩
  rw [hindex, hdialect]
  rfl

end ChipVm.Machine
