/-
# A listing is what the machine runs

A listing is made from the bytes of a program alone, without a machine.  A machine gets at the
same bytes by another way: it copies them into memory, reads two of them at the program counter
and decodes the word.  The two agree:

* a listing has one entry for every two bytes, two addresses apart, and its opcodes are the bytes
  of the program but for a last odd one (`Listing.length_entriesFrom`,
  `Listing.flatMap_bytes_entriesFrom`);
* once the program is loaded, the word at the address of an entry is its opcode, whatever was in
  memory before (`Listing.read16_of_mem_entries`);
* a machine that takes a step there does what the entry says (`Machine.step_at_word`).
-/
import Mathlib.Tactic.Lemma
import ChipVm.Listing
import ChipVm.Proofs.Machine.FaultSet
import ChipVm.Proofs.Machine.History

namespace ChipVm

/-! ## The entries of a listing -/

namespace Listing

/-- The two bytes of the opcode of an entry, the high byte first. -/
def Entry.bytes (entry : Entry) : List UInt8 :=
  [(entry.opcode >>> 8).toUInt8, entry.opcode.toUInt8]

/-- A word falls apart into the bytes that it was put together from. -/
lemma Entry.bytes_of_opcode {entry : Entry} {high low : UInt8}
    (h : entry.opcode = UInt16.ofNat (high.toNat * 0x100 + low.toNat)) :
    entry.bytes = [high, low] := by
  have hhigh := high.toNat_lt
  have hlow := low.toNat_lt
  have hop : entry.opcode.toNat = high.toNat * 0x100 + low.toNat := by
    rw [h, UInt16.toNat_ofNat']
    exact Nat.mod_eq_of_lt (by omega)
  have hfirst : (entry.opcode >>> 8).toUInt8 = high := by
    apply UInt8.toNat_inj.mp
    rw [UInt16.toNat_toUInt8, UInt16.toNat_shiftRight, hop, Nat.shiftRight_eq_div_pow]
    show (high.toNat * 0x100 + low.toNat) / 0x100 % 0x100 = high.toNat
    omega
  have hsecond : entry.opcode.toUInt8 = low := by
    apply UInt8.toNat_inj.mp
    rw [UInt16.toNat_toUInt8, hop]
    omega
  rw [bytes, hfirst, hsecond]

/-- Where no two bytes are left, there is one at most. -/
lemma length_div_two_of_short {program : List UInt8}
    (h : ∀ high low rest, program = high :: low :: rest → False) : program.length / 2 = 0 := by
  rcases program with _ | ⟨last, _ | ⟨low, rest⟩⟩
  · rfl
  · exact Nat.div_eq_of_lt Nat.one_lt_two
  · exact (h last low rest rfl).elim

lemma length_entriesFrom (address : Nat) (program : List UInt8) :
    (entriesFrom address program).length = program.length / 2 := by
  fun_induction entriesFrom address program with
  | case1 address high low rest opcode ih =>
    simp only [List.length_cons, ih]
    omega
  | case2 _ program hshort => rw [length_div_two_of_short hshort, List.length_nil]

lemma flatMap_bytes_entriesFrom (address : Nat) (program : List UInt8) :
    (entriesFrom address program).flatMap Entry.bytes
      = program.take (2 * (program.length / 2)) := by
  fun_induction entriesFrom address program with
  | case1 address high low rest opcode ih =>
    have hlength : 2 * ((high :: low :: rest).length / 2) = 2 * (rest.length / 2) + 2 := by
      simp only [List.length_cons]
      omega
    rw [List.flatMap_cons, Entry.bytes_of_opcode rfl, ih, hlength]
    rfl
  | case2 _ program hshort =>
    rw [length_div_two_of_short hshort]
    rfl

/-- What the entry of the `k`-th word says. -/
lemma entry_of_entriesFrom {address k : Nat} {program : List UInt8} {entry : Entry}
    (h : (entriesFrom address program)[k]? = some entry) :
    entry.address = address + 2 * k ∧ entry.instruction = Instruction.decode entry.opcode ∧
      ∃ high low, program[2 * k]? = some high ∧ program[2 * k + 1]? = some low ∧
        entry.opcode = UInt16.ofNat (high.toNat * 0x100 + low.toNat) := by
  induction k generalizing address program with
  | zero =>
    rcases program with _ | ⟨high, _ | ⟨low, rest⟩⟩
    · cases h
    · cases h
    · obtain rfl := Option.some.inj h
      exact ⟨rfl, rfl, high, low, rfl, rfl, rfl⟩
  | succ k ih =>
    rcases program with _ | ⟨first, _ | ⟨second, rest⟩⟩
    · cases h
    · cases h
    · -- the entry is the one before it in the listing of what follows the first word
      have hrest : (entriesFrom (address + 2) rest)[k]? = some entry := h
      obtain ⟨haddress, hinstruction, high, low, hhigh, hlow, hopcode⟩ := ih hrest
      have hplace : 2 * (k + 1) = 2 * k + 1 + 1 := by omega
      refine ⟨by omega, hinstruction, high, low, ?_, ?_, hopcode⟩
      · rw [hplace]
        exact hhigh
      · rw [hplace]
        exact hlow

lemma instruction_of_mem_entries {program : List UInt8} {entry : Entry}
    (h : entry ∈ entries program) : entry.instruction = Instruction.decode entry.opcode := by
  obtain ⟨k, hk⟩ := List.mem_iff_getElem?.mp h
  exact (entry_of_entriesFrom hk).2.1

/-- The word that a machine finds at the address of an entry is the opcode of the entry. -/
lemma read16_of_mem_entries {memory after : Memory} {program : List UInt8} {entry : Entry}
    (hload : memory.load program = .ok () after) (h : entry ∈ entries program) :
    after.read16 entry.address = .ok entry.opcode := by
  obtain ⟨k, hk⟩ := List.mem_iff_getElem?.mp h
  obtain ⟨haddress, -, high, low, hhigh, hlow, hopcode⟩ := entry_of_entriesFrom hk
  rw [haddress, hopcode]
  exact Memory.read16_of_load hload hhigh hlow

end Listing

/-! ## A step at a given word -/

namespace Machine

variable {m : Machine} {op : UInt16} {i : Instruction} {fault : Fault}

/-- What keeps an instruction from running is not that the word is unknown. -/
lemma Refuses.ne_unknown (h : m.Refuses i fault) (op pc : UInt16) :
    fault ≠ .unknownOpcode op pc := by
  cases h <;> exact nofun

/-- Nothing keeps a jump from running. -/
lemma not_refuses_jump (address : UInt16) : ¬m.Refuses (.jump address) fault :=
  not_refuses (by simp) (by simp) rfl

/-- A step that finds an instruction at the program counter runs it, or is refused. -/
lemma step_of_fetch (hrun : m.halted = none) (hkey : m.keypad.awaiting = none)
    (hfetch : m.fetch = .ok (op, i)) :
    m.step.result = .ok (outcomeAt m.registers.pc i) ∨
      ∃ fault, m.Refuses i fault ∧ m.step.result = .error fault := by
  cases hresult : m.step.result with
  | error fault =>
    rw [step_running hrun hkey, cycle_fails_iff, faults_iff, hfetch] at hresult
    rcases hresult with hnot | ⟨op', i', hsame, hrefuses⟩
    · cases hnot
    · obtain ⟨-, rfl⟩ := Prod.mk.inj (Except.ok.inj hsame)
      exact Or.inr ⟨fault, hrefuses, rfl⟩
  | ok outcome =>
    rw [step_running hrun hkey] at hresult
    rcases m.cycle_cases with ⟨op', i', after, hsame, -, -, hok⟩ | ⟨fault, -, -, herror⟩
    · rw [hfetch] at hsame
      obtain ⟨-, rfl⟩ := Prod.mk.inj (Except.ok.inj hsame)
      rw [hresult] at hok
      exact Or.inl hok
    · rw [hresult] at herror
      cases herror

/-- What a step comes to when this word stands at the program counter: it is no instruction, it is
a jump to itself, or it is an instruction that runs or is refused. -/
lemma step_at_word (hrun : m.halted = none) (hkey : m.keypad.awaiting = none)
    (hread : m.memory.read16 m.registers.pc.toNat = .ok op) :
    (m.step.result = .error (.unknownOpcode op m.registers.pc) ↔
      Instruction.decode op = none) ∧
    (m.step.result = .ok .stalled ↔
      Instruction.decode op = some (.jump m.registers.pc)) ∧
    ∀ i, Instruction.decode op = some i → i ≠ .jump m.registers.pc →
      m.step.result = .ok (.executed i) ∨
        ∃ fault, m.Refuses i fault ∧ m.step.result = .error fault := by
  cases hdecode : Instruction.decode op with
  | none =>
    have hresult : m.step.result = .error (.unknownOpcode op m.registers.pc) := by
      rw [step_running hrun hkey]
      exact cycle_fails_iff.mpr (.unknown hread hdecode)
    rw [hresult]
    simp
  | some i =>
    have hstep := step_of_fetch hrun hkey (fetch_of_read16 hread hdecode)
    by_cases hjump : i = .jump m.registers.pc
    · subst hjump
      have hresult : m.step.result = .ok .stalled := by
        rcases hstep with hok | ⟨fault, hrefuses, -⟩
        · rw [hok, outcomeAt, if_pos rfl]
        · exact absurd hrefuses (not_refuses_jump _)
      rw [hresult]
      simp
    · rw [outcomeAt, if_neg hjump] at hstep
      refine ⟨?_, ?_, ?_⟩
      · rcases hstep with hok | ⟨fault, hrefuses, herror⟩
        · simp [hok]
        · simp [herror, hrefuses.ne_unknown]
      · rcases hstep with hok | ⟨fault, -, herror⟩
        · simp [hok, hjump]
        · simp [herror, hjump]
      · rintro j hj -
        obtain rfl := Option.some.inj hj
        exact hstep

end Machine

/-! ## Listing, loading and running -/

namespace Listing

/-- A listing has one entry for every two bytes of the program, at the addresses where they would
stand, with opcodes that are these bytes and instructions that have these opcodes.  When the
program fits into memory and is loaded into whatever machine, each entry tells what word stands
at its address, and what comes of a step that is taken there. -/
theorem listing_tells_the_run (program : List UInt8) :
    (entries program).length = program.length / 2 ∧
    (∀ k entry, (entries program)[k]? = some entry → entry.address = 0x200 + 2 * k) ∧
    (entries program).flatMap Entry.bytes = program.take (2 * (program.length / 2)) ∧
    (∀ entry ∈ entries program, ∀ i, entry.instruction = some i → i.encode = entry.opcode) ∧
    (program.length ≤ programCapacity → ∀ m after : Machine,
      after = (m.loadProgram program).machine →
      (m.loadProgram program).result = .ok () ∧
      ∀ entry ∈ entries program,
        after.memory.read16 entry.address = .ok entry.opcode ∧
        (after.halted = none → after.keypad.awaiting = none →
          after.registers.pc.toNat = entry.address →
          (after.step.result = .error (.unknownOpcode entry.opcode after.registers.pc) ↔
            entry.instruction = none) ∧
          (after.step.result = .ok .stalled ↔
            entry.instruction = some (.jump after.registers.pc)) ∧
          ∀ i, entry.instruction = some i → i ≠ .jump after.registers.pc →
            after.step.result = .ok (.executed i) ∨
              ∃ fault, after.Refuses i fault ∧ after.step.result = .error fault)) := by
  refine ⟨length_entriesFrom _ program, ?_, flatMap_bytes_entriesFrom _ program, ?_, ?_⟩
  · intro k entry hentry
    exact (entry_of_entriesFrom hentry).1
  · intro entry hentry i hi
    rw [instruction_of_mem_entries hentry] at hi
    exact Instruction.encode_of_decode hi
  · rintro hfits m _ rfl
    obtain ⟨memory, hload⟩ : ∃ memory, m.memory.load program = .ok () memory :=
      ⟨_, dif_pos hfits⟩
    have hreply : m.loadProgram program
        = ⟨{ m with memory }, .ok (), #[.loaded program.length]⟩ := by
      simp only [Machine.loadProgram, hload]
    rw [hreply]
    refine ⟨rfl, ?_⟩
    intro entry hentry
    have hread : memory.read16 entry.address = .ok entry.opcode :=
      read16_of_mem_entries hload hentry
    refine ⟨hread, ?_⟩
    intro hrun hkey hpc
    rw [instruction_of_mem_entries hentry]
    refine Machine.step_at_word hrun hkey ?_
    rw [hpc]
    exact hread

/-- A program of two words and one byte more, the second of which is a jump to itself. -/
def clearAndStop : List UInt8 := [0x00, 0xE0, 0x12, 0x02, 0x9A]

/-- A machine that has come to the place of the second word of a program. -/
def atSecondWord : Machine :=
  { Machine.ofConfig Config.standard 0 with registers := RegisterFile.initial.goto 0x202 }

/-- The listing of that program has two lines, and what the second one says is what a machine does
that comes to its address. -/
theorem listing_tells_the_run_clearAndStop :
    entries clearAndStop = [⟨0x200, 0x00E0, some .clear⟩, ⟨0x202, 0x1202, some (.jump 0x202)⟩] ∧
    clearAndStop.length ≤ programCapacity ∧
    (atSecondWord.loadProgram clearAndStop).machine.memory.read16 0x202 = .ok 0x1202 ∧
    (atSecondWord.loadProgram clearAndStop).machine.step.result = .ok .stalled := by
  have hentries : entries clearAndStop
      = [⟨0x200, 0x00E0, some .clear⟩, ⟨0x202, 0x1202, some (.jump 0x202)⟩] := by decide
  have hfits : clearAndStop.length ≤ programCapacity := by decide
  obtain ⟨memory, hmemory⟩ := atSecondWord.loadProgram_machine clearAndStop
  obtain ⟨-, -, -, -, hrun⟩ := listing_tells_the_run clearAndStop
  obtain ⟨-, hlines⟩ := hrun hfits atSecondWord _ rfl
  obtain ⟨hread, hstep⟩ := hlines ⟨0x202, 0x1202, some (.jump 0x202)⟩ (by simp [hentries])
  refine ⟨hentries, hfits, hread, ?_⟩
  rw [hmemory] at hstep ⊢
  exact (hstep rfl rfl rfl).2.1.mpr rfl

end Listing

end ChipVm
