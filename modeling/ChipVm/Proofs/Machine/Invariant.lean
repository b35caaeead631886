/-
# What holds of every reachable machine

The parts of a machine constrain each other.  A machine is coherent when

* the program counter is at most `0x10FE`, which is as far as a jump with an offset goes;
* every open call returns to a place from 2 to `0x1000`;
* it is not halted and waiting for a key at the same time;
* while it waits for a key, a whole instruction stands at the program counter;
* what halted it is fatal;
* every pixel is dark or lit.

Each of these is needed for another one: the bound on the program counter after an instruction
needs that the instruction was fetched, after a return it needs the bound on the open calls, and
after a key press the bound while waiting; a fault leaves no wait behind because it changes
nothing.  `Machine.Coherent.execute` is the step lemma, and `Machine.Reachable.coherent` carries
it over all histories.
-/
import Mathlib.Tactic.Lemma
import ChipVm.Proofs.Instruction.RoundTrip
import ChipVm.Proofs.Machine.Effect
import ChipVm.Proofs.Machine.Failure
import ChipVm.Proofs.Machine.Reachable
import ChipVm.Proofs.Screen

namespace ChipVm

/-! ## The program counter as a number -/

namespace RegisterFile

variable (file : RegisterFile)

/-- From where the program counter can be, a short way ahead is still a 16-bit address. -/
lemma toNat_pc_add (h : file.pc.toNat ≤ 0x10FE) {ahead : UInt16} (hahead : ahead.toNat ≤ 4) :
    (file.pc + ahead).toNat = file.pc.toNat + ahead.toNat := by
  rw [UInt16.toNat_add]
  refine Nat.mod_eq_of_lt ?_
  show file.pc.toNat + ahead.toNat < 0x10000
  omega

lemma toNat_pc_advance (h : file.pc.toNat ≤ 0x10FE) :
    file.advance.pc.toNat = file.pc.toNat + 2 :=
  file.toNat_pc_add h (by decide)

lemma toNat_pc_skip (h : file.pc.toNat ≤ 0x10FE) : file.skip.pc.toNat = file.pc.toNat + 4 :=
  file.toNat_pc_add h (by decide)

end RegisterFile

lemma Memory.lt_of_read8_ok {memory : Memory} {address : Nat} {byte : UInt8}
    (h : memory.read8 address = .ok byte) : address < memorySize := by
  unfold read8 at h
  split at h
  · assumption
  · cases h

lemma Memory.lt_of_read16_ok {memory : Memory} {address : Nat} {word : UInt16}
    (h : memory.read16 address = .ok word) : address + 1 < memorySize := by
  unfold read16 at h
  split at h
  · cases h
  · split at h
    · cases h
    · exact lt_of_read8_ok ‹_›

/-- A key that moves ends a wait and tells who waited, or it leaves the wait as it is. -/
lemma Keypad.setKey_ok {keypad after : Keypad} {code : UInt8} {down : Bool}
    {woken : Option Register} (h : keypad.setKey code down = .ok woken after) :
    (woken = keypad.awaiting ∧ after.awaiting = none) ∨
    (woken = none ∧ after.awaiting = keypad.awaiting) := by
  rw [setKey] at h
  split at h
  · dsimp only at h
    split at h
    · obtain ⟨rfl, rfl⟩ := EStateM.Result.ok.inj h
      exact Or.inl ⟨rfl, rfl⟩
    · obtain ⟨rfl, rfl⟩ := EStateM.Result.ok.inj h
      exact Or.inr ⟨rfl, rfl⟩
  · cases h

namespace Machine

variable {m after : Machine} {i : Instruction} {op : UInt16}

lemma fetch_ok (h : m.fetch = .ok (op, i)) :
    m.registers.pc.toNat ≤ 0xFFE ∧ Instruction.decode op = some i := by
  rw [fetch] at h
  split at h
  · cases h
  · rename_i opcode hread
    have hlt : m.registers.pc.toNat + 1 < 4096 := Memory.lt_of_read16_ok hread
    split at h
    · cases h
    · rename_i instruction hdecode
      obtain ⟨rfl, rfl⟩ := Prod.mk.inj (Except.ok.inj h)
      exact ⟨by omega, hdecode⟩

lemma fetch_of_read16 (hread : m.memory.read16 m.registers.pc.toNat = .ok op)
    (hdecode : Instruction.decode op = some i) : m.fetch = .ok (op, i) := by
  simp only [fetch, hread, hdecode]

/-- A key wait that was fetched is noted on the keypad, and that is all. -/
lemma step_awaitKey {x : Register} (hrun : m.halted = none) (hkey : m.keypad.awaiting = none)
    (hfetch : m.fetch = .ok (op, .awaitKey x)) :
    m.step.machine = { m with keypad := m.keypad.awaitKey x } := by
  rw [step_running hrun hkey, cycle, hfetch]
  rfl

/-- The sum that a jump with an offset goes to. -/
lemma toNat_offset_le {base : UInt16} (h : m.fetch = .ok (op, .jumpOffset base)) :
    base.toNat + (m.registers.get Register.v0).toNat ≤ 0x10FE := by
  have hbase := Instruction.toNat_lt_of_decode (fetch_ok h).2 (Or.inr (Or.inr rfl))
  have hv0 := (m.registers.get Register.v0).toNat_lt
  omega

/-! ## Coherent machines -/

/-- The parts of the machine agree with each other. -/
structure Coherent (m : Machine) : Prop where
  pc_le : m.registers.pc.toNat ≤ 0x10FE
  frames : ∀ frame ∈ m.stack.frames, 2 ≤ frame.toNat ∧ frame.toNat ≤ 0x1000
  halted_or_waiting : m.halted = none ∨ m.keypad.awaiting = none
  pc_waiting : ∀ x, m.keypad.awaiting = some x → m.registers.pc.toNat ≤ 0xFFE
  fatal : ∀ fault, m.halted = some fault → fault.isFatal = true
  pixels : m.screen.frame.Binary

namespace Coherent

/-- A machine that has just been switched on or reset. -/
lemma of_fresh (hregisters : m.registers = .initial) (hstack : m.stack = .empty)
    (hkeypad : m.keypad = .released) (hhalted : m.halted = none)
    (hscreen : m.screen.frame = .blank) : m.Coherent := by
  refine ⟨?_, ?_, Or.inl hhalted, ?_, ?_, ?_⟩
  · rw [hregisters]
    decide
  · rw [hstack]
    exact nofun
  · rw [hkeypad]
    exact nofun
  · rw [hhalted]
    exact nofun
  · rw [hscreen]
    exact Frame.binary_blank

lemma ofConfig (config : Config) (entropy : UInt64) :
    (Machine.ofConfig config entropy).Coherent :=
  of_fresh rfl rfl rfl rfl rfl

/-! ### Instructions -/

/-- Where the program counter may be sent by an instruction that was fetched. -/
lemma toNat_goto_le (hm : m.Coherent) (hfetch : m.fetch = .ok (op, i)) {flow : Flow}
    (heffect : Effect m i flow after) {address : UInt16} (hflow : flow = .goto address) :
    address.toNat ≤ 0x10FE := by
  have hdecode := (fetch_ok hfetch).2
  rcases heffect.goto address hflow with hjump | hcall | hframe | ⟨base, rfl, rfl⟩
  · have := Instruction.toNat_lt_of_decode hdecode (Or.inl hjump)
    omega
  · have := Instruction.toNat_lt_of_decode hdecode (Or.inr (Or.inl hcall))
    omega
  · have := (hm.frames address hframe).2
    omega
  · rw [UInt16.toNat_add]
    exact Nat.le_trans (Nat.mod_le _ _) (toNat_offset_le hfetch)

/-- The open calls after an instruction that was fetched. -/
lemma frames_effect (hm : m.Coherent) (hpc : m.registers.pc.toNat ≤ 0xFFE) {flow : Flow}
    (heffect : Effect m i flow after) :
    ∀ frame ∈ after.stack.frames, 2 ≤ frame.toNat ∧ frame.toNat ≤ 0x1000 := by
  intro frame hframe
  rcases heffect.stack with hsame | ⟨address, -, hpush⟩ | ⟨address, -, hpop⟩
  · rw [hsame] at hframe
    exact hm.frames frame hframe
  · rw [hpush] at hframe
    rcases List.mem_cons.mp hframe with rfl | hold
    -- the place after the call, which stood whole in memory
    · have hnext : (m.registers.pc + 2).toNat = m.registers.pc.toNat + 2 :=
        m.registers.toNat_pc_advance hm.pc_le
      omega
    · exact hm.frames frame hold
  · refine hm.frames frame ?_
    rw [hpop]
    exact List.mem_cons_of_mem address hframe

lemma binary_effect (hm : m.Coherent) {flow : Flow} (heffect : Effect m i flow after) :
    after.screen.frame.Binary := by
  rcases heffect.screen with hsame | hclear | ⟨x, y, rows, hdraw⟩
  · rw [hsame]
    exact hm.pixels
  · rw [hclear]
    exact Frame.binary_blank
  · rw [hdraw]
    exact Screen.binary_draw hm.pixels x y rows

/-- Following the program counter from where an instruction was fetched. -/
lemma toNat_pc_follow_le (hpc : m.registers.pc.toNat ≤ 0xFFE) {flow : Flow}
    (hgoto : ∀ address, flow = .goto address → address.toNat ≤ 0x10FE) :
    (m.follow flow).registers.pc.toNat ≤ 0x10FE := by
  cases flow with
  | next =>
    show m.registers.advance.pc.toNat ≤ 0x10FE
    rw [RegisterFile.toNat_pc_advance _ (by omega)]
    omega
  | skip =>
    show m.registers.skip.pc.toNat ≤ 0x10FE
    rw [RegisterFile.toNat_pc_skip _ (by omega)]
    omega
  | goto address => exact hgoto address rfl
  | stay =>
    show m.registers.pc.toNat ≤ 0x10FE
    omega

/-- The step lemma: an instruction that was fetched on a machine that runs. -/
lemma execute (hm : m.Coherent) (hrun : m.halted = none) (hkey : m.keypad.awaiting = none)
    (hfetch : m.fetch = .ok (op, i)) (h : m.execute i = .ok () after) : after.Coherent := by
  obtain ⟨flow, mid, heffect, rfl⟩ := execute_ok h
  have hpc := (fetch_ok hfetch).1
  have hpcmid : mid.registers.pc.toNat ≤ 0xFFE := by
    rw [heffect.pc]
    exact hpc
  have hhalted : mid.halted = none := heffect.halted.trans hrun
  refine ⟨toNat_pc_follow_le hpcmid fun address => hm.toNat_goto_le hfetch heffect, ?_, ?_, ?_,
    ?_, ?_⟩
  · rw [stack_follow]
    exact hm.frames_effect hpc heffect
  · rw [halted_follow]
    exact Or.inl hhalted
  · intro x hwait
    rw [keypad_follow] at hwait
    -- nobody waited before, so this was the key wait, which stays where it is
    rcases heffect.keypad with hsame | ⟨register, rfl, -⟩
    · rw [hsame, hkey] at hwait
      cases hwait
    · exact hpcmid
  · intro fault hfault
    rw [halted_follow, hhalted] at hfault
    cases hfault
  · rw [screen_follow]
    exact hm.binary_effect heffect

/-- A step of any machine. -/
lemma step (hm : m.Coherent) : m.step.machine.Coherent := by
  cases hrun : m.halted with
  | some fault =>
    rw [step_halted hrun]
    exact hm
  | none =>
    cases hkey : m.keypad.awaiting with
    | some x =>
      rw [step_waiting hrun hkey]
      exact hm
    | none =>
      rw [step_running hrun hkey]
      rcases m.cycle_cases with
        ⟨op, i, after, hfetch, hexecute, hafter, -⟩ | ⟨fault, hfatal, hafter, -⟩
      · rw [hafter]
        exact hm.execute hrun hkey hfetch hexecute
      · rw [hafter]
        -- the fault left everything as it was, so no key wait stands beside the halt
        refine ⟨hm.pc_le, hm.frames, Or.inr hkey, hm.pc_waiting, ?_, hm.pixels⟩
        rintro _ ⟨⟩
        exact hfatal

/-! ### The other operations -/

lemma loadProgram (hm : m.Coherent) (program : List UInt8) :
    (m.loadProgram program).machine.Coherent := by
  rw [Machine.loadProgram]
  split <;> exact ⟨hm.pc_le, hm.frames, hm.halted_or_waiting, hm.pc_waiting, hm.fatal, hm.pixels⟩

lemma reset (m : Machine) (entropy : UInt64) : (m.reset entropy).machine.Coherent :=
  of_fresh rfl rfl rfl rfl rfl

lemma tickTimers (hm : m.Coherent) : m.tickTimers.Coherent :=
  ⟨hm.pc_le, hm.frames, hm.halted_or_waiting, hm.pc_waiting, hm.fatal, hm.pixels⟩

lemma takeFrame (hm : m.Coherent) : m.takeFrame.2.Coherent := by
  refine ⟨hm.pc_le, hm.frames, hm.halted_or_waiting, hm.pc_waiting, hm.fatal, ?_⟩
  show m.screen.takeFrame.2.frame.Binary
  rw [Screen.takeFrame]
  split <;> exact hm.pixels

/-- A press that ends a wait moves the program counter, and so needs the bound for a machine that
waits. -/
lemma setKey (hm : m.Coherent) (code : UInt8) (down : Bool) :
    (m.setKey code down).machine.Coherent := by
  rw [Machine.setKey]
  cases hkey : m.keypad.setKey code down with
  | error fault keypad =>
    obtain ⟨rfl, -⟩ := Keypad.setKey_error hkey
    exact hm
  | ok woken keypad =>
    cases woken with
    | none =>
      have hwait : keypad.awaiting = none ∨ keypad.awaiting = m.keypad.awaiting := by
        rcases Keypad.setKey_ok hkey with ⟨-, hended⟩ | ⟨-, hkept⟩
        · exact Or.inl hended
        · exact Or.inr hkept
      refine ⟨hm.pc_le, hm.frames, ?_, ?_, hm.fatal, hm.pixels⟩
      · rcases hwait with hended | hkept
        · exact Or.inr hended
        · dsimp only
          rw [hkept]
          exact hm.halted_or_waiting
      · intro x hx
        rcases hwait with hended | hkept
        · dsimp only at hx
          rw [hended] at hx
          cases hx
        · exact hm.pc_waiting x (hkept.symm.trans hx)
    | some x =>
      obtain ⟨hwaited, hended⟩ : some x = m.keypad.awaiting ∧ keypad.awaiting = none := by
        rcases Keypad.setKey_ok hkey with hboth | ⟨hnone, -⟩
        · exact hboth
        · cases hnone
      have hpc := hm.pc_waiting x hwaited.symm
      have hnext : (m.registers.set x code).advance.pc.toNat = m.registers.pc.toNat + 2 :=
        (m.registers.set x code).toNat_pc_advance hm.pc_le
      refine ⟨?_, hm.frames, Or.inr hended, ?_, hm.fatal, hm.pixels⟩
      · dsimp only
        omega
      · intro y hy
        dsimp only at hy
        rw [hended] at hy
        cases hy

end Coherent

/-- Every reachable machine is coherent. -/
lemma Reachable.coherent (h : m.Reachable) : m.Coherent :=
  h.of_kept Coherent.ofConfig (fun _ program hm => hm.loadProgram program)
    (fun m entropy _ => Coherent.reset m entropy) (fun _ hm => hm.step)
    (fun _ code down hm => hm.setKey code down) (fun _ hm => hm.tickTimers)
    (fun _ hm => hm.takeFrame)

/-- What holds of every machine that a history of operations leads to; and since the program
counter stays as low as it does, none of the sums that it is part of, nor the sum that a jump
with an offset goes to, runs over sixteen bits. -/
theorem reachable_coherent (m : Machine) (h : m.Reachable) :
    m.registers.pc.toNat ≤ 0x10FE ∧
    (m.stack.depth ≤ 16 ∧
      ∀ frame ∈ m.stack.toList, 2 ≤ frame.toNat ∧ frame.toNat ≤ 0x1000) ∧
    ¬(m.halted ≠ none ∧ m.keypad.awaiting ≠ none) ∧
    (∀ x, m.keypad.awaiting = some x → m.registers.pc.toNat ≤ 0xFFE) ∧
    (∀ fault, m.halted = some fault → fault.isFatal = true) ∧
    (∀ x y, m.screen.frame.pixel x y = 0 ∨ m.screen.frame.pixel x y = 1) ∧
    (∀ i flow after, m.effect i = .ok flow after →
      after.registers.advance.pc.toNat = m.registers.pc.toNat + 2 ∧
      after.registers.skip.pc.toNat = m.registers.pc.toNat + 4) ∧
    (∀ x code, (m.registers.set x code).advance.pc.toNat = m.registers.pc.toNat + 2) ∧
    (m.registers.pc + 2).toNat = m.registers.pc.toNat + 2 ∧
    (∀ op base, m.fetch = .ok (op, .jumpOffset base) →
      base.toNat + (m.registers.get Register.v0).toNat < UInt16.size) := by
  have hm := h.coherent
  refine ⟨hm.pc_le, ⟨m.stack.bounded, ?_⟩, ?_, hm.pc_waiting, hm.fatal, hm.pixels, ?_, ?_, ?_, ?_⟩
  · intro frame hframe
    exact hm.frames frame (List.mem_reverse.mp hframe)
  · rintro ⟨hhalted, hwaiting⟩
    exact hm.halted_or_waiting.elim hhalted hwaiting
  · intro i flow after heffect
    have hpc := (effect_ok heffect).pc
    have hle : after.registers.pc.toNat ≤ 0x10FE := by
      rw [hpc]
      exact hm.pc_le
    rw [RegisterFile.toNat_pc_advance _ hle, RegisterFile.toNat_pc_skip _ hle, hpc]
    exact ⟨rfl, rfl⟩
  · intro x code
    exact (m.registers.set x code).toNat_pc_advance hm.pc_le
  · exact m.registers.toNat_pc_advance hm.pc_le
  · intro op base hfetch
    exact Nat.lt_of_le_of_lt (toNat_offset_le hfetch) (by decide)

/-- A program on a fresh machine. -/
lemma loadProgram_fresh (config : Config) (entropy : UInt64) {program : List UInt8}
    (hfits : program.length ≤ programCapacity) :
    ∃ memory, ((ofConfig config entropy).loadProgram program).machine
        = { ofConfig config entropy with memory } ∧
      ∀ {k : Nat} {high low : UInt8}, program[k]? = some high → program[k + 1]? = some low →
        memory.read16 (programStart + k)
          = .ok (UInt16.ofNat (high.toNat * 0x100 + low.toNat)) := by
  obtain ⟨memory, hload⟩ : ∃ memory, Memory.initial.load program = .ok () memory :=
    ⟨_, dif_pos hfits⟩
  refine ⟨memory, ?_, Memory.read16_of_load hload⟩
  simp only [loadProgram, ofConfig, hload]

/-- A program of one word on a fresh machine. -/
lemma loadProgram_word (config : Config) (entropy : UInt64) (high low : UInt8) :
    ∃ memory, ((ofConfig config entropy).loadProgram [high, low]).machine
        = { ofConfig config entropy with memory } ∧
      memory.read16 0x200 = .ok (UInt16.ofNat (high.toNat * 0x100 + low.toNat)) := by
  have hfits : [high, low].length ≤ programCapacity := show 2 ≤ programCapacity by decide
  obtain ⟨memory, heq, hread⟩ := loadProgram_fresh config entropy hfits
  exact ⟨memory, heq, hread (k := 0) rfl rfl⟩

/-- A machine whose program waits for a key. -/
def keyWaiter : Machine := ((ofConfig Config.standard 0).loadProgram [0xF0, 0x0A]).machine

lemma keyWaiter_eq : ∃ memory, keyWaiter = { ofConfig Config.standard 0 with memory } ∧
    memory.read16 0x200 = .ok 0xF00A :=
  loadProgram_word Config.standard 0 0xF0 0x0A

lemma parts_keyWaiter :
    keyWaiter.halted = none ∧ keyWaiter.keypad.awaiting = none ∧
      keyWaiter.fetch = .ok (0xF00A, .awaitKey Register.v0) := by
  obtain ⟨memory, heq, hread⟩ := keyWaiter_eq
  rw [heq]
  exact ⟨rfl, rfl, fetch_of_read16 hread rfl⟩

lemma step_keyWaiter : keyWaiter.step.result = .ok (.executed (.awaitKey Register.v0)) := by
  obtain ⟨hrun, hkey, hfetch⟩ := parts_keyWaiter
  rw [step_running hrun hkey, cycle, hfetch]
  rfl

/-- After its first step it waits, with the whole instruction at the program counter. -/
theorem reachable_coherent_keyWaiter :
    keyWaiter.step.machine.Reachable ∧
    keyWaiter.step.machine.keypad.awaiting = some Register.v0 ∧
    keyWaiter.step.machine.registers.pc.toNat ≤ 0xFFE := by
  have hreach : keyWaiter.step.machine.Reachable :=
    ((Reachable.start Config.standard 0).load [0xF0, 0x0A]).step
  have hwait : keyWaiter.step.machine.keypad.awaiting = some Register.v0 := by
    obtain ⟨memory, heq, hread⟩ := keyWaiter_eq
    have hfetch : keyWaiter.fetch = .ok (0xF00A, .awaitKey Register.v0) := by
      rw [heq]
      exact fetch_of_read16 hread rfl
    rw [heq] at hfetch ⊢
    rw [step_awaitKey rfl rfl hfetch]
    rfl
  exact ⟨hreach, hwait, (reachable_coherent _ hreach).2.2.2.1 _ hwait⟩

end Machine

end ChipVm
