/-
# Waiting for a key

A key wait involves three parts of the machine: the instruction notes on the keypad which
register waits, a step does nothing while one does, and the next key press stores its code and
moves the program counter, outside of any instruction.

While a register waits, whatever happens to the machine leaves its core as it is, until a key
that exists is pressed.  That press puts its code into the register and the program counter past
the instruction, and does nothing else.  After it nobody waits until the next key wait runs, so
presses in between store nothing.
-/
import Mathlib.Tactic.Lemma
import ChipVm.Proofs.Machine.History
import ChipVm.Proofs.Machine.Invariant

namespace ChipVm

/-- What can be done while a program waits for a key without ending the wait: anything but to
press a key that exists, to load a program and to reset. -/
def Command.Idle : Command → Prop
  | .load _ => False
  | .reset _ => False
  | .setKey code down => down = false ∨ keyCount ≤ code.toNat
  | _ => True

namespace Machine

variable {m : Machine} {i : Instruction} {op : UInt16} {x : Register} {code : UInt8} {down : Bool}

/-! ## Moving a key -/

lemma setKey_absent (m : Machine) (hcode : keyCount ≤ code.toNat) (down : Bool) :
    m.setKey code down = ⟨m, .error (.noSuchKey code), #[]⟩ := by
  simp only [setKey, Keypad.setKey, dif_neg (Nat.not_lt.mpr hcode)]

/-- A key that is let go leaves whoever waits waiting. -/
lemma setKey_release (m : Machine) (hcode : code.toNat < keyCount) :
    m.setKey code false = ⟨{ m with
      keypad := ⟨m.keypad.keys.set code.toNat false hcode, m.keypad.awaiting⟩ }, .ok (), #[]⟩ := by
  simp [setKey, Keypad.setKey, hcode]

lemma setKey_press (hcode : code.toNat < keyCount) (h : m.keypad.awaiting = none) :
    m.setKey code true = ⟨{ m with
      keypad := ⟨m.keypad.keys.set code.toNat true hcode, none⟩ }, .ok (), #[]⟩ := by
  simp [setKey, Keypad.setKey, hcode, h]

/-- The press of a key that is waited for. -/
lemma setKey_resume (hcode : code.toNat < keyCount) (h : m.keypad.awaiting = some x) :
    m.setKey code true = ⟨{ m with
      keypad := ⟨m.keypad.keys.set code.toNat true hcode, none⟩
      registers := (m.registers.set x code).advance }, .ok (), #[.resumed x code]⟩ := by
  simp [setKey, Keypad.setKey, hcode, h]

/-- A key that does not end a wait changes nothing but the keys. -/
lemma setKey_idle (m : Machine) (code : UInt8) (down : Bool)
    (h : down = false ∨ keyCount ≤ code.toNat ∨ m.keypad.awaiting = none) :
    ∃ keys, (m.setKey code down).machine = { m with keypad := ⟨keys, m.keypad.awaiting⟩ } := by
  rcases Nat.lt_or_ge code.toNat keyCount with hcode | hcode
  · cases down with
    | false =>
      rw [setKey_release m hcode]
      exact ⟨_, rfl⟩
    | true =>
      have hnone : m.keypad.awaiting = none :=
        (h.resolve_left nofun).resolve_left (Nat.not_le.mpr hcode)
      rw [setKey_press hcode hnone, hnone]
      exact ⟨_, rfl⟩
  · rw [setKey_absent m hcode]
    exact ⟨m.keypad.keys, rfl⟩

/-- Nothing differs that a program waits for, is stopped by or works on. -/
structure Still (m after : Machine) : Prop where
  halted : after.halted = m.halted
  awaiting : after.keypad.awaiting = m.keypad.awaiting
  core : after.core = m.core

lemma still_tickTimers (m : Machine) : Still m m.tickTimers := ⟨rfl, rfl, m.core_tickTimers⟩

lemma still_takeFrame (m : Machine) : Still m m.takeFrame.2 := ⟨rfl, rfl, m.core_takeFrame⟩

lemma still_setKey (h : down = false ∨ keyCount ≤ code.toNat ∨ m.keypad.awaiting = none) :
    Still m (m.setKey code down).machine := by
  obtain ⟨keys, hkeys⟩ := m.setKey_idle code down h
  rw [hkeys]
  exact ⟨rfl, rfl, rfl⟩

/-! ## While a register waits -/

/-- The machine waits for a key into `x`, with the core of `before`. -/
structure Waiting (before : Machine) (x : Register) (m : Machine) : Prop where
  halted : m.halted = none
  awaiting : m.keypad.awaiting = some x
  core : m.core = before.core

/-- The key wait itself only notes who waits. -/
lemma waiting_step (hrun : m.halted = none) (hkey : m.keypad.awaiting = none)
    (hfetch : m.fetch = .ok (op, .awaitKey x)) : Waiting m x m.step.machine := by
  rw [step_awaitKey hrun hkey hfetch]
  exact ⟨hrun, rfl, rfl⟩

namespace Waiting

variable {before : Machine}

lemma step_eq (h : Waiting before x m) : m.step = ⟨m, .ok (.waiting x), #[]⟩ :=
  step_waiting h.halted h.awaiting

lemma status_eq (h : Waiting before x m) : m.status = .waiting x := by
  simp only [status, h.halted, h.awaiting]

lemma step (h : Waiting before x m) : Waiting before x m.step.machine := by
  rw [h.step_eq]
  exact h

lemma of_still {after : Machine} (h : Waiting before x m) (hstill : Still m after) :
    Waiting before x after :=
  ⟨hstill.halted.trans h.halted, hstill.awaiting.trans h.awaiting, hstill.core.trans h.core⟩

lemma tickTimers (h : Waiting before x m) : Waiting before x m.tickTimers :=
  h.of_still m.still_tickTimers

/-- Whatever is done in the meantime, the machine goes on waiting. -/
lemma after_idle (h : Waiting before x m) {idle : List Operation}
    (hidle : ∀ operation ∈ idle, operation.command.Idle) : Waiting before x (m.after idle) := by
  refine after_keeps (fun _ hm => hm.step) (fun _ hm => hm.tickTimers) ?_ h
  rintro ⟨command, scheduler⟩ hmem
  have hcommand := hidle _ hmem
  cases command with
  | load program => exact hcommand.elim
  | reset entropy => exact hcommand.elim
  | setKey code down => exact fun _ hm => hm.of_still (still_setKey (hcommand.imp_right Or.inl))
  | takeFrame => exact fun m hm => hm.of_still m.still_takeFrame
  | _ => trivial

end Waiting

/-! ## While nobody waits -/

/-- Only a key wait stays where it is. -/
lemma exists_awaitKey_of_stay {after : Machine} (h : m.effect i = .ok .stay after) :
    ∃ x, i = .awaitKey x := by
  cases i with
  | awaitKey x => exact ⟨x, rfl⟩
  | skip condition =>
    simp only [effect, EStateM.Result.ok.injEq] at h
    have := h.1
    split at this <;> cases this
  | ret | call | draw | storeDecimal | storeThrough | loadThrough =>
    simp only [effect] at h
    split at h <;> cases h
  | _ => cases h

/-- An instruction that runs and is no key wait leaves the keypad as it is. -/
lemma keypad_execute {after : Machine} (h : m.execute i = .ok () after)
    (hi : ∀ x, i ≠ .awaitKey x) : after.keypad = m.keypad := by
  obtain ⟨flow, mid, heffect, rfl⟩ := effect_of_execute h
  rw [keypad_follow]
  rcases (effect_ok heffect).keypad with hsame | ⟨x, rfl, -⟩
  · exact hsame
  · obtain ⟨x, hx⟩ := exists_awaitKey_of_stay heffect
    exact absurd hx (hi x)

lemma keypad_step (h : ∀ x, m.upcoming ≠ some (.awaitKey x)) :
    m.step.machine.keypad = m.keypad := by
  cases hrun : m.halted with
  | some fault => rw [step_halted hrun]
  | none =>
    cases hkey : m.keypad.awaiting with
    | some x => rw [step_waiting hrun hkey]
    | none =>
      rw [step_running hrun hkey]
      rcases m.cycle_cases with ⟨op, i, after, hfetch, hexecute, hafter, -⟩ | ⟨fault, -, hafter, -⟩
      · rw [hafter]
        refine keypad_execute hexecute fun x hx => h x ?_
        rw [upcoming_running hrun hkey, hfetch, hx]
      · rw [hafter]

/-- Nobody waits before the next key wait runs. -/
lemma awaiting_after (h : m.keypad.awaiting = none) {later : List Operation}
    (hlater : ∀ op x registers, .executing op (.awaitKey x) registers ∉ m.journal later) :
    (m.after later).keypad.awaiting = none := by
  refine after_keeps_unless (P := fun m => m.keypad.awaiting = none)
    (Q := fun entry => ∀ op x registers, entry ≠ .executing op (.awaitKey x) registers)
    ?_ (fun _ hm => hm) ?_ h ?_
  · intro m hm hlog
    rw [keypad_step]
    · exact hm
    · intro x hx
      obtain ⟨op, registers, hmem⟩ := mem_log_step.mpr hx
      exact hlog _ hmem op x registers rfl
  · rintro ⟨command, scheduler⟩ -
    cases command with
    | load program =>
      intro m hm
      rw [loadProgram]
      split <;> exact hm
    | reset entropy => exact fun _ _ => rfl
    | setKey code down =>
      intro m hm
      obtain ⟨keys, hkeys⟩ := m.setKey_idle code down (Or.inr (Or.inr hm))
      rw [hkeys]
      exact hm
    | takeFrame => exact fun _ hm => hm
    | _ => trivial
  · rintro entry hentry op x registers rfl
    exact hlater op x registers hentry

/-! ## From the key wait to the next one -/

lemma parts_of_status_running (h : m.status = .running) :
    m.halted = none ∧ m.keypad.awaiting = none := by
  unfold status at h
  split at h
  · cases h
  · cases h
  · exact ⟨‹_›, ‹_›⟩

/-- What a program that runs into a key wait goes through: the wait, through whatever is done in
the meantime; the key press that ends it; and the presses after that. -/
theorem key_wait_protocol (m : Machine) (x : Register) (hrun : m.status = .running)
    (hop : m.memory.read16 m.registers.pc.toNat = .ok (Instruction.awaitKey x).encode) :
    m.step.machine.status = .waiting x ∧
    m.step.machine.registers.pc = m.registers.pc ∧
    ∀ idle : List Operation, (∀ operation ∈ idle, operation.command.Idle) →
      ∀ waiting, waiting = m.step.machine.after idle →
      waiting.step.result = .ok (.waiting x) ∧
      waiting.core = m.core ∧
      ∀ code : UInt8, code.toNat < keyCount →
        ∀ resumed, resumed = (waiting.setKey code true).machine →
        (waiting.setKey code true).result = .ok () ∧
        resumed.registers.get x = code ∧
        (∀ y, y ≠ x → resumed.registers.get y = m.registers.get y) ∧
        resumed.registers.i = m.registers.i ∧
        resumed.registers.pc.toNat = m.registers.pc.toNat + 2 ∧
        resumed.core = { m.core with registers := resumed.registers } ∧
        resumed.status = .running ∧
        ∀ later : List Operation,
          (∀ op y registers, .executing op (.awaitKey y) registers ∉ resumed.journal later) →
          ∀ further, ((resumed.after later).setKey further true).machine.core
            = (resumed.after later).core := by
  obtain ⟨hhalted, hkey⟩ := parts_of_status_running hrun
  have hfetch : m.fetch = .ok (_, .awaitKey x) :=
    fetch_of_read16 hop (Instruction.decode_encode _)
  have hwait := waiting_step hhalted hkey hfetch
  refine ⟨hwait.status_eq, congrArg (fun core => core.registers.pc) hwait.core, ?_⟩
  rintro idle hidle waiting rfl
  have hstill := hwait.after_idle hidle
  generalize m.step.machine.after idle = waiting at hstill
  refine ⟨by rw [hstill.step_eq], hstill.core, ?_⟩
  rintro code hcode resumed rfl
  have hregisters : waiting.registers = m.registers := congrArg Core.registers hstill.core
  have hnext : (m.registers.set x code).advance.pc.toNat = m.registers.pc.toNat + 2 :=
    (m.registers.set x code).toNat_pc_advance (Nat.le_trans (fetch_ok hfetch).1 (by decide))
  rw [setKey_resume hcode hstill.awaiting, hregisters]
  refine ⟨rfl, ?_, ?_, rfl, hnext, ?_, ?_, ?_⟩
  · exact m.registers.get_set_self x code
  · intro y hy
    exact m.registers.get_set_of_ne code (Ne.symm hy)
  · rw [← hstill.core]
    rfl
  · simp only [status, hstill.halted]
  · intro later hlater further
    have hnone := awaiting_after rfl hlater
    obtain ⟨keys, hkeys⟩ := setKey_idle _ further true (Or.inr (Or.inr hnone))
    rw [hkeys]
    rfl

/-- While the program of `keyWaiter` waits, time passes, a key goes up and one is pressed that
does not exist. -/
def meantime : List Operation :=
  [⟨.advance ⟨50000000, by decide⟩, Scheduler.ofRate 700⟩, ⟨.setKey 3 false, Scheduler.ofRate 700⟩,
    ⟨.setKey 16 true, Scheduler.ofRate 60⟩]

/-- The wait outlasts all of this; then key 7 ends it, and key 9 is stored nowhere. -/
theorem key_wait_protocol_keyWaiter :
    keyWaiter.status = .running ∧
    keyWaiter.memory.read16 keyWaiter.registers.pc.toNat
      = .ok (Instruction.awaitKey Register.v0).encode ∧
    (keyWaiter.step.machine.after meantime).step.result = .ok (.waiting Register.v0) ∧
    ∀ resumed, resumed = ((keyWaiter.step.machine.after meantime).setKey 7 true).machine →
      resumed.registers.get Register.v0 = 7 ∧
      resumed.registers.pc.toNat = 0x202 ∧
      resumed.status = .running ∧
      (resumed.setKey 9 true).machine.core = resumed.core := by
  obtain ⟨memory, heq, hread⟩ := keyWaiter_eq
  have hidle : ∀ operation ∈ meantime, operation.command.Idle := by
    simp [meantime, Command.Idle]
  have hrun : keyWaiter.status = .running := by
    rw [heq]
    rfl
  have hpc : keyWaiter.registers.pc.toNat = 0x200 := by
    rw [heq]
    rfl
  have hop : keyWaiter.memory.read16 keyWaiter.registers.pc.toNat
      = .ok (Instruction.awaitKey Register.v0).encode := by
    rw [hpc, heq]
    exact hread
  obtain ⟨-, -, hwait⟩ := key_wait_protocol keyWaiter Register.v0 hrun hop
  obtain ⟨hstep, -, hpress⟩ := hwait meantime hidle _ rfl
  refine ⟨hrun, hop, hstep, ?_⟩
  intro resumed hresumed
  obtain ⟨-, hvalue, -, -, hnext, -, hstatus, hlater⟩ := hpress 7 (by decide) resumed hresumed
  refine ⟨hvalue, by rw [hnext, hpc], hstatus, ?_⟩
  exact hlater [] (fun _ _ _ => List.not_mem_nil) 9

end Machine

end ChipVm
