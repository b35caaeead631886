/-
# Instructions that leave a part of the machine aside

Most instructions have to do with few parts of the machine.  Whether such a part is changed
before or after one of them makes no difference.

A change is aside when it has nothing to do with the memory, the registers, the open calls, the
halt and the wait: it keeps them, and they may be set before it as well as after it.  A step looks
at nothing else before it knows its instruction, and does nothing else after it.  An instruction
ignores a change when its effect on the changed machine is the changed effect.  If the
instruction that is to run next ignores a change that is aside, the change commutes with the step,
with the same result and the same journal (`Machine.step_change`), also when the step does not run
at all or fails.

What only moves values between the memory, the registers and the open calls ignores every such
change; the block transfers do if it keeps the switch that they depend on
(`Machine.Aside.effect_storeThrough`, `Machine.Aside.effect_loadThrough`).

The timers, the screen and the keys are the parts that also change from outside.  A change of
these is aside, and an instruction ignores it if it has nothing to do with what is changed
(`Machine.ignores_adjust`).  A tick of the timers is the first example.
-/
import Mathlib.Tactic.Lemma
import ChipVm.Proofs.Machine.Journal

namespace ChipVm

/-- Does something to the state that an operation has left, and nothing to what it came to. -/
def Outcome.mapState {σ α : Type} (change : σ → σ) : Outcome σ α → Outcome σ α
  | .ok value state => .ok value (change state)
  | .error fault state => .error fault (change state)

namespace Machine

/-- Does something to the machine that an operation has left. -/
def Reply.map {α : Type} (change : Machine → Machine) (reply : Reply α) : Reply α :=
  ⟨change reply.machine, reply.result, reply.log⟩

/-- A change that no step notices, but for the effect of its instruction. -/
structure Aside (change : Machine → Machine) : Prop where
  memory : ∀ m, (change m).memory = m.memory
  registers : ∀ m, (change m).registers = m.registers
  stack : ∀ m, (change m).stack = m.stack
  halted : ∀ m, (change m).halted = m.halted
  awaiting : ∀ m, (change m).keypad.awaiting = m.keypad.awaiting
  setMemory : ∀ m memory, { change m with memory } = change { m with memory }
  setRegisters : ∀ m registers, { change m with registers } = change { m with registers }
  setStack : ∀ m stack, { change m with stack } = change { m with stack }
  halt : ∀ m fault, { change m with halted := some fault } = change { m with halted := some fault }

/-- The effect of the instruction is the same before the change as after it. -/
def Ignores (i : Instruction) (change : Machine → Machine) : Prop :=
  ∀ m, (change m).effect i = (m.effect i).mapState change

variable {change change' : Machine → Machine} {m : Machine} {i : Instruction}

/-! ## Changes that are aside -/

namespace Aside

lemma follow_eq (hc : Aside change) (m : Machine) (flow : Flow) :
    (change m).follow flow = change (m.follow flow) := by
  cases flow with
  | stay => rfl
  | next | skip | goto => simp only [follow, hc.registers, hc.setRegisters]

lemma fetch_eq (hc : Aside change) (m : Machine) : (change m).fetch = m.fetch := by
  rw [fetch, fetch, hc.memory, hc.registers]

lemma upcoming_eq (hc : Aside change) (m : Machine) : (change m).upcoming = m.upcoming := by
  rw [upcoming, upcoming, hc.halted, hc.awaiting, hc.fetch_eq]

lemma execute_eq (hc : Aside change') (hi : (change m).effect i = (m.effect i).mapState change') :
    (change m).execute i = (m.execute i).mapState change' := by
  rw [execute, execute, hi]
  cases m.effect i with
  | error fault after => rfl
  | ok flow after => exact congrArg (EStateM.Result.ok ()) (hc.follow_eq after flow)

/-- A step that runs an instruction turns a change beforehand into what its effect turns it
into. -/
lemma step_of_upcoming (hc : Aside change) (hc' : Aside change') (h : m.upcoming = some i)
    (hi : (change m).effect i = (m.effect i).mapState change') :
    (change m).step = m.step.map change' := by
  obtain ⟨hrun, hkey, op, hfetch⟩ := upcoming_eq_some.mp h
  rw [step_running hrun hkey,
    step_running ((hc.halted m).trans hrun) ((hc.awaiting m).trans hkey),
    cycle, cycle, hc.fetch_eq, hc.registers, hfetch]
  dsimp only
  rw [hc'.execute_eq hi]
  cases m.execute i with
  | error fault after => simp only [Outcome.mapState, Machine.halt, Reply.map, hc'.halt]
  | ok _ after => rfl

/-- A step that runs no instruction notices no change. -/
lemma step_of_none (hc : Aside change) (h : m.upcoming = none) :
    (change m).step = m.step.map change := by
  rw [step, step, hc.halted, hc.awaiting]
  cases hrun : m.halted with
  | some fault => rfl
  | none =>
    cases hkey : m.keypad.awaiting with
    | some x => rfl
    | none =>
      dsimp only
      rw [cycle, cycle, hc.fetch_eq]
      cases hfetch : m.fetch with
      | error fault => simp only [Machine.halt, Reply.map, hc.halt]
      | ok found =>
        rw [upcoming_running hrun hkey, hfetch] at h
        cases h

/-! ### Memory, registers and open calls

The change is first put past what an instruction sets, and then dropped from what it reads. -/

lemma storeAtIndex_eq (hc : Aside change) (m : Machine) (bytes : List UInt8) :
    (change m).storeAtIndex bytes = (m.storeAtIndex bytes).mapState change := by
  simp only [storeAtIndex, hc.setMemory]
  rw [hc.memory, hc.registers]
  cases m.memory.slice m.registers.i.toNat bytes.length with
  | error fault => rfl
  | ok window => cases m.memory.write m.registers.i.toNat bytes <;> rfl

lemma moveIndex_eq (hc : Aside change)
    (h : (change m).dialect.transferMovesIndex = m.dialect.transferMovesIndex) (x : Register) :
    (change m).moveIndex x = change (m.moveIndex x) := by
  rw [moveIndex, moveIndex, h, hc.registers, hc.setRegisters, apply_ite change]

lemma effect_ret (hc : Aside change) (m : Machine) :
    (change m).effect .ret = (m.effect .ret).mapState change := by
  simp only [effect, hc.setStack]
  rw [hc.stack, hc.registers]
  cases m.stack.pop m.registers.pc <;> rfl

lemma effect_call (hc : Aside change) (m : Machine) (address : UInt16) :
    (change m).effect (.call address) = (m.effect (.call address)).mapState change := by
  simp only [effect, hc.setStack]
  rw [hc.stack, hc.registers]
  cases m.stack.push (m.registers.pc + 2) m.registers.pc <;> rfl

lemma effect_storeDecimal (hc : Aside change) (m : Machine) (x : Register) :
    (change m).effect (.storeDecimal x) = (m.effect (.storeDecimal x)).mapState change := by
  simp only [effect, hc.storeAtIndex_eq, hc.registers]
  cases m.storeAtIndex (decimalDigits (m.registers.get x)) <;> rfl

lemma effect_storeThrough (hc : Aside change)
    (h : (change m).dialect.transferMovesIndex = m.dialect.transferMovesIndex) (x : Register) :
    (change m).effect (.storeThrough x) = (m.effect (.storeThrough x)).mapState change := by
  simp only [effect, hc.storeAtIndex_eq, hc.registers]
  cases hstore : m.storeAtIndex (m.registers.valuesThrough x) with
  | error fault after => rfl
  | ok _ after =>
    -- the bytes are stored before the index register moves, and the dialect is still the same
    obtain ⟨memory, -, rfl⟩ := storeAtIndex_ok hstore
    refine congrArg (EStateM.Result.ok Flow.next) (hc.moveIndex_eq ?_ x)
    rw [← hc.setMemory]
    exact h

lemma effect_loadThrough (hc : Aside change)
    (h : (change m).dialect.transferMovesIndex = m.dialect.transferMovesIndex) (x : Register) :
    (change m).effect (.loadThrough x) = (m.effect (.loadThrough x)).mapState change := by
  simp only [effect, hc.setRegisters]
  rw [hc.memory, hc.registers]
  cases m.memory.slice m.registers.i.toNat (x.index.val + 1) with
  | error fault => rfl
  | ok bytes =>
    refine congrArg (EStateM.Result.ok Flow.next) (hc.moveIndex_eq ?_ x)
    rw [← hc.setRegisters]
    exact h

/-! ### What is done from outside -/

lemma loadProgram_eq (hc : Aside change) (m : Machine) (program : List UInt8) :
    (change m).loadProgram program = (m.loadProgram program).map change := by
  simp only [loadProgram, hc.setMemory]
  rw [hc.memory]
  cases m.memory.load program <;> rfl

/-- Keys move in the same way before and after a change that has nothing to do with the keypad
either. -/
lemma setKey_eq (hc : Aside change) (hkeypad : ∀ m, (change m).keypad = m.keypad)
    (hset : ∀ m keypad, { change m with keypad } = change { m with keypad })
    (m : Machine) (code : UInt8) (down : Bool) :
    (change m).setKey code down = (m.setKey code down).map change := by
  -- a press that is waited for sets the keypad and the registers
  have hboth : ∀ keypad registers,
      { change m with keypad, registers } = change { m with keypad, registers } := by
    intro keypad registers
    have hkeys := congrArg (fun after => { after with registers }) (hset m keypad)
    exact hkeys.trans (hc.setRegisters { m with keypad } registers)
  simp only [setKey, hset, hboth]
  rw [hkeypad, hc.registers]
  rcases m.keypad.setKey code down with ⟨_ | register, keypad⟩ | ⟨fault, keypad⟩ <;> rfl

end Aside

/-- A change that is aside commutes with a step whose instruction ignores it. -/
lemma step_change (hc : Aside change) (hi : ∀ i, m.upcoming = some i → Ignores i change) :
    (change m).step = m.step.map change := by
  cases hup : m.upcoming with
  | none => exact hc.step_of_none hup
  | some i => exact hc.step_of_upcoming hc hup (hi i hup m)

/-- What a change would have left as it was before a step whose instruction ignores it, it would
leave as it is after it. -/
lemma step_fixed (hc : Aside change) (hi : ∀ i, m.upcoming = some i → Ignores i change)
    (hfixed : change m = m) : change m.step.machine = m.step.machine := by
  have hstep := step_change hc hi
  rw [hfixed] at hstep
  exact (congrArg Reply.machine hstep).symm

end Machine

/-! ## The parts that change from outside -/

namespace Instruction

/-- Whether the instruction reads or sets a timer. -/
def usesTimers : Instruction → Bool
  | .loadDelay _ => true
  | .setDelay _ => true
  | .setSound _ => true
  | _ => false

/-- Whether the instruction changes the screen. -/
def usesScreen : Instruction → Bool
  | .clear => true
  | .draw _ _ _ => true
  | _ => false

/-- Whether the instruction looks at the keys. -/
def usesKeys : Instruction → Bool
  | .skip (.pressed _) => true
  | .skip (.released _) => true
  | _ => false

end Instruction

namespace Machine

variable {m : Machine} {i : Instruction} {timers : Timers → Timers} {screen : Screen → Screen}
  {keys : Vector Bool keyCount → Vector Bool keyCount}

/-- Changes the timers, the screen and the keys. -/
def adjust (timers : Timers → Timers) (screen : Screen → Screen)
    (keys : Vector Bool keyCount → Vector Bool keyCount) (m : Machine) : Machine :=
  { m with
    timers := timers m.timers
    screen := screen m.screen
    keypad := { m.keypad with keys := keys m.keypad.keys } }

lemma aside_adjust (timers : Timers → Timers) (screen : Screen → Screen)
    (keys : Vector Bool keyCount → Vector Bool keyCount) : Aside (adjust timers screen keys) :=
  ⟨fun _ => rfl, fun _ => rfl, fun _ => rfl, fun _ => rfl, fun _ => rfl, fun _ _ => rfl,
    fun _ _ => rfl, fun _ _ => rfl, fun _ _ => rfl⟩

/-- An instruction ignores a change of parts that it has nothing to do with. -/
lemma ignores_adjust (htimers : timers = id ∨ i.usesTimers = false)
    (hscreen : screen = id ∨ i.usesScreen = false) (hkeys : keys = id ∨ i.usesKeys = false) :
    Ignores i (adjust timers screen keys) := by
  intro m
  have haside := aside_adjust timers screen keys
  cases i with
  | loadDelay | setDelay | setSound =>
    obtain rfl := htimers.resolve_right (by simp [Instruction.usesTimers])
    rfl
  | clear =>
    obtain rfl := hscreen.resolve_right (by simp [Instruction.usesScreen])
    rfl
  | draw x y height =>
    obtain rfl := hscreen.resolve_right (by simp [Instruction.usesScreen])
    simp only [effect, adjust]
    cases m.memory.slice m.registers.i.toNat height.toNat <;> rfl
  | skip condition =>
    cases condition with
    | pressed | released =>
      obtain rfl := hkeys.resolve_right (by simp [Instruction.usesKeys])
      rfl
    | _ => rfl
  | ret => exact haside.effect_ret m
  | call address => exact haside.effect_call m address
  | storeDecimal x => exact haside.effect_storeDecimal m x
  | storeThrough x => exact haside.effect_storeThrough rfl x
  | loadThrough x => exact haside.effect_loadThrough rfl x
  | _ => rfl

/-! ## Ticks -/

lemma aside_tickTimers : Aside tickTimers := aside_adjust Timers.tick id id

/-- An instruction that has nothing to do with the timers ignores their ticks. -/
lemma ignores_tickTimers (h : i.usesTimers = false) : Ignores i tickTimers := by
  have htick : Ignores i (adjust Timers.tick id id) :=
    ignores_adjust (Or.inr h) (Or.inl rfl) (Or.inl rfl)
  exact htick

lemma tickTimes_add (m : Machine) (first second : Nat) :
    m.tickTimes (first + second) = (m.tickTimes first).tickTimes second := by
  induction first generalizing m with
  | zero => rw [Nat.zero_add, tickTimes]
  | succ first ih =>
    rw [Nat.succ_add]
    exact ih m.tickTimers

lemma upcoming_tickTimes (m : Machine) (times : Nat) :
    (m.tickTimes times).upcoming = m.upcoming := by
  induction times generalizing m with
  | zero => rfl
  | succ times ih => exact (ih m.tickTimers).trans (aside_tickTimers.upcoming_eq m)

/-- Ticks commute with a step that has nothing to do with the timers. -/
lemma step_tickTimes (h : ∀ i, m.upcoming = some i → i.usesTimers = false) (times : Nat) :
    (m.tickTimes times).step = m.step.map fun after => after.tickTimes times := by
  induction times generalizing m with
  | zero => rfl
  | succ times ih =>
    have hone : m.tickTimers.step = m.step.map tickTimers :=
      step_change aside_tickTimers fun i hi => ignores_tickTimers (h i hi)
    have hupcoming := aside_tickTimers.upcoming_eq m
    rw [tickTimes, ih fun i hi => h i (hupcoming ▸ hi), hone]
    rfl

end Machine

end ChipVm
