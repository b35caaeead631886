/-
# What an instruction can do

An instruction has an effect on the machine and says where the program counter is to go.  This
file says once what effects there are, part by part, so that nothing later has to go through the
instruction set again:

* no effect moves the program counter, halts the machine or changes its settings;
* the stack changes only for a call, which puts the place after it on top, and for a return,
  which goes to what stood on top;
* the keypad changes only for a key wait, after which the program counter stays;
* the screen changes only by being cleared or drawn on;
* the program counter goes to another place only for a jump, a call or a return.
-/
import Mathlib.Tactic.Lemma
import ChipVm.Machine.Execute

namespace ChipVm

namespace Machine

variable {m after : Machine} {i : Instruction} {flow : Flow}

/-! ## The pieces of an effect -/

lemma pc_storeResult (file : RegisterFile) (x : Register) (result : UInt8 × Option Bool) :
    (storeResult file x result).pc = file.pc := by
  obtain ⟨value, _ | flag⟩ := result <;> rfl

/-- Storing bytes touches nothing but memory. -/
lemma storeAtIndex_ok {bytes : List UInt8} (h : m.storeAtIndex bytes = .ok () after) :
    ∃ memory, m.memory.write m.registers.i.toNat bytes = .ok () memory ∧
      after = { m with memory } := by
  simp only [storeAtIndex] at h
  split at h
  · cases h
  · split at h
    · cases h
    · rename_i memory hwrite
      obtain ⟨-, rfl⟩ := EStateM.Result.ok.inj h
      exact ⟨memory, hwrite, rfl⟩

/-- Moving the index register touches nothing but the index register. -/
lemma moveIndex_eq (m : Machine) (x : Register) :
    ∃ index, m.moveIndex x = { m with registers := m.registers.setIndex index } := by
  rw [moveIndex]
  split
  · exact ⟨_, rfl⟩
  · exact ⟨m.registers.i, rfl⟩

/-! ## Following the program counter

Wherever the program counter goes, nothing else changes. -/

@[simp] lemma stack_follow (m : Machine) (flow : Flow) : (m.follow flow).stack = m.stack := by
  cases flow <;> rfl

@[simp] lemma screen_follow (m : Machine) (flow : Flow) : (m.follow flow).screen = m.screen := by
  cases flow <;> rfl

@[simp] lemma keypad_follow (m : Machine) (flow : Flow) : (m.follow flow).keypad = m.keypad := by
  cases flow <;> rfl

@[simp] lemma halted_follow (m : Machine) (flow : Flow) : (m.follow flow).halted = m.halted := by
  cases flow <;> rfl

lemma settings_follow (m : Machine) (flow : Flow) :
    (m.follow flow).dialect = m.dialect ∧ (m.follow flow).seed = m.seed := by
  cases flow <;> exact ⟨rfl, rfl⟩

/-! ## Instructions that check something first

A call, a return and whatever reads or stores bytes may fail.  Where they do not, the check came
out well and this is what follows. -/

section Checked

variable {x y : Register} {address : UInt16}

lemma effect_ret_ok (h : m.effect .ret = .ok flow after) :
    ∃ address stack, m.stack.pop m.registers.pc = .ok address stack ∧
      flow = .goto address ∧ after = { m with stack } := by
  simp only [effect] at h
  split at h
  · cases h
  · rename_i address stack hpop
    obtain ⟨rfl, rfl⟩ := EStateM.Result.ok.inj h
    exact ⟨address, stack, hpop, rfl, rfl⟩

lemma effect_call_ok (h : m.effect (.call address) = .ok flow after) :
    ∃ stack, m.stack.push (m.registers.pc + 2) m.registers.pc = .ok () stack ∧
      flow = .goto address ∧ after = { m with stack } := by
  simp only [effect] at h
  split at h
  · cases h
  · rename_i stack hpush
    obtain ⟨rfl, rfl⟩ := EStateM.Result.ok.inj h
    exact ⟨stack, hpush, rfl, rfl⟩

lemma effect_draw_ok {height : UInt8} (h : m.effect (.draw x y height) = .ok flow after) :
    ∃ rows, m.memory.slice m.registers.i.toNat height.toNat = .ok rows ∧ flow = .next ∧
      after = { m with
        screen := (m.screen.draw (m.registers.get x) (m.registers.get y) rows).1
        registers := m.registers.setFlag
          (m.screen.draw (m.registers.get x) (m.registers.get y) rows).2 } := by
  simp only [effect] at h
  split at h
  · cases h
  · rename_i rows hslice
    obtain ⟨rfl, rfl⟩ := EStateM.Result.ok.inj h
    exact ⟨rows, hslice, rfl, rfl⟩

lemma effect_storeDecimal_ok (h : m.effect (.storeDecimal x) = .ok flow after) :
    m.storeAtIndex (decimalDigits (m.registers.get x)) = .ok () after ∧ flow = .next := by
  simp only [effect] at h
  split at h
  · cases h
  · rename_i stored hstore
    obtain ⟨rfl, rfl⟩ := EStateM.Result.ok.inj h
    exact ⟨hstore, rfl⟩

lemma effect_storeThrough_ok (h : m.effect (.storeThrough x) = .ok flow after) :
    ∃ stored, m.storeAtIndex (m.registers.valuesThrough x) = .ok () stored ∧ flow = .next ∧
      after = stored.moveIndex x := by
  simp only [effect] at h
  split at h
  · cases h
  · rename_i stored hstore
    obtain ⟨rfl, rfl⟩ := EStateM.Result.ok.inj h
    exact ⟨stored, hstore, rfl, rfl⟩

lemma effect_loadThrough_ok (h : m.effect (.loadThrough x) = .ok flow after) :
    ∃ bytes, m.memory.slice m.registers.i.toNat (x.index.val + 1) = .ok bytes ∧ flow = .next ∧
      after = ({ m with registers := m.registers.setThrough x bytes } : Machine).moveIndex x := by
  simp only [effect] at h
  split at h
  · cases h
  · rename_i bytes hslice
    obtain ⟨rfl, rfl⟩ := EStateM.Result.ok.inj h
    exact ⟨bytes, hslice, rfl, rfl⟩

end Checked

/-! ## Effects -/

/-- What an instruction that succeeds may have done to the parts of the machine. -/
structure Effect (m : Machine) (i : Instruction) (flow : Flow) (after : Machine) : Prop where
  pc : after.registers.pc = m.registers.pc
  halted : after.halted = m.halted
  settings : after.dialect = m.dialect ∧ after.seed = m.seed
  stack : after.stack = m.stack ∨
    (∃ address, i = .call address ∧
      after.stack.frames = (m.registers.pc + 2) :: m.stack.frames) ∨
    (∃ address, flow = .goto address ∧ m.stack.frames = address :: after.stack.frames)
  keypad : after.keypad = m.keypad ∨
    (∃ x, flow = .stay ∧ after.keypad = m.keypad.awaitKey x)
  screen : after.screen = m.screen ∨ after.screen = m.screen.clear ∨
    (∃ x y rows, after.screen = (m.screen.draw x y rows).1)
  goto : ∀ address, flow = .goto address →
    i = .jump address ∨ i = .call address ∨ address ∈ m.stack.frames ∨
    (∃ base, i = .jumpOffset base ∧ address = base + (m.registers.get Register.v0).toUInt16)

namespace Effect

/-- An effect on the rest of the machine only, after which the program goes on from where it
is. -/
lemma quiet (hpc : after.registers.pc = m.registers.pc) (hhalted : after.halted = m.halted)
    (hsettings : after.dialect = m.dialect ∧ after.seed = m.seed)
    (hstack : after.stack = m.stack) (hkeypad : after.keypad = m.keypad)
    (hscreen : after.screen = m.screen) (hflow : ∀ address, flow ≠ .goto address) :
    Effect m i flow after :=
  ⟨hpc, hhalted, hsettings, Or.inl hstack, Or.inl hkeypad, Or.inl hscreen,
    fun address h => absurd h (hflow address)⟩

/-- A jump that does nothing else. -/
lemma jump {address : UInt16}
    (hgoto : i = .jump address ∨ ∃ base, i = .jumpOffset base ∧
      address = base + (m.registers.get Register.v0).toUInt16) :
    Effect m i (.goto address) m := by
  refine ⟨rfl, rfl, ⟨rfl, rfl⟩, Or.inl rfl, Or.inl rfl, Or.inl rfl, ?_⟩
  rintro _ ⟨⟩
  rcases hgoto with hjump | hoffset
  · exact Or.inl hjump
  · exact Or.inr (Or.inr (Or.inr hoffset))

end Effect

/-- The effects of the instruction set. -/
lemma effect_ok (h : m.effect i = .ok flow after) : Effect m i flow after := by
  cases i with
  | ret =>
    obtain ⟨address, stack, hpop, rfl, rfl⟩ := effect_ret_ok h
    have htop := CallStack.frames_of_pop hpop
    refine ⟨rfl, rfl, ⟨rfl, rfl⟩, Or.inr (Or.inr ⟨address, rfl, htop⟩), Or.inl rfl,
      Or.inl rfl, ?_⟩
    rintro _ ⟨⟩
    refine Or.inr (Or.inr (Or.inl ?_))
    -- the place that is returned to was an open call
    rw [htop]
    exact List.mem_cons_self
  | call address =>
    obtain ⟨stack, hpush, rfl, rfl⟩ := effect_call_ok h
    refine ⟨rfl, rfl, ⟨rfl, rfl⟩,
      Or.inr (Or.inl ⟨address, rfl, CallStack.frames_of_push hpush⟩), Or.inl rfl, Or.inl rfl, ?_⟩
    rintro _ ⟨⟩
    exact Or.inr (Or.inl rfl)
  | jump address =>
    obtain ⟨rfl, rfl⟩ := EStateM.Result.ok.inj h
    exact Effect.jump (Or.inl rfl)
  | jumpOffset base =>
    obtain ⟨rfl, rfl⟩ := EStateM.Result.ok.inj h
    exact Effect.jump (Or.inr ⟨base, rfl, rfl⟩)
  | clear =>
    obtain ⟨rfl, rfl⟩ := EStateM.Result.ok.inj h
    exact ⟨rfl, rfl, ⟨rfl, rfl⟩, Or.inl rfl, Or.inl rfl, Or.inr (Or.inl rfl), nofun⟩
  | draw x y height =>
    obtain ⟨rows, -, rfl, rfl⟩ := effect_draw_ok h
    exact ⟨rfl, rfl, ⟨rfl, rfl⟩, Or.inl rfl, Or.inl rfl, Or.inr (Or.inr ⟨_, _, _, rfl⟩), nofun⟩
  | awaitKey x =>
    obtain ⟨rfl, rfl⟩ := EStateM.Result.ok.inj h
    exact ⟨rfl, rfl, ⟨rfl, rfl⟩, Or.inl rfl, Or.inr ⟨x, rfl, rfl⟩, Or.inl rfl, nofun⟩
  | skip condition =>
    obtain ⟨rfl, rfl⟩ := EStateM.Result.ok.inj h
    refine Effect.quiet rfl rfl ⟨rfl, rfl⟩ rfl rfl rfl ?_
    intro address
    split <;> exact nofun
  | storeDecimal x =>
    obtain ⟨hstore, rfl⟩ := effect_storeDecimal_ok h
    obtain ⟨memory, -, rfl⟩ := storeAtIndex_ok hstore
    exact Effect.quiet rfl rfl ⟨rfl, rfl⟩ rfl rfl rfl nofun
  | storeThrough x =>
    obtain ⟨stored, hstore, rfl, rfl⟩ := effect_storeThrough_ok h
    obtain ⟨memory, -, rfl⟩ := storeAtIndex_ok hstore
    obtain ⟨index, hindex⟩ := moveIndex_eq { m with memory } x
    rw [hindex]
    exact Effect.quiet rfl rfl ⟨rfl, rfl⟩ rfl rfl rfl nofun
  | loadThrough x =>
    obtain ⟨bytes, -, rfl, rfl⟩ := effect_loadThrough_ok h
    obtain ⟨index, hindex⟩ :=
      moveIndex_eq { m with registers := m.registers.setThrough x bytes } x
    rw [hindex]
    exact Effect.quiet (m.registers.pc_setThrough x bytes) rfl ⟨rfl, rfl⟩ rfl rfl rfl nofun
  | alu operation x y =>
    obtain ⟨rfl, rfl⟩ := EStateM.Result.ok.inj h
    exact Effect.quiet (pc_storeResult _ _ _) rfl ⟨rfl, rfl⟩ rfl rfl rfl nofun
  -- the rest works on registers, timers and random bytes
  | _ =>
    obtain ⟨rfl, rfl⟩ := EStateM.Result.ok.inj h
    exact Effect.quiet rfl rfl ⟨rfl, rfl⟩ rfl rfl rfl nofun

/-- To execute an instruction is to have its effect and then to follow the program counter. -/
lemma effect_of_execute (h : m.execute i = .ok () after) :
    ∃ flow mid, m.effect i = .ok flow mid ∧ after = mid.follow flow := by
  rw [execute] at h
  split at h
  · cases h
  · rename_i flow mid heffect
    obtain ⟨-, rfl⟩ := EStateM.Result.ok.inj h
    exact ⟨flow, mid, heffect, rfl⟩

lemma execute_ok (h : m.execute i = .ok () after) :
    ∃ flow mid, Effect m i flow mid ∧ after = mid.follow flow := by
  obtain ⟨flow, mid, heffect, hafter⟩ := effect_of_execute h
  exact ⟨flow, mid, effect_ok heffect, hafter⟩

end Machine

end ChipVm
