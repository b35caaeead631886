/-
# Calls and returns match

A call puts the place after it on top of the open calls, and a return goes to what stands on top.
In between other calls come and go on top of it, keys are pressed, time passes and even another
program is loaded.  As long as the call is open, what was open before it stays as it was, with
the place to return to on top: the frames of the call are a suffix of the frames of every machine
on the way (`Machine.suffix_after`).  So the return that closes it goes to the place after the
call, and leaves the calls that were open before.

A step opens one call, closes one, or leaves the open calls alone (`Machine.frames_step`).  That
is the step lemma; nothing else that can be done to a machine has to do with calls, but for a
reset, which forgets them.
-/
import Mathlib.Tactic.Lemma
import ChipVm.Proofs.Machine.History
import ChipVm.Proofs.Machine.Invariant

namespace ChipVm

lemma CallStack.pop_of_frames {stack : CallStack} {address : UInt16} {frames : List UInt16}
    (h : stack.frames = address :: frames) (pc : UInt16) :
    ∃ hbound, stack.pop pc = .ok address ⟨frames, hbound⟩ := by
  obtain ⟨_, bounded⟩ := stack
  subst h
  exact ⟨_, rfl⟩

/-- The commands that take at most one step and do not start the machine over. -/
def Command.Single : Command → Prop
  | .reset _ => False
  | .run _ => False
  | .advance _ => False
  | _ => True

namespace Machine

variable {m : Machine} {address : UInt16} {frames outer : List UInt16}

/-! ## Steps -/

lemma step_call (h : m.upcoming = some (.call address)) (hroom : m.stack.depth < stackLimit) :
    m.step.machine = { m with
      stack := ⟨(m.registers.pc + 2) :: m.stack.frames, hroom⟩
      registers := m.registers.goto address } ∧
    m.step.result = .ok (.executed (.call address)) := by
  have hpush : m.stack.push (m.registers.pc + 2) m.registers.pc
      = .ok () ⟨(m.registers.pc + 2) :: m.stack.frames, hroom⟩ := dif_pos hroom
  refine step_of_execute h ?_
  simp only [execute, effect, hpush]
  rfl

lemma step_ret (h : m.upcoming = some .ret) (hframes : m.stack.frames = address :: frames) :
    ∃ hbound, m.step.machine = { m with
      stack := ⟨frames, hbound⟩
      registers := m.registers.goto address } ∧
    m.step.result = .ok (.executed .ret) := by
  obtain ⟨hbound, hpop⟩ := CallStack.pop_of_frames hframes m.registers.pc
  refine ⟨hbound, step_of_execute h ?_⟩
  simp only [execute, effect, hpop]
  rfl

/-- A step opens one call, closes the innermost one, or leaves the open calls alone. -/
lemma frames_step (m : Machine) :
    m.step.machine.stack.frames = m.stack.frames ∨
    (∃ address, m.step.machine.stack.frames = address :: m.stack.frames) ∨
    (∃ address, m.stack.frames = address :: m.step.machine.stack.frames) := by
  rcases m.step_cases with ⟨halted, hafter⟩ | ⟨i, flow, mid, -, heffect, hafter⟩
  · rw [hafter]
    exact Or.inl rfl
  · rw [hafter, stack_follow]
    rcases heffect.stack with hsame | ⟨address, -, hpush⟩ | ⟨address, -, hpop⟩
    · rw [hsame]
      exact Or.inl rfl
    · exact Or.inr (Or.inl ⟨_, hpush⟩)
    · exact Or.inr (Or.inr ⟨address, hpop⟩)

/-- Calls that are open below others stay open as long as there are as many. -/
lemma suffix_step (h : outer <:+ m.stack.frames)
    (hdepth : outer.length ≤ m.step.machine.stack.depth) :
    outer <:+ m.step.machine.stack.frames := by
  rcases m.frames_step with hsame | ⟨address, hpush⟩ | ⟨address, hpop⟩
  · rw [hsame]
    exact h
  · rw [hpush]
    exact h.trans (List.suffix_cons address m.stack.frames)
  · rw [hpop] at h
    rcases List.suffix_cons_iff.mp h with rfl | hbelow
    -- the call that was closed is not among those that are still open
    · exact absurd hdepth (Nat.not_succ_le_self _)
    · exact hbelow

/-! ## From the call to its return -/

lemma stack_loadProgram (m : Machine) (program : List UInt8) :
    (m.loadProgram program).machine.stack = m.stack := by
  obtain ⟨memory, hload⟩ := m.loadProgram_machine program
  rw [hload]

lemma stack_setKey (m : Machine) (code : UInt8) (down : Bool) :
    (m.setKey code down).machine.stack = m.stack := by
  obtain ⟨keypad, registers, hkey⟩ := m.setKey_machine code down
  rw [hkey]

lemma stack_tickTimes (m : Machine) (times : Nat) : (m.tickTimes times).stack = m.stack :=
  tickTimes_keeps (P := fun later => later.stack = m.stack) (fun _ hm => hm) rfl times

lemma suffix_perform {operation : Operation} (hsingle : operation.command.Single)
    (h : outer <:+ m.stack.frames)
    (hdepth : outer.length ≤ (m.perform operation).console.machine.stack.depth) :
    outer <:+ (m.perform operation).console.machine.stack.frames := by
  obtain ⟨command, scheduler⟩ := operation
  cases command with
  | step => exact suffix_step h hdepth
  | load program =>
    show outer <:+ (m.loadProgram program).machine.stack.frames
    rw [stack_loadProgram]
    exact h
  | setKey code down =>
    show outer <:+ (m.setKey code down).machine.stack.frames
    rw [stack_setKey]
    exact h
  | tick times =>
    show outer <:+ (m.tickTimes times).stack.frames
    rw [stack_tickTimes]
    exact h
  | takeFrame => exact h
  | resetScheduler => exact h
  | reset | run | advance => exact hsingle.elim

/-- The run lemma: the calls stay open throughout a history in which there are always as many. -/
lemma suffix_after {history : List Operation}
    (hsingle : ∀ operation ∈ history, operation.command.Single) (h : outer <:+ m.stack.frames)
    (hdepth : ∀ earlier, earlier <+: history → outer.length ≤ (m.after earlier).stack.depth) :
    outer <:+ (m.after history).stack.frames := by
  induction history generalizing m with
  | nil => exact h
  | cons first rest ih =>
    have hfirst := suffix_perform (hsingle first List.mem_cons_self) h
      (hdepth [first] (List.prefix_append [first] rest))
    refine ih (fun operation hmem => hsingle operation (List.mem_cons_of_mem _ hmem)) hfirst ?_
    intro earlier hearlier
    exact hdepth (first :: earlier) ((List.prefix_cons_inj first).mpr hearlier)

/-- The return that closes a call goes to the place after the call, and leaves the calls that were
open before it as they were.  What is done between the two may be anything as long as the call
stays open. -/
theorem return_matches_call (m : Machine) (address : UInt16)
    (hcall : m.upcoming = some (.call address)) (hroom : m.stack.depth < stackLimit)
    (history : List Operation) (hsingle : ∀ operation ∈ history, operation.command.Single)
    (hopen : ∀ earlier, earlier <+: history →
      m.stack.depth + 1 ≤ (m.step.machine.after earlier).stack.depth)
    (before : Machine) (hbefore : before = m.step.machine.after history)
    (hdepth : before.stack.depth = m.stack.depth + 1) (hret : before.upcoming = some .ret) :
    m.step.result = .ok (.executed (.call address)) ∧
    before.step.result = .ok (.executed .ret) ∧
    before.step.machine.registers.pc.toNat = m.registers.pc.toNat + 2 ∧
    before.step.machine.stack.depth = m.stack.depth ∧
    before.step.machine.stack.toList = m.stack.toList := by
  obtain ⟨hcalled, hresult⟩ := step_call hcall hroom
  have hopened : m.step.machine.stack.frames = (m.registers.pc + 2) :: m.stack.frames := by
    rw [hcalled]
  -- the call and what was open before it are at the bottom all the way
  have hsuffix : (m.registers.pc + 2) :: m.stack.frames <:+ before.stack.frames := by
    rw [hbefore]
    exact suffix_after hsingle (hopened ▸ List.suffix_refl _) hopen
  have hframes : before.stack.frames = (m.registers.pc + 2) :: m.stack.frames :=
    (hsuffix.eq_of_length hdepth.symm).symm
  obtain ⟨hbound, hreturned, hresult'⟩ := step_ret hret hframes
  have hpc : m.registers.pc.toNat ≤ 0x10FE := by
    obtain ⟨-, -, op, hfetch⟩ := upcoming_eq_some.mp hcall
    exact Nat.le_trans (fetch_ok hfetch).1 (by decide)
  rw [hreturned]
  exact ⟨hresult, hresult', m.registers.toNat_pc_advance hpc, rfl, rfl⟩

/-- A program of three subroutines, each of which calls the next one. -/
def threeDeep : List UInt8 :=
  [0x22, 0x04, 0x12, 0x02, 0x22, 0x08, 0x00, 0xEE, 0x22, 0x0C, 0x00, 0xEE, 0x00, 0xEE]

/-- That program at the given place, with the given calls open. -/
def threeDeepAt (pc : UInt16) (stack : CallStack) (keypad : Keypad) : Machine :=
  { ((ofConfig Config.standard 0).loadProgram threeDeep).machine with
    registers := RegisterFile.initial.goto pc, stack, keypad }

/-- The instruction at the `k`-th byte of the program. -/
lemma upcoming_threeDeepAt {k : Nat} {high low : UInt8} (hhigh : threeDeep[k]? = some high)
    (hlow : threeDeep[k + 1]? = some low) {pc op : UInt16} {i : Instruction} (stack : CallStack)
    {keypad : Keypad} (hpc : pc.toNat = programStart + k)
    (hop : op = UInt16.ofNat (high.toNat * 0x100 + low.toNat))
    (hdecode : Instruction.decode op = some i) (hkey : keypad.awaiting = none) :
    (threeDeepAt pc stack keypad).upcoming = some i := by
  obtain ⟨memory, heq, hread⟩ := loadProgram_fresh Config.standard 0
    (show threeDeep.length ≤ programCapacity by decide)
  have hfetch : (threeDeepAt pc stack keypad).fetch = .ok (op, i) := by
    rw [threeDeepAt, heq]
    refine fetch_of_read16 ?_ hdecode
    show memory.read16 pc.toNat = .ok op
    rw [hpc, hread hhigh hlow, hop]
  have hrun : (threeDeepAt pc stack keypad).halted = none := by
    rw [threeDeepAt, heq]
    rfl
  exact upcoming_eq_some.mpr ⟨hrun, hkey, op, hfetch⟩

/-- The program in its first subroutine. -/
def inFirst : Machine := threeDeepAt 0x204 ⟨[0x202], by decide⟩ .released

/-- A step into the third subroutine, a key press, and the step back from it. -/
def thereAndBack : List Operation :=
  [⟨.step, Scheduler.ofRate 700⟩, ⟨.setKey 3 true, Scheduler.ofRate 700⟩,
    ⟨.step, Scheduler.ofRate 700⟩]

lemma after_thereAndBack (m : Machine) :
    m.after (thereAndBack.take 1) = m.step.machine ∧
    m.after (thereAndBack.take 2) = (m.step.machine.setKey 3 true).machine ∧
    m.after thereAndBack = (m.step.machine.setKey 3 true).machine.step.machine :=
  ⟨rfl, rfl, rfl⟩

/-- The key that is pressed on the way. -/
def thirdPressed : Keypad := ⟨Keypad.released.keys.set 3 true, none⟩

lemma steps_inFirst :
    inFirst.upcoming = some (.call 0x208) ∧
    inFirst.step.machine = threeDeepAt 0x208 ⟨[0x206, 0x202], by decide⟩ .released ∧
    inFirst.step.machine.step.machine
      = threeDeepAt 0x20C ⟨[0x20A, 0x206, 0x202], by decide⟩ .released ∧
    inFirst.step.machine.after thereAndBack
      = threeDeepAt 0x20A ⟨[0x206, 0x202], by decide⟩ thirdPressed := by
  have hsecond : inFirst.upcoming = some (.call 0x208) :=
    upcoming_threeDeepAt (k := 4) rfl rfl _ rfl rfl rfl rfl
  have hthird : (threeDeepAt 0x208 ⟨[0x206, 0x202], by decide⟩ .released).upcoming
      = some (.call 0x20C) :=
    upcoming_threeDeepAt (k := 8) rfl rfl _ rfl rfl rfl rfl
  have hback : (threeDeepAt 0x20C ⟨[0x20A, 0x206, 0x202], by decide⟩ thirdPressed).upcoming
      = some .ret :=
    upcoming_threeDeepAt (k := 12) rfl rfl _ rfl rfl rfl rfl
  have hfirst : inFirst.step.machine
      = threeDeepAt 0x208 ⟨[0x206, 0x202], by decide⟩ .released := by
    rw [(step_call hsecond (by decide)).1]
    rfl
  have hsecond' : inFirst.step.machine.step.machine
      = threeDeepAt 0x20C ⟨[0x20A, 0x206, 0x202], by decide⟩ .released := by
    rw [hfirst, (step_call hthird (by decide)).1]
    rfl
  have hkey : ((threeDeepAt 0x20C ⟨[0x20A, 0x206, 0x202], by decide⟩ .released).setKey 3
      true).machine = threeDeepAt 0x20C ⟨[0x20A, 0x206, 0x202], by decide⟩ thirdPressed := rfl
  refine ⟨hsecond, hfirst, hsecond', ?_⟩
  obtain ⟨hbound, hreturned, -⟩ := step_ret hback rfl
  rw [(after_thereAndBack _).2.2, hsecond', hkey, hreturned]
  rfl

/-- The second subroutine returns into the first one, although the third was called from it in the
meantime. -/
theorem return_matches_call_threeDeep :
    inFirst.upcoming = some (.call 0x208) ∧
    (inFirst.step.machine.after thereAndBack).upcoming = some .ret ∧
    (inFirst.step.machine.after thereAndBack).step.machine.registers.pc.toNat = 0x206 ∧
    (inFirst.step.machine.after thereAndBack).step.machine.stack.toList = [0x202] := by
  obtain ⟨hcall, hfirst, hsecond, hthird⟩ := steps_inFirst
  obtain ⟨hone, htwo, -⟩ := after_thereAndBack inFirst.step.machine
  have hret : (inFirst.step.machine.after thereAndBack).upcoming = some .ret := by
    rw [hthird]
    exact upcoming_threeDeepAt (k := 10) rfl rfl _ rfl rfl rfl rfl
  have hopen : ∀ earlier, earlier <+: thereAndBack →
      inFirst.stack.depth + 1 ≤ (inFirst.step.machine.after earlier).stack.depth := by
    intro earlier hearlier
    have hlength : earlier.length ≤ 3 := hearlier.length_le
    rw [List.prefix_iff_eq_take.mp hearlier]
    obtain h | h | h | h : earlier.length = 0 ∨ earlier.length = 1 ∨ earlier.length = 2 ∨
        earlier.length = 3 := by omega
    · rw [h, List.take_zero, after, hfirst]
      decide
    · rw [h, hone, hsecond]
      decide
    · rw [h, htwo, stack_setKey, hsecond]
      decide
    · rw [h, List.take_of_length_le (by decide), hthird]
      decide
  obtain ⟨-, -, hpc, -, hframes⟩ := return_matches_call inFirst 0x208 hcall (by decide)
    thereAndBack (by simp [thereAndBack, Command.Single]) hopen _ rfl (by rw [hthird]; rfl) hret
  exact ⟨hcall, hret, hpc, hframes⟩

end Machine

end ChipVm
