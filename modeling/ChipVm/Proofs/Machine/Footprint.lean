/-
# The footprint of an instruction

Every instruction has to do with few parts of the machine.  `Instruction.parts` is the table of the
parts that each of them may change; what is not in its row stays as it is
(`Machine.same_effect`).  Of the two instructions that store bytes in memory it is also said which
bytes they store and where, and of every instruction where the program goes on
(`Machine.Leads`).
-/
import Mathlib.Tactic.Lemma
import ChipVm.Proofs.Blocks
import ChipVm.Proofs.Machine.FaultSet

namespace ChipVm

/-- The parts that a machine consists of, besides the program counter. -/
inductive Part where
  | memory
  /-- One of V0..VF. -/
  | byte (x : Register)
  /-- The index register. -/
  | index
  | screen
  | stack
  | timers
  /-- Which keys are down. -/
  | keys
  /-- Who waits for a key. -/
  | wait
  /-- Where random bytes come from. -/
  | generator
  | dialect
  | seed
  | halted
deriving DecidableEq

namespace Instruction

/-- Block transfers move the index register in dialects that say so. -/
def transferred (dialect : Dialect) : List Part :=
  if dialect.transferMovesIndex then [.index] else []

/-- The parts that an instruction may change. -/
def parts (dialect : Dialect) : Instruction → List Part
  | .sys _ => []
  | .clear => [.screen]
  | .ret => [.stack]
  | .jump _ => []
  | .call _ => [.stack]
  | .skip _ => []
  | .loadByte x _ => [.byte x]
  | .addByte x _ => [.byte x]
  | .alu _ x _ => [.byte x, .byte Register.vf]
  | .loadIndex _ => [.index]
  | .jumpOffset _ => []
  | .random x _ => [.byte x, .generator]
  | .draw _ _ _ => [.screen, .byte Register.vf]
  | .loadDelay x => [.byte x]
  | .awaitKey _ => [.wait]
  | .setDelay _ => [.timers]
  | .setSound _ => [.timers]
  | .addIndex _ => [.index]
  | .loadGlyph _ => [.index]
  | .storeDecimal _ => [.memory]
  | .storeThrough _ => .memory :: transferred dialect
  | .loadThrough x => x.through.map .byte ++ transferred dialect

lemma mem_transferred {dialect : Dialect} {part : Part} :
    part ∈ transferred dialect ↔ dialect.transferMovesIndex = true ∧ part = .index := by
  rw [transferred]
  split <;> simp [*]

end Instruction

namespace Machine

variable {m mid after : Machine} {i : Instruction} {flow : Flow} {part : Part}

/-- The part is the same in both machines. -/
def Same (m after : Machine) : Part → Prop
  | .memory => after.memory = m.memory
  | .byte x => after.registers.get x = m.registers.get x
  | .index => after.registers.i = m.registers.i
  | .screen => after.screen = m.screen
  | .stack => after.stack = m.stack
  | .timers => after.timers = m.timers
  | .keys => after.keypad.keys = m.keypad.keys
  | .wait => after.keypad.awaiting = m.keypad.awaiting
  | .generator => after.generator = m.generator
  | .dialect => after.dialect = m.dialect
  | .seed => after.seed = m.seed
  | .halted => after.halted = m.halted

lemma Same.refl (m : Machine) (part : Part) : m.Same m part := by
  cases part <;> rfl

lemma Same.trans (h : m.Same mid part) (h' : mid.Same after part) : m.Same after part := by
  cases part <;> exact Eq.trans h' h

lemma same_follow (m : Machine) (flow : Flow) (part : Part) : m.Same (m.follow flow) part := by
  cases flow <;> cases part <;> rfl

/-! ## What stays -/

lemma same_set (m : Machine) {x : Register} (h : part ≠ .byte x) (value : UInt8) :
    m.Same { m with registers := m.registers.set x value } part := by
  cases part with
  | byte z => exact m.registers.get_set_of_ne value fun hsame => h (congrArg Part.byte hsame.symm)
  | _ => rfl

lemma same_setIndex (m : Machine) (h : part ≠ .index) (address : UInt16) :
    m.Same { m with registers := m.registers.setIndex address } part := by
  cases part with
  | index => exact absurd rfl h
  | _ => rfl

lemma same_memory (m : Machine) (h : part ≠ .memory) (memory : Memory) :
    m.Same { m with memory } part := by
  cases part with
  | memory => exact absurd rfl h
  | _ => rfl

lemma same_screen (m : Machine) (h : part ≠ .screen) (screen : Screen) :
    m.Same { m with screen } part := by
  cases part with
  | screen => exact absurd rfl h
  | _ => rfl

lemma same_stack (m : Machine) (h : part ≠ .stack) (stack : CallStack) :
    m.Same { m with stack } part := by
  cases part with
  | stack => exact absurd rfl h
  | _ => rfl

lemma same_moveIndex (m : Machine) (x : Register)
    (h : part ∉ Instruction.transferred m.dialect) : m.Same (m.moveIndex x) part := by
  rw [moveIndex]
  split
  · rename_i hmoves
    exact m.same_setIndex (fun hindex => h (Instruction.mem_transferred.mpr ⟨hmoves, hindex⟩)) _
  · exact .refl m part

lemma same_setThrough (m : Machine) {x : Register} (h : part ∉ x.through.map Part.byte)
    (bytes : List UInt8) :
    m.Same { m with registers := m.registers.setThrough x bytes } part := by
  cases part with
  | byte z =>
    refine m.registers.get_setThrough_of_lt bytes (Fin.not_le.mp fun hz => h ?_)
    exact List.mem_map_of_mem (Register.mem_through.mpr hz)
  | index => exact m.registers.i_setThrough x bytes
  | _ => rfl

/-- The effect of an instruction leaves the parts alone that are not in its row of the table. -/
lemma same_effect (h : m.effect i = .ok flow after) (hpart : part ∉ i.parts m.dialect) :
    m.Same after part := by
  cases i with
  | sys | jump | jumpOffset | skip =>
    obtain ⟨-, rfl⟩ := EStateM.Result.ok.inj h
    exact .refl m part
  | clear =>
    obtain ⟨-, rfl⟩ := EStateM.Result.ok.inj h
    exact m.same_screen (List.ne_of_not_mem_cons hpart) _
  | ret =>
    obtain ⟨_, stack, -, -, rfl⟩ := effect_ret_ok h
    exact m.same_stack (List.ne_of_not_mem_cons hpart) stack
  | call =>
    obtain ⟨stack, -, -, rfl⟩ := effect_call_ok h
    exact m.same_stack (List.ne_of_not_mem_cons hpart) stack
  | loadByte | addByte | loadDelay =>
    obtain ⟨-, rfl⟩ := EStateM.Result.ok.inj h
    exact m.same_set (List.ne_of_not_mem_cons hpart) _
  | alu op x y =>
    obtain ⟨-, rfl⟩ := EStateM.Result.ok.inj h
    obtain ⟨hx, hflag⟩ := not_or.mp (mt List.mem_cons.mpr hpart)
    rcases combine m.dialect op (m.registers.get x) (m.registers.get y) with ⟨value, _ | flag⟩
    · exact m.same_set hx value
    · exact (m.same_set hx value).trans (same_set _ (List.ne_of_not_mem_cons hflag) _)
  | loadIndex | addIndex | loadGlyph =>
    obtain ⟨-, rfl⟩ := EStateM.Result.ok.inj h
    exact m.same_setIndex (List.ne_of_not_mem_cons hpart) _
  | random x kk =>
    obtain ⟨-, rfl⟩ := EStateM.Result.ok.inj h
    obtain ⟨hx, hgenerator⟩ := not_or.mp (mt List.mem_cons.mpr hpart)
    refine (m.same_set hx (m.generator.next.1 &&& kk)).trans ?_
    cases part with
    | generator => exact absurd (List.mem_singleton_self _) hgenerator
    | _ => rfl
  | draw x y height =>
    obtain ⟨rows, -, -, rfl⟩ := effect_draw_ok h
    obtain ⟨hscreen, hflag⟩ := not_or.mp (mt List.mem_cons.mpr hpart)
    have hdrawn := m.same_screen hscreen
      (m.screen.draw (m.registers.get x) (m.registers.get y) rows).1
    exact hdrawn.trans (same_set _ (List.ne_of_not_mem_cons hflag) _)
  | awaitKey x =>
    obtain ⟨-, rfl⟩ := EStateM.Result.ok.inj h
    cases part with
    | wait => exact absurd (List.mem_singleton_self _) hpart
    | _ => rfl
  | setDelay | setSound =>
    obtain ⟨-, rfl⟩ := EStateM.Result.ok.inj h
    cases part with
    | timers => exact absurd (List.mem_singleton_self _) hpart
    | _ => rfl
  | storeDecimal x =>
    obtain ⟨hstore, -⟩ := effect_storeDecimal_ok h
    obtain ⟨memory, -, rfl⟩ := storeAtIndex_ok hstore
    exact m.same_memory (List.ne_of_not_mem_cons hpart) memory
  | storeThrough x =>
    obtain ⟨stored, hstore, -, rfl⟩ := effect_storeThrough_ok h
    obtain ⟨memory, -, rfl⟩ := storeAtIndex_ok hstore
    obtain ⟨hmemory, hindex⟩ := not_or.mp (mt List.mem_cons.mpr hpart)
    exact (m.same_memory hmemory memory).trans (same_moveIndex _ x hindex)
  | loadThrough x =>
    obtain ⟨bytes, -, -, rfl⟩ := effect_loadThrough_ok h
    obtain ⟨hbytes, hindex⟩ := not_or.mp (mt List.mem_append.mpr hpart)
    exact (m.same_setThrough hbytes bytes).trans (same_moveIndex _ x hindex)

lemma same_execute (h : m.execute i = .ok () after) (hpart : part ∉ i.parts m.dialect) :
    m.Same after part := by
  obtain ⟨flow, mid, heffect, rfl⟩ := effect_of_execute h
  exact (same_effect heffect hpart).trans (mid.same_follow flow part)

/-! ## What is stored -/

lemma decimalDigits_eq (value : UInt8) :
    ∃ h t u : UInt8, decimalDigits value = [h, t, u] ∧ h.toNat < 10 ∧ t.toNat < 10 ∧
      u.toNat < 10 ∧ 100 * h.toNat + 10 * t.toNat + u.toNat = value.toNat := by
  have hvalue := value.toNat_lt
  have hhundreds : (value / 100 % 10).toNat = value.toNat / 100 % 10 := by
    rw [UInt8.toNat_mod, UInt8.toNat_div]
    rfl
  have htens : (value / 10 % 10).toNat = value.toNat / 10 % 10 := by
    rw [UInt8.toNat_mod, UInt8.toNat_div]
    rfl
  have hunits : (value % 10).toNat = value.toNat % 10 := UInt8.toNat_mod _ _
  exact ⟨_, _, _, rfl, by omega, by omega, by omega, by omega⟩

lemma overwrites_storeAtIndex {bytes : List UInt8} (h : m.storeAtIndex bytes = .ok () after) :
    m.memory.Overwrites m.registers.i.toNat bytes after.memory := by
  obtain ⟨memory, hwrite, rfl⟩ := storeAtIndex_ok h
  exact Memory.overwrites_write hwrite

lemma overwrites_storeDecimal {x : Register} (h : m.execute (.storeDecimal x) = .ok () after) :
    m.memory.Overwrites m.registers.i.toNat (decimalDigits (m.registers.get x)) after.memory := by
  obtain ⟨flow, mid, heffect, rfl⟩ := effect_of_execute h
  rw [mid.same_follow flow .memory]
  exact overwrites_storeAtIndex (effect_storeDecimal_ok heffect).1

lemma overwrites_storeThrough {x : Register} (h : m.execute (.storeThrough x) = .ok () after) :
    m.memory.Overwrites m.registers.i.toNat (m.registers.valuesThrough x) after.memory := by
  obtain ⟨flow, mid, heffect, rfl⟩ := effect_of_execute h
  rw [mid.same_follow flow .memory]
  obtain ⟨stored, hstore, -, rfl⟩ := effect_storeThrough_ok heffect
  have hover := overwrites_storeAtIndex hstore
  obtain ⟨index, hindex⟩ := stored.moveIndex_eq x
  rw [hindex]
  exact hover

/-! ## Where the program goes on -/

/-- What a skip depends on. -/
def Fulfils (m : Machine) : Condition → Prop
  | .holds x kk => m.registers.get x = kk
  | .lacks x kk => m.registers.get x ≠ kk
  | .same x y => m.registers.get x = m.registers.get y
  | .differ x y => m.registers.get x ≠ m.registers.get y
  | .pressed x => ∃ h : (m.registers.get x).toNat < keyCount,
      m.keypad.keys[(m.registers.get x).toNat] = true
  | .released x => ∀ h : (m.registers.get x).toNat < keyCount,
      m.keypad.keys[(m.registers.get x).toNat] = false

lemma meets_iff {condition : Condition} : m.meets condition = true ↔ m.Fulfils condition := by
  cases condition with
  | holds | same => exact beq_iff_eq
  | lacks | differ => exact bne_iff_ne
  | pressed x =>
    rw [meets, Fulfils, Keypad.isPressed]
    split <;> simp [*]
  | released x =>
    rw [meets, Fulfils, Keypad.isPressed]
    split <;> simp [*]

/-- The program counter `next` is where an instruction leads: to the target of a jump, a call or
a return, four bytes on after a skip whose condition is fulfilled, nowhere while a key is waited
for, and else on to the following instruction. -/
def Leads (m : Machine) (next : Nat) : Instruction → Prop
  | .jump address => next = address.toNat
  | .call address => next = address.toNat
  | .ret => ∃ address, m.stack.frames.head? = some address ∧ next = address.toNat
  | .jumpOffset base => next = base.toNat + (m.registers.get Register.v0).toNat
  | .awaitKey _ => next = m.registers.pc.toNat
  | .skip condition =>
    (m.Fulfils condition → next = m.registers.pc.toNat + 4) ∧
      (¬m.Fulfils condition → next = m.registers.pc.toNat + 2)
  | _ => next = m.registers.pc.toNat + 2

lemma leads_execute {op : UInt16} (hfetch : m.fetch = .ok (op, i))
    (hexecute : m.execute i = .ok () after) : m.Leads after.registers.pc.toNat i := by
  obtain ⟨flow, after, h, rfl⟩ := effect_of_execute hexecute
  have hpc := (effect_ok h).pc
  have hle : after.registers.pc.toNat ≤ 0x10FE := by
    rw [hpc]
    exact Nat.le_trans (fetch_ok hfetch).1 (by decide)
  have hnext : (after.follow .next).registers.pc.toNat = m.registers.pc.toNat + 2 := by
    rw [← hpc]
    exact after.registers.toNat_pc_advance hle
  have hskip : (after.follow .skip).registers.pc.toNat = m.registers.pc.toNat + 4 := by
    rw [← hpc]
    exact after.registers.toNat_pc_skip hle
  cases i with
  | jump address =>
    obtain ⟨rfl, -⟩ := EStateM.Result.ok.inj h
    rfl
  | call address =>
    obtain ⟨_, -, rfl, -⟩ := effect_call_ok h
    rfl
  | ret =>
    obtain ⟨address, stack, hpop, rfl, -⟩ := effect_ret_ok h
    have htop := CallStack.frames_of_pop hpop
    exact ⟨address, by rw [htop, List.head?_cons], rfl⟩
  | jumpOffset base =>
    obtain ⟨rfl, -⟩ := EStateM.Result.ok.inj h
    refine (UInt16.toNat_add _ _).trans (Nat.mod_eq_of_lt ?_)
    exact Nat.lt_of_le_of_lt (toNat_offset_le hfetch) (by decide)
  | awaitKey x =>
    obtain ⟨rfl, -⟩ := EStateM.Result.ok.inj h
    exact congrArg UInt16.toNat hpc
  | skip condition =>
    obtain ⟨rfl, -⟩ := EStateM.Result.ok.inj h
    constructor
    · intro hmet
      rw [if_pos (meets_iff.mpr hmet)]
      exact hskip
    · intro hnot
      rw [if_neg (mt meets_iff.mp hnot)]
      exact hnext
  | draw =>
    obtain ⟨_, -, rfl, -⟩ := effect_draw_ok h
    exact hnext
  | storeDecimal =>
    obtain ⟨-, rfl⟩ := effect_storeDecimal_ok h
    exact hnext
  | storeThrough =>
    obtain ⟨_, -, rfl, -⟩ := effect_storeThrough_ok h
    exact hnext
  | loadThrough =>
    obtain ⟨_, -, rfl, -⟩ := effect_loadThrough_ok h
    exact hnext
  | _ =>
    obtain ⟨rfl, -⟩ := EStateM.Result.ok.inj h
    exact hnext

/-! ## Steps -/

/-- A step that succeeds leaves all parts of the machine alone that are not in the row of its
instruction.  If it stores something in memory, that are the three decimal digits of a register or
the registers V0..Vx, from where the index register points and nowhere else; and the program goes
on where the instruction leads. -/
theorem step_touches_own_parts (m : Machine) (op : UInt16) (i : Instruction)
    (outcome : StepOutcome) (hkey : m.keypad.awaiting = none) (hfetch : m.fetch = .ok (op, i))
    (hok : m.step.result = .ok outcome) :
    (∀ part, part ∉ i.parts m.dialect → m.Same m.step.machine part) ∧
    (∀ x, i = .storeDecimal x → ∃ h t u : UInt8,
      h.toNat < 10 ∧ t.toNat < 10 ∧ u.toNat < 10 ∧
      100 * h.toNat + 10 * t.toNat + u.toNat = (m.registers.get x).toNat ∧
      m.memory.Overwrites m.registers.i.toNat [h, t, u] m.step.machine.memory) ∧
    (∀ x, i = .storeThrough x →
      m.memory.Overwrites m.registers.i.toNat (m.registers.v.toList.take (x.index.val + 1))
        m.step.machine.memory) ∧
    m.Leads m.step.machine.registers.pc.toNat i := by
  obtain ⟨-, ⟨x, hwaits, -⟩ | ⟨-, op', i', hfetch', hexecute, -⟩⟩ := step_ok_cases hok
  · rw [hkey] at hwaits
    cases hwaits
  rw [hfetch] at hfetch'
  cases hfetch'
  refine ⟨fun part => same_execute hexecute, ?_, ?_, leads_execute hfetch hexecute⟩
  · rintro x rfl
    obtain ⟨h, t, u, hdigits, hh, ht, hu, hsum⟩ := decimalDigits_eq (m.registers.get x)
    refine ⟨h, t, u, hh, ht, hu, hsum, ?_⟩
    rw [← hdigits]
    exact overwrites_storeDecimal hexecute
  · rintro x rfl
    rw [← RegisterFile.valuesThrough_eq_take]
    exact overwrites_storeThrough hexecute

/-- A program that is about to store the digits of V0, which holds 254, over itself. -/
def selfWriter : Machine :=
  { ((ofConfig Config.standard 0).loadProgram [0xF0, 0x33]).machine with
    registers := (RegisterFile.initial.set Register.v0 254).setIndex 0x1FF }

/-- It writes the byte before its only instruction and the two bytes of that instruction, and goes
on after it. -/
theorem step_touches_own_parts_selfWriter :
    selfWriter.step.machine.memory.read8 0x1FF = .ok 2 ∧
    selfWriter.step.machine.memory.read8 0x200 = .ok 5 ∧
    selfWriter.step.machine.memory.read8 0x201 = .ok 4 ∧
    selfWriter.step.machine.memory.read8 0x202 = selfWriter.memory.read8 0x202 ∧
    selfWriter.step.machine.registers.get Register.v0 = 254 ∧
    selfWriter.step.machine.registers.pc.toNat = 0x202 := by
  obtain ⟨memory, heq, hread⟩ := loadProgram_word Config.standard 0 0xF0 0x33
  have hparts : selfWriter.halted = none ∧ selfWriter.keypad.awaiting = none ∧
      selfWriter.fetch = .ok (0xF033, .storeDecimal Register.v0) := by
    rw [selfWriter, heq]
    exact ⟨rfl, rfl, fetch_of_read16 hread rfl⟩
  obtain ⟨hrun, hkey, hfetch⟩ := hparts
  have hv0 : selfWriter.registers.get Register.v0 = 254 := rfl
  have hindex : selfWriter.registers.i.toNat = 0x1FF := rfl
  have hok : selfWriter.step.result = .ok (.executed (.storeDecimal Register.v0)) := by
    obtain ⟨after, hexecute⟩ : ∃ after, selfWriter.execute (.storeDecimal Register.v0)
        = .ok () after := execute_of_fits rfl (by rw [hindex]; decide)
    exact (step_of_execute (upcoming_eq_some.mpr ⟨hrun, hkey, _, hfetch⟩) hexecute).2
  obtain ⟨hsame, hdigits, -, hleads⟩ :=
    step_touches_own_parts selfWriter _ _ _ hkey hfetch hok
  obtain ⟨h, t, u, hh, ht, hu, hsum, hover⟩ := hdigits Register.v0 rfl
  rw [hv0] at hsum
  have hsum : 100 * h.toNat + 10 * t.toNat + u.toNat = 254 := hsum
  obtain rfl : h = 2 := UInt8.toNat_inj.mp (show h.toNat = 2 by omega)
  obtain rfl : t = 5 := UInt8.toNat_inj.mp (show t.toNat = 5 by omega)
  obtain rfl : u = 4 := UInt8.toNat_inj.mp (show u.toNat = 4 by omega)
  rw [hindex] at hover
  exact ⟨hover.inside 0 2 rfl, hover.inside 1 5 rfl, hover.inside 2 4 rfl,
    hover.outside 0x202 (by decide), hsame (.byte Register.v0) (by decide), hleads⟩

end Machine

end ChipVm
