/-
# Where the settings matter

The dialect of a machine and what its random bytes start from are settings that never change.
Each switch of the dialect governs a few instructions, and the random bytes are drawn by one.
Until one of these runs, nothing tells machines apart that differ in the switch, or in the source
of their random bytes: whatever is done to them comes to the same, resets included, and leaves
machines that still differ in nothing else.

The argument is that of two machines in lockstep.  A change of the settings is aside, and an
instruction that is not governed by what is changed ignores it (`Machine.effect_refit`).  A
governed instruction that is refused ignores it as well, since it does nothing.  The journal tells
which instructions ran, and whether they were refused (`Log.Entry.Obeys`, `Log.Entry.Rolls`).
-/
import Mathlib.Tactic.Lemma
import ChipVm.Proofs.Machine.FaultSet
import ChipVm.Proofs.Machine.Independence
import ChipVm.Proofs.Machine.Lockstep
import ChipVm.Proofs.Machine.Reset

namespace ChipVm

/-! ## What the settings govern -/

/-- The switch that what an instruction does depends on.  A shift of a register into itself does
not depend on which of the two is shifted. -/
def Instruction.governor : Instruction → Option Dialect.Switch
  | .alu .or _ _ => some .logic
  | .alu .and _ _ => some .logic
  | .alu .xor _ _ => some .logic
  | .alu .shiftRight x y => if x = y then none else some .shift
  | .alu .shiftLeft x y => if x = y then none else some .shift
  | .storeThrough _ => some .transfer
  | .loadThrough _ => some .transfer
  | _ => none

/-- The entry tells of an instruction that the switch governs, and that is not refused because its
bytes are not all in memory. -/
def Log.Entry.Obeys (switch : Dialect.Switch) : Log.Entry → Prop
  | .executing _ i registers =>
    i.governor = some switch ∧
      ∀ length, i.window = some length → registers.i.toNat + length ≤ memorySize
  | _ => False

/-- The entry tells of an instruction that draws a random byte. -/
def Log.Entry.Rolls : Log.Entry → Prop
  | .executing _ (.random _ _) _ => True
  | _ => False

namespace Machine

variable {m : Machine} {i : Instruction} {dialect : Dialect → Dialect}
  {source : Generator → Generator} {seed : Option UInt64 → Option UInt64}

/-- Changes the dialect, and where random bytes come from now and after a reset. -/
def refit (dialect : Dialect → Dialect) (source : Generator → Generator)
    (seed : Option UInt64 → Option UInt64) (m : Machine) : Machine :=
  { m with
    dialect := dialect m.dialect
    generator := source m.generator
    seed := seed m.seed }

lemma aside_refit (dialect : Dialect → Dialect) (source : Generator → Generator)
    (seed : Option UInt64 → Option UInt64) : Aside (refit dialect source seed) :=
  ⟨fun _ => rfl, fun _ => rfl, fun _ => rfl, fun _ => rfl, fun _ => rfl, fun _ _ => rfl,
    fun _ _ => rfl, fun _ _ => rfl, fun _ _ => rfl⟩

/-! ## Instructions that are not governed -/

/-- Two dialects that agree on the switch of an operation agree on what it comes to. -/
lemma combine_congr {d e : Dialect} {op : AluOp} {x y : Register}
    (h : ∀ switch, (Instruction.alu op x y).governor = some switch → d.isOn switch = e.isOn switch)
    (file : RegisterFile) :
    combine d op (file.get x) (file.get y) = combine e op (file.get x) (file.get y) := by
  cases op with
  | or | and | xor =>
    have hlogic : d.logicResetsFlag = e.logicResetsFlag := h .logic rfl
    simp only [combine, hlogic]
  | shiftRight | shiftLeft =>
    by_cases hxy : x = y
    · subst hxy
      simp only [combine, ite_self]
    · have hshift : d.shiftUsesVy = e.shiftUsesVy := h .shift (if_neg hxy)
      simp only [combine, hshift]
  | copy | add | sub | subFrom => rfl

/-- An instruction does the same under other settings if they agree on what governs it. -/
lemma effect_refit
    (hdialect : ∀ switch, i.governor = some switch →
      (dialect m.dialect).isOn switch = m.dialect.isOn switch)
    (hsource : source = id ∨ ∀ x kk, i ≠ .random x kk) :
    (m.refit dialect source seed).effect i
      = (m.effect i).mapState (refit dialect source seed) := by
  have haside := aside_refit dialect source seed
  cases i with
  | alu op x y =>
    have hcombine := combine_congr hdialect m.registers
    simp only [effect, refit, hcombine]
    rfl
  | random x kk =>
    obtain rfl := hsource.resolve_right fun h => h x kk rfl
    rfl
  | draw x y height =>
    simp only [effect, refit]
    cases m.memory.slice m.registers.i.toNat height.toNat <;> rfl
  | ret => exact haside.effect_ret m
  | call address => exact haside.effect_call m address
  | storeDecimal x => exact haside.effect_storeDecimal m x
  | storeThrough x => exact haside.effect_storeThrough (hdialect .transfer rfl) x
  | loadThrough x => exact haside.effect_loadThrough (hdialect .transfer rfl) x
  | _ => rfl

/-- An instruction that is refused does nothing, whatever the settings. -/
lemma effect_refit_of_refuses {fault : Fault} (h : m.Refuses i fault) :
    (m.refit dialect source seed).effect i
      = (m.effect i).mapState (refit dialect source seed) := by
  have hrefit : (m.refit dialect source seed).Refuses i fault := by
    cases h with
    | ret h => exact .ret h
    | call address h => exact .call address h
    | window hi h => exact .window hi h
  obtain ⟨after, hafter⟩ := effect_fails_iff.mpr h
  obtain ⟨after', hafter'⟩ := effect_fails_iff.mpr hrefit
  obtain ⟨rfl, -⟩ := effect_error hafter
  obtain ⟨rfl, -⟩ := effect_error hafter'
  rw [hafter, hafter']
  rfl

/-- A step under other settings comes to the same, unless it runs an instruction that they govern
and that is not refused. -/
lemma step_refit
    (h : ∀ i, m.upcoming = some i → (∀ fault, ¬m.Refuses i fault) →
      (∀ switch, i.governor = some switch →
        (dialect m.dialect).isOn switch = m.dialect.isOn switch) ∧
      (source = id ∨ ∀ x kk, i ≠ .random x kk)) :
    (m.refit dialect source seed).step = m.step.map (refit dialect source seed) := by
  cases hup : m.upcoming with
  | none => exact (aside_refit dialect source seed).step_of_none hup
  | some i =>
    refine (aside_refit dialect source seed).step_of_upcoming (aside_refit dialect source seed)
      hup ?_
    by_cases hrefused : ∃ fault, m.Refuses i fault
    · obtain ⟨fault, hfault⟩ := hrefused
      exact effect_refit_of_refuses hfault
    · obtain ⟨hdialect, hsource⟩ := h i hup (not_exists.mp hrefused)
      exact effect_refit hdialect hsource

/-! ## What the journal tells of it -/

/-- The journal of a step tells whether it runs an instruction that the switch governs. -/
lemma obeys_log_step_iff {switch : Dialect.Switch} :
    (∃ entry ∈ m.step.log, entry.Obeys switch) ↔
      ∃ i, m.upcoming = some i ∧ i.governor = some switch ∧ ∀ fault, ¬m.Refuses i fault := by
  constructor
  · rintro ⟨entry, hentry, hobeys⟩
    cases entry with
    | executing op i registers =>
      obtain ⟨hrun, hkey, hfetch, rfl⟩ := executing_mem_log_step.mp hentry
      obtain ⟨hgoverned, hinside⟩ := hobeys
      refine ⟨i, upcoming_eq_some.mpr ⟨hrun, hkey, op, hfetch⟩, hgoverned, ?_⟩
      intro fault hrefuses
      cases hrefuses with
      | ret => cases hgoverned
      | call => cases hgoverned
      | window hwindow hlong => exact absurd (hinside _ hwindow) (Nat.not_le.mpr hlong)
    | _ => exact hobeys.elim
  · rintro ⟨i, hup, hgoverned, hruns⟩
    obtain ⟨hrun, hkey, op, hfetch⟩ := upcoming_eq_some.mp hup
    refine ⟨.executing op i m.registers,
      executing_mem_log_step.mpr ⟨hrun, hkey, hfetch, rfl⟩, hgoverned, ?_⟩
    intro length hwindow
    by_contra hlong
    exact hruns _ (.window hwindow (Nat.not_le.mp hlong))

/-- And whether it draws a random byte. -/
lemma rolls_log_step_iff :
    (∃ entry ∈ m.step.log, entry.Rolls) ↔ ∃ x kk, m.upcoming = some (.random x kk) := by
  constructor
  · rintro ⟨entry, hentry, hrolls⟩
    cases entry with
    | executing op i registers =>
      cases i with
      | random x kk => exact ⟨x, kk, mem_log_step.mp ⟨op, registers, hentry⟩⟩
      | _ => exact hrolls.elim
    | _ => exact hrolls.elim
  · rintro ⟨x, kk, hup⟩
    obtain ⟨op, registers, hmem⟩ := mem_log_step.mpr hup
    exact ⟨_, hmem, trivial⟩

/-! ## What is done from outside -/

lemma loadProgram_refit (m : Machine) (program : List UInt8) :
    (m.refit dialect source seed).loadProgram program
      = (m.loadProgram program).map (refit dialect source seed) :=
  (aside_refit dialect source seed).loadProgram_eq m program

lemma setKey_refit (m : Machine) (code : UInt8) (down : Bool) :
    (m.refit dialect source seed).setKey code down
      = (m.setKey code down).map (refit dialect source seed) :=
  (aside_refit dialect source seed).setKey_eq (fun _ => rfl) (fun _ _ => rfl) m code down

/-- With a seed, a reset under another dialect leaves the same machine under that dialect. -/
lemma reset_refit {value : UInt64} (h : m.seed = some value) (entropy entropy' : UInt64) :
    (m.refit dialect id id).reset entropy' = (m.reset entropy).map (refit dialect id id) := by
  simp only [reset, refit, Reply.map, freshGenerator, h, id, Option.getD_some]

/-- A reset with another source of random bytes leaves the same machine with another source,
whatever entropy the two resets are handed. -/
lemma reset_refit_source (m : Machine) (generator : Generator) (seed : Option UInt64)
    (entropy entropy' : UInt64) :
    (m.refit id (fun _ => generator) fun _ => seed).reset entropy'
      = (m.reset entropy).map
        (refit id (fun _ => freshGenerator seed entropy') fun _ => seed) := by
  -- with the fields apart, nobody compares the memories of the two machines byte by byte
  cases m
  dsimp only [reset, refit, Reply.map, id]

/-! ## One switch of the dialect -/

/-- The second machine is the first one with a dialect that differs in one switch at most.  With a
seed, both draw the same random bytes after a reset. -/
structure Switched (switch : Dialect.Switch) (a b : Machine) : Prop where
  seeded : ∃ value, a.seed = some value
  others : ∀ other, other ≠ switch → b.dialect.isOn other = a.dialect.isOn other
  rest : b = a.refit (fun _ => b.dialect) id id

namespace Switched

variable {switch : Dialect.Switch} {a b : Machine}

/-- What keeps the settings of the first machine, and does the same to both, keeps the relation. -/
lemma of_settings (h : Switched switch a b) {later : Machine}
    (hsettings : later.dialect = a.dialect ∧ later.seed = a.seed) :
    Switched switch later (later.refit (fun _ => b.dialect) id id) := by
  obtain ⟨hdialect, hseed⟩ := hsettings
  refine ⟨?_, ?_, rfl⟩
  · rw [hseed]
    exact h.seeded
  · intro other hother
    rw [hdialect]
    exact h.others other hother

lemma step (h : Switched switch a b) (hlog : ∀ entry ∈ a.step.log, ¬entry.Obeys switch) :
    a.step.Alike (Switched switch) b.step := by
  have hstep : (a.refit (fun _ => b.dialect) id id).step
      = a.step.map (refit (fun _ => b.dialect) id id) := by
    refine step_refit fun i hup hruns => ⟨fun other hgoverned => h.others other ?_, Or.inl rfl⟩
    rintro rfl
    obtain ⟨entry, hentry, hobeys⟩ := obeys_log_step_iff.mpr ⟨i, hup, hgoverned, hruns⟩
    exact hlog entry hentry hobeys
  rw [h.rest, hstep]
  exact a.step.alike_map (h.of_settings a.settings_step)

lemma reset (h : Switched switch a b) (entropy entropy' : UInt64) :
    (a.reset entropy).Alike (Switched switch) (b.reset entropy') := by
  obtain ⟨value, hvalue⟩ := h.seeded
  rw [h.rest, reset_refit hvalue entropy entropy']
  exact (a.reset entropy).alike_map (h.of_settings (a.settings_reset entropy))

end Switched

lemma lockstep_switched (switch : Dialect.Switch) :
    Lockstep (Switched switch) fun entry => ¬entry.Obeys switch where
  look := by
    intro a b h
    rw [h.rest]
    exact ⟨rfl, rfl⟩
  step := fun h hlog => h.step hlog
  tick := by
    intro a b h
    rw [h.rest]
    exact h.of_settings ⟨rfl, rfl⟩

lemma respects_switched (switch : Dialect.Switch) (command : Command) :
    command.Respects (Switched switch) := by
  cases command with
  | load program =>
    intro a b h
    rw [h.rest, loadProgram_refit]
    refine (a.loadProgram program).alike_map (h.of_settings ?_)
    obtain ⟨memory, hload⟩ := a.loadProgram_machine program
    rw [hload]
    exact ⟨rfl, rfl⟩
  | reset entropy =>
    intro a b h
    exact h.reset entropy entropy
  | setKey code down =>
    intro a b h
    rw [h.rest, setKey_refit]
    refine (a.setKey code down).alike_map (h.of_settings ?_)
    obtain ⟨keypad, registers, hkey⟩ := a.setKey_machine code down
    rw [hkey]
    exact ⟨rfl, rfl⟩
  | takeFrame =>
    intro a b h
    rw [h.rest]
    exact ⟨rfl, h.of_settings ⟨rfl, rfl⟩⟩
  | _ => trivial

/-! ## The source of random bytes -/

/-- The second machine is the first one with another source of random bytes, now and after a
reset. -/
def Resourced (a b : Machine) : Prop :=
  b = a.refit id (fun _ => b.generator) fun _ => b.seed

lemma resourced_refit (m : Machine) (generator : Generator) (seed : Option UInt64) :
    Resourced m (m.refit id (fun _ => generator) fun _ => seed) := rfl

lemma reset_resourced {a b : Machine} (h : Resourced a b) (entropy entropy' : UInt64) :
    (a.reset entropy).Alike Resourced (b.reset entropy') := by
  rw [h, reset_refit_source a b.generator b.seed entropy entropy']
  exact (a.reset entropy).alike_map (resourced_refit _ _ _)

lemma lockstep_resourced : Lockstep Resourced fun entry => ¬entry.Rolls where
  look := by
    intro a b h
    rw [h]
    exact ⟨rfl, rfl⟩
  step := by
    intro a b h hlog
    have hstep : (a.refit id (fun _ => b.generator) fun _ => b.seed).step
        = a.step.map (refit id (fun _ => b.generator) fun _ => b.seed) := by
      refine step_refit fun i hup _ => ⟨fun _ _ => rfl, Or.inr ?_⟩
      rintro x kk rfl
      obtain ⟨entry, hentry, hrolls⟩ := rolls_log_step_iff.mpr ⟨x, kk, hup⟩
      exact hlog entry hentry hrolls
    rw [h, hstep]
    exact a.step.alike_map (resourced_refit _ _ _)
  tick := by
    intro a b h
    rw [h]
    exact resourced_refit _ _ _

lemma respects_resourced (command : Command) : command.Respects Resourced := by
  cases command with
  | load program =>
    intro a b h
    rw [h, loadProgram_refit]
    exact (a.loadProgram program).alike_map (resourced_refit _ _ _)
  | reset entropy =>
    intro a b h
    exact reset_resourced h entropy entropy
  | setKey code down =>
    intro a b h
    rw [h, setKey_refit]
    exact (a.setKey code down).alike_map (resourced_refit _ _ _)
  | takeFrame =>
    intro a b h
    rw [h]
    exact ⟨rfl, resourced_refit _ _ _⟩
  | _ => trivial

/-! ## Two runs -/

/-- Settings matter only through the instructions that they govern.  Of two machines with a seed
that differ in one switch of the dialect, and of two machines that differ in the source of their
random bytes, the same can be seen whatever is done to them, and they go on to differ in nothing
else, as long as the journal of the first one tells of no such instruction.  A reset may be handed
another entropy on either machine. -/
theorem settings_matter_where_governed (a b : Machine) (history history' : List Operation)
    (hsame : List.Forall₂ Operation.Same history history') :
    (∀ switch value dialect, a.seed = some value →
      (∀ other, other ≠ switch → dialect.isOn other = a.dialect.isOn other) →
      b = { a with dialect } →
      (∀ entry ∈ a.journal history, ¬entry.Obeys switch) →
      a.seen history = b.seen history' ∧
      b.after history' = { a.after history with dialect } ∧
      (a.after history).dialect = a.dialect) ∧
    (∀ generator seed, b = { a with generator, seed } →
      (∀ entry ∈ a.journal history, ¬entry.Rolls) →
      a.seen history = b.seen history' ∧
      ∃ later, b.after history' = { a.after history with generator := later, seed }) := by
  constructor
  · rintro switch value dialect hvalue hothers rfl hlog
    have hstart : Switched switch a { a with dialect } := ⟨⟨value, hvalue⟩, hothers, rfl⟩
    obtain ⟨hafter, hseen⟩ := (lockstep_switched switch).after_of_same hstart
      (respects_switched switch) (fun _ _ entropy entropy' h => h.reset entropy entropy') hsame hlog
    have hkept : (({ a with dialect } : Machine).after history').dialect = dialect :=
      (settings_after _ history').1
    refine ⟨hseen, ?_, (a.settings_after history).1⟩
    have hrest := hafter.rest
    rw [hkept] at hrest
    exact hrest
  · rintro generator seed rfl hlog
    have hstart : Resourced a { a with generator, seed } := rfl
    obtain ⟨hafter, hseen⟩ := lockstep_resourced.after_of_same hstart respects_resourced
      (fun _ _ entropy entropy' h => reset_resourced h entropy entropy') hsame hlog
    have hkept : (({ a with generator, seed } : Machine).after history').seed = seed :=
      (settings_after _ history').2
    rw [Resourced, hkept] at hafter
    exact ⟨hseen, _, hafter⟩

/-- A program that shifts a register into itself runs, and then the machine is reset. -/
def shiftInPlace (entropy : UInt64) : List Operation :=
  tryWord 0x80 0x06 ++ [⟨.reset entropy, Scheduler.ofRate 700⟩]

lemma same_shiftInPlace (entropy entropy' : UInt64) :
    List.Forall₂ Operation.Same (shiftInPlace entropy) (shiftInPlace entropy') :=
  .cons (.refl _) (.cons (.refl _) (.cons (.reset _ entropy entropy') .nil))

lemma mem_journal_shiftInPlace {entropy : UInt64} {entry : Log.Entry}
    (h : entry ∈ m.journal (shiftInPlace entropy)) :
    entry = .loaded 2 ∨ entry ∈ (m.loadProgram [0x80, 0x06]).machine.step.log ∨
      entry = .resetting := by
  rcases List.mem_append.mp h with hload | hrest
  · exact Or.inl (mem_log_loadProgram (Array.mem_toList_iff.mp hload))
  · rcases List.mem_append.mp hrest with hstep | hreset
    · exact Or.inr (Or.inl (Array.mem_toList_iff.mp hstep))
    · exact Or.inr (Or.inr (List.mem_singleton.mp hreset))

lemma upcoming_shiftInPlace :
    ((ofConfig seeded 0).loadProgram [0x80, 0x06]).machine.upcoming
      = some (.alu .shiftRight Register.v0 Register.v0) := by
  obtain ⟨memory, heq, hread⟩ := loadProgram_word seeded 0 0x80 0x06
  rw [heq]
  exact upcoming_eq_some.mpr ⟨rfl, rfl, 0x8006, fetch_of_read16 hread rfl⟩

/-- Nothing of which the journal of this program tells obeys the switch of the shifts, or draws a
random byte. -/
lemma quiet_shiftInPlace {entropy : UInt64} {entry : Log.Entry}
    (h : entry ∈ (ofConfig seeded 0).journal (shiftInPlace entropy)) :
    ¬entry.Obeys .shift ∧ ¬entry.Rolls := by
  rcases mem_journal_shiftInPlace h with rfl | hstep | rfl
  · exact ⟨id, id⟩
  · constructor
    · intro hobeys
      obtain ⟨i, hup, hgoverned, -⟩ := obeys_log_step_iff.mp ⟨entry, hstep, hobeys⟩
      rw [upcoming_shiftInPlace] at hup
      obtain rfl := Option.some.inj hup
      cases hgoverned
    · intro hrolls
      obtain ⟨x, kk, hup⟩ := rolls_log_step_iff.mp ⟨entry, hstep, hrolls⟩
      rw [upcoming_shiftInPlace] at hup
      cases hup
  · exact ⟨id, id⟩

/-- A machine that shifts the second register into the first and one that does not, and a machine
with a seed and one without, cannot be told apart by this program, although the machines are reset
at its end and find other entropy there. -/
theorem settings_matter_where_governed_shiftInPlace :
    (ofConfig seeded 0).seed = some 7 ∧
    ({ ofConfig seeded 0 with dialect := ⟨true, false, true⟩ } : Machine).after (shiftInPlace 2)
      = { (ofConfig seeded 0).after (shiftInPlace 1) with dialect := ⟨true, false, true⟩ } ∧
    ∃ later, ({ ofConfig seeded 0 with
        generator := Generator.ofSeed 8, seed := none } : Machine).after (shiftInPlace 2)
      = { (ofConfig seeded 0).after (shiftInPlace 1) with generator := later, seed := none } := by
  obtain ⟨hdialect, -⟩ := settings_matter_where_governed (ofConfig seeded 0)
    { ofConfig seeded 0 with dialect := ⟨true, false, true⟩ } _ _ (same_shiftInPlace 1 2)
  obtain ⟨-, hsource⟩ := settings_matter_where_governed (ofConfig seeded 0)
    { ofConfig seeded 0 with generator := Generator.ofSeed 8, seed := none } _ _
    (same_shiftInPlace 1 2)
  have hothers : ∀ other, other ≠ Dialect.Switch.shift →
      (⟨true, false, true⟩ : Dialect).isOn other = seeded.dialect.isOn other := by
    intro other hother
    cases other with
    | logic => rfl
    | shift => exact absurd rfl hother
    | transfer => rfl
  exact ⟨rfl,
    (hdialect .shift 7 _ rfl hothers rfl fun _ hentry => (quiet_shiftInPlace hentry).1).2.1,
    (hsource _ _ rfl fun _ hentry => (quiet_shiftInPlace hentry).2).2⟩

end Machine

end ChipVm
