/-
# What a reset forgets

A reset puts everything back to where it was when the machine was switched on, but for the mark
on the screen, which it sets.  The settings never change, so with a seed among them the random
bytes start over as well, and a machine after a reset is a fresh machine with a marked screen,
whatever happened to it before.

The mark does not show in anything but in taking the frame.  An instruction that clears or draws
sets it and all others carry it along, so machines that differ in the mark go in lockstep
(`Machine.lockstep_marked`).  They become the same machine as soon as the screen is cleared or
drawn on, which the journal tells (`Log.Entry.Draws`), or the frame is taken.
-/
import Mathlib.Tactic.Lemma
import ChipVm.Proofs.Machine.Independence
import ChipVm.Proofs.Machine.Invariant
import ChipVm.Proofs.Machine.Lockstep
import ChipVm.Proofs.Machine.Renderer

namespace ChipVm

/-- The entry tells of an instruction that clears the screen or draws on it.  A sprite is drawn if
it lies in memory as a whole. -/
def Log.Entry.Draws : Log.Entry → Prop
  | .executing _ .clear _ => True
  | .executing _ (.draw _ _ height) registers =>
    registers.i.toNat + height.toNat ≤ memorySize
  | _ => False

namespace Machine

variable {m : Machine} {dirty : Bool}

/-- The machine with the screen marked as changed, or with that mark removed. -/
def marked (m : Machine) (dirty : Bool) : Machine :=
  { m with screen := { m.screen with dirty } }

lemma marked_of_dirty (h : m.screen.dirty = dirty) : m.marked dirty = m := by
  rw [← h]
  rfl

/-! ## The mark does not show -/

lemma aside_marked (dirty : Bool) : Aside (marked · dirty) :=
  aside_adjust id (fun screen => { screen with dirty }) id

/-- A step does the same whether or not the screen is marked, and leaves nothing but the mark to
tell by. -/
lemma step_marked (m : Machine) (dirty : Bool) :
    ∃ later, (m.marked dirty).step = m.step.map (marked · later) := by
  cases hup : m.upcoming with
  | none => exact ⟨dirty, (aside_marked dirty).step_of_none hup⟩
  | some i =>
    suffices h : ∃ later, (m.marked dirty).effect i = (m.effect i).mapState (marked · later) by
      obtain ⟨later, hlater⟩ := h
      exact ⟨later, (aside_marked dirty).step_of_upcoming (aside_marked later) hup hlater⟩
    cases hscreen : i.usesScreen with
    | false =>
      have hi : Ignores i (adjust id (fun screen => { screen with dirty }) id) :=
        ignores_adjust (Or.inl rfl) (Or.inr hscreen) (Or.inl rfl)
      exact ⟨dirty, hi m⟩
    | true =>
      cases i with
      | clear => exact ⟨true, rfl⟩
      | draw x y height =>
        simp only [effect, marked]
        cases m.memory.slice m.registers.i.toNat height.toNat with
        | error fault => exact ⟨dirty, rfl⟩
        | ok rows => exact ⟨true, rfl⟩
      | _ => cases hscreen

/-- Machines that differ in the mark at most go in lockstep. -/
lemma lockstep_marked : Lockstep (fun a b => ∃ dirty, b = a.marked dirty) fun _ => True where
  look := by
    rintro a _ ⟨dirty, rfl⟩
    exact ⟨rfl, rfl⟩
  step := by
    rintro a _ ⟨dirty, rfl⟩ -
    obtain ⟨later, hlater⟩ := a.step_marked dirty
    rw [hlater]
    exact ⟨⟨later, rfl⟩, rfl, rfl⟩
  tick := by
    rintro a _ ⟨dirty, rfl⟩
    exact ⟨dirty, rfl⟩

lemma respects_marked {command : Command} (h : command ≠ .takeFrame) :
    command.Respects fun a b => ∃ dirty, b = a.marked dirty := by
  cases command with
  | load program =>
    rintro a _ ⟨dirty, rfl⟩
    have hload : (a.marked dirty).loadProgram program
        = (a.loadProgram program).map (marked · dirty) :=
      (aside_marked dirty).loadProgram_eq a program
    rw [hload]
    exact (a.loadProgram program).alike_map ⟨dirty, rfl⟩
  | reset entropy =>
    rintro a _ ⟨dirty, rfl⟩
    exact ⟨⟨true, rfl⟩, rfl, rfl⟩
  | setKey code down =>
    rintro a _ ⟨dirty, rfl⟩
    have hkey : (a.marked dirty).setKey code down
        = (a.setKey code down).map (marked · dirty) :=
      (aside_marked dirty).setKey_eq (fun _ => rfl) (fun _ _ => rfl) a code down
    rw [hkey]
    exact (a.setKey code down).alike_map ⟨dirty, rfl⟩
  | takeFrame => exact absurd rfl h
  | _ => trivial

/-- Taking the frame removes the mark. -/
lemma takeFrame_snd (m : Machine) : m.takeFrame.2 = m.marked false := by
  have hscreen := m.screen_takeFrame
  rw [takeFrame] at hscreen ⊢
  exact congrArg (fun screen => { m with screen }) hscreen

/-! ## Where the mark is set -/

/-- A sprite that lies in memory is drawn. -/
lemma execute_draw {x y : Register} {height : UInt8}
    (h : m.registers.i.toNat + height.toNat ≤ memorySize) :
    ∃ after, m.execute (.draw x y height) = .ok () after ∧ after.screen.dirty = true := by
  obtain ⟨rows, hrows⟩ : ∃ rows, m.memory.slice m.registers.i.toNat height.toNat = .ok rows :=
    ⟨_, if_pos h⟩
  simp only [execute, effect, hrows]
  exact ⟨_, rfl, rfl⟩

/-- A step leaves the screen marked if it was marked before or if it clears or draws. -/
lemma dirty_step (h : m.screen.dirty = true ∨ ∃ entry ∈ m.step.log, entry.Draws) :
    m.step.machine.screen.dirty = true := by
  rcases h with hdirty | ⟨entry, hentry, hdraws⟩
  · rcases m.screen_step with hsame | hmarked
    · rw [hsame]
      exact hdirty
    · exact hmarked
  · cases entry with
    | executing op i registers =>
      obtain ⟨hrun, hkey, hfetch, rfl⟩ := executing_mem_log_step.mp hentry
      have hup : m.upcoming = some i := upcoming_eq_some.mpr ⟨hrun, hkey, op, hfetch⟩
      cases i with
      | clear =>
        rw [(step_of_execute hup rfl).1]
        rfl
      | draw x y height =>
        obtain ⟨after, hexecute, hdirty⟩ := execute_draw hdraws
        rw [(step_of_execute hup hexecute).1]
        exact hdirty
      | _ => exact hdraws.elim
    | _ => exact hdraws.elim

/-- The same for a sequence of steps and ticks. -/
lemma Moves.dirty_after {events : List Event} {log : Array Log.Entry} {after : Machine}
    (hmoves : Moves m events log after)
    (h : m.screen.dirty = true ∨ ∃ entry ∈ log, entry.Draws) :
    after.screen.dirty = true := by
  induction hmoves with
  | none m => simpa using h
  | step _ ih =>
    refine ih ?_
    rcases h with hdirty | ⟨entry, hentry, hdraws⟩
    · exact Or.inl (dirty_step (Or.inl hdirty))
    · rcases Array.mem_append.mp hentry with hnow | hlater
      · exact Or.inl (dirty_step (Or.inr ⟨entry, hnow, hdraws⟩))
      · exact Or.inr ⟨entry, hlater, hdraws⟩
  | tick _ ih => exact ih h

lemma not_draws_loadProgram (m : Machine) (program : List UInt8) :
    ¬∃ entry ∈ (m.loadProgram program).log, entry.Draws := by
  rintro ⟨entry, hentry, hdraws⟩
  obtain rfl := mem_log_loadProgram hentry
  exact hdraws

lemma not_draws_setKey (m : Machine) (code : UInt8) (down : Bool) :
    ¬∃ entry ∈ (m.setKey code down).log, entry.Draws := by
  rintro ⟨entry, hentry, hdraws⟩
  obtain ⟨register, rfl⟩ := mem_log_setKey hentry
  exact hdraws

/-- The step lemma: an operation other than taking the frame keeps the mark, and sets it if an
instruction clears or draws in it. -/
lemma dirty_perform {operation : Operation} (hcommand : operation.command ≠ .takeFrame)
    (h : m.screen.dirty = true ∨ ∃ entry ∈ (m.perform operation).log, entry.Draws) :
    (m.perform operation).console.machine.screen.dirty = true := by
  obtain ⟨command, scheduler⟩ := operation
  cases command with
  | load program =>
    have hdirty := h.resolve_right (m.not_draws_loadProgram program)
    rw [← m.screen_loadProgram program] at hdirty
    exact hdirty
  | reset entropy => rfl
  | step => exact dirty_step h
  | run limit => exact (m.moves_runUntilStall limit).dirty_after h
  | setKey code down =>
    have hdirty := h.resolve_right (m.not_draws_setKey code down)
    rw [← m.screen_setKey code down] at hdirty
    exact hdirty
  | tick times => exact (Moves.tickTimes m times).dirty_after h
  | takeFrame => exact absurd rfl hcommand
  | advance elapsed =>
    obtain ⟨written, hmoves, hwritten⟩ := scheduler.moves_advance m elapsed
    refine hmoves.dirty_after (h.imp_right ?_)
    rintro ⟨entry, hentry, hdraws⟩
    change entry ∈ (scheduler.advance m elapsed).log at hentry
    rcases hwritten with hsame | ⟨steps, ticks, hpushed⟩
    · exact ⟨entry, hsame ▸ hentry, hdraws⟩
    · rw [hpushed] at hentry
      rcases Array.mem_push.mp hentry with hmem | rfl
      · exact ⟨entry, hmem, hdraws⟩
      · exact hdraws.elim
  | resetScheduler => exact (Moves.none m).dirty_after h

/-- The run lemma. -/
lemma dirty_after {history : List Operation}
    (hcommand : ∀ operation ∈ history, operation.command ≠ .takeFrame)
    (h : m.screen.dirty = true ∨ ∃ entry ∈ m.journal history, entry.Draws) :
    (m.after history).screen.dirty = true := by
  induction history generalizing m with
  | nil => simpa [journal, after] using h
  | cons first rest ih =>
    have hfirst := hcommand first List.mem_cons_self
    refine ih (fun operation hmem => hcommand operation (List.mem_cons_of_mem _ hmem)) ?_
    rcases h with hdirty | ⟨entry, hentry, hdraws⟩
    · exact Or.inl (dirty_perform hfirst (Or.inl hdirty))
    · rcases List.mem_append.mp hentry with hnow | hlater
      · exact Or.inl (dirty_perform hfirst
          (Or.inr ⟨entry, Array.mem_toList_iff.mp hnow, hdraws⟩))
      · exact Or.inr ⟨entry, hlater, hdraws⟩

/-! ## The settings -/

lemma settings_reset (m : Machine) (entropy : UInt64) :
    (m.reset entropy).machine.dialect = m.dialect ∧
      (m.reset entropy).machine.seed = m.seed := by
  -- with the fields apart, nobody compares the memories of the two machines byte by byte
  cases m
  dsimp only [reset]
  exact ⟨rfl, rfl⟩

lemma settings_step (m : Machine) :
    m.step.machine.dialect = m.dialect ∧ m.step.machine.seed = m.seed := by
  rcases m.step_cases with ⟨halted, hafter⟩ | ⟨i, flow, mid, -, heffect, hafter⟩
  · rw [hafter]
    exact ⟨rfl, rfl⟩
  · rw [hafter, (settings_follow mid flow).1, (settings_follow mid flow).2]
    exact heffect.settings

/-- Whatever happens to a machine, it keeps its dialect and its seed. -/
lemma settings_after (m : Machine) (history : List Operation) :
    (m.after history).dialect = m.dialect ∧ (m.after history).seed = m.seed := by
  refine after_keeps (P := fun after => after.dialect = m.dialect ∧ after.seed = m.seed)
    ?_ (fun _ h => h) ?_ ⟨rfl, rfl⟩
  · intro mid hmid
    obtain ⟨hdialect, hseed⟩ := mid.settings_step
    rw [hdialect, hseed]
    exact hmid
  · rintro ⟨command, scheduler⟩ -
    cases command with
    | load program =>
      intro mid hmid
      obtain ⟨memory, hload⟩ := mid.loadProgram_machine program
      rw [hload]
      exact hmid
    | reset entropy =>
      intro mid hmid
      obtain ⟨hdialect, hseed⟩ := mid.settings_reset entropy
      rw [hdialect, hseed]
      exact hmid
    | setKey code down =>
      intro mid hmid
      obtain ⟨keypad, registers, hkey⟩ := mid.setKey_machine code down
      rw [hkey]
      exact hmid
    | takeFrame => exact fun _ hmid => hmid
    | _ => trivial

/-- With a seed, a reset brings back the machine as it is switched on, with the screen marked. -/
lemma reset_machine {config : Config} {seed : UInt64} (hseed : config.seed = some seed)
    (hdialect : m.dialect = config.dialect) (hkept : m.seed = config.seed)
    (entropy entropy' : UInt64) :
    (m.reset entropy).machine = (ofConfig config entropy').marked true := by
  simp only [reset, hdialect, hkept, marked, ofConfig, freshGenerator, hseed]
  rfl

/-- With a seed, a reset forgets all history.  Whatever was done to a machine before it, nothing
that is done to it afterwards, short of taking the frame, comes to anything else than on a fresh
machine; only the screen is marked as changed.  Once an instruction has cleared or drawn, or the
frame was taken, the two are the same machine. -/
theorem reset_forgets (config : Config) (seed : UInt64) (hseed : config.seed = some seed)
    (entropy entropy' entropy'' : UInt64) (past : List Operation) (restarted fresh : Machine)
    (hrestarted : restarted = (((ofConfig config entropy).after past).reset entropy').machine)
    (hfresh : fresh = ofConfig config entropy'') (history : List Operation)
    (hhistory : ∀ operation ∈ history, operation.command ≠ .takeFrame) :
    restarted.seen history = fresh.seen history ∧
    restarted.after history = (fresh.after history).marked true ∧
    ((∃ entry ∈ fresh.journal history, entry.Draws) →
      restarted.after history = fresh.after history) ∧
    ∀ scheduler,
      restarted.after (history ++ [⟨.takeFrame, scheduler⟩])
        = fresh.after (history ++ [⟨.takeFrame, scheduler⟩]) := by
  have hstart : restarted = fresh.marked true := by
    obtain ⟨hdialect, hkept⟩ := (ofConfig config entropy).settings_after past
    rw [hrestarted, hfresh]
    exact reset_machine hseed hdialect hkept entropy' entropy''
  obtain ⟨⟨dirty, hafter⟩, hseen⟩ := lockstep_marked.after ⟨true, hstart⟩
    (fun operation hmem => respects_marked (hhistory operation hmem)) fun _ _ => trivial
  have hdirty : (restarted.after history).screen.dirty = true :=
    dirty_after hhistory (Or.inl (by rw [hstart]; rfl))
  obtain rfl : dirty = true := by
    rw [hafter] at hdirty
    exact hdirty
  refine ⟨hseen.symm, hafter, ?_, ?_⟩
  · intro hdraws
    rw [hafter]
    exact marked_of_dirty (dirty_after hhistory (Or.inr hdraws))
  · intro scheduler
    rw [after_append, after_append, hafter]
    show ((fresh.after history).marked true).takeFrame.2 = (fresh.after history).takeFrame.2
    rw [takeFrame_snd, takeFrame_snd]
    rfl

/-- Settings with a seed. -/
def seeded : Config := { Config.standard with seed := some 7 }

/-- Puts a program of one word into memory and takes a step. -/
def tryWord (high low : UInt8) : List Operation :=
  [⟨.load [high, low], Scheduler.ofRate 700⟩, ⟨.step, Scheduler.ofRate 700⟩]

lemma after_tryWord (m : Machine) (high low : UInt8) :
    m.after (tryWord high low) = (m.loadProgram [high, low]).machine.step.machine := rfl

lemma mem_journal_tryWord {high low : UInt8} {entry : Log.Entry}
    (h : entry ∈ (m.loadProgram [high, low]).machine.step.log) :
    entry ∈ m.journal (tryWord high low) := by
  refine List.mem_append_right _ (List.mem_append_left _ ?_)
  exact Array.mem_toList_iff.mpr h

/-- The first step of a program that waits for a key. -/
lemma awaiting_tryWord :
    ((ofConfig seeded 1).after (tryWord 0xF0 0x0A)).keypad.awaiting = some Register.v0 := by
  obtain ⟨memory, heq, hread⟩ := loadProgram_word seeded 1 0xF0 0x0A
  have hfetch : ({ ofConfig seeded 1 with memory } : Machine).fetch
      = .ok (0xF00A, .awaitKey Register.v0) := fetch_of_read16 hread rfl
  rw [after_tryWord, heq, step_awaitKey rfl rfl hfetch]
  rfl

/-- The journal of a program that clears the screen. -/
lemma draws_tryWord :
    .executing 0x00E0 .clear RegisterFile.initial
      ∈ (ofConfig seeded 3).journal (tryWord 0x00 0xE0) := by
  obtain ⟨memory, heq, hread⟩ := loadProgram_word seeded 3 0x00 0xE0
  have hfetch : ({ ofConfig seeded 3 with memory } : Machine).fetch = .ok (0x00E0, .clear) :=
    fetch_of_read16 hread rfl
  refine mem_journal_tryWord ?_
  rw [heq]
  exact executing_mem_log_step.mpr ⟨rfl, rfl, hfetch, rfl⟩

/-- A machine that waits for a key is reset and then clears the screen: nothing is left of the
wait, and not even the mark tells it from a fresh machine that clears the screen. -/
theorem reset_forgets_waiting :
    seeded.seed = some 7 ∧
    ((ofConfig seeded 1).after (tryWord 0xF0 0x0A)).keypad.awaiting = some Register.v0 ∧
    (∀ operation ∈ tryWord 0x00 0xE0, operation.command ≠ .takeFrame) ∧
    (((ofConfig seeded 1).after (tryWord 0xF0 0x0A)).reset 2).machine.after (tryWord 0x00 0xE0)
      = (ofConfig seeded 3).after (tryWord 0x00 0xE0) := by
  have hhistory : ∀ operation ∈ tryWord 0x00 0xE0, operation.command ≠ .takeFrame := by
    simp [tryWord]
  obtain ⟨-, -, hsame, -⟩ := reset_forgets seeded 7 rfl 1 2 3 (tryWord 0xF0 0x0A) _ _ rfl rfl
    (tryWord 0x00 0xE0) hhistory
  exact ⟨rfl, awaiting_tryWord, hhistory, hsame ⟨_, draws_tryWord, trivial⟩⟩

end Machine

end ChipVm
