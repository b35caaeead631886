/-
# Which random byte is drawn

A seed stands for a fixed stream of bytes.  A machine with a seed draws them in order, one for
each random instruction that runs, and starts over at a reset.  Nothing else draws a byte: not a
step that fails, not a step that waits, not any other instruction or event.

So the place in the stream is the number of random instructions that have run since the machine
was switched on or last reset (`Machine.draws`).  `Machine.Drawn.undergo` is the step lemma, for a
single event, and `Machine.Drawn.course` carries it over a course of events.
-/
import Mathlib.Tactic.Lemma
import ChipVm.Proofs.Machine.Course
import ChipVm.Proofs.Machine.Settings

namespace ChipVm.Machine

variable {m : Machine} {x : Register} {kk : UInt8} {seed : UInt64} {count : Nat}

/-! ## Steps -/

/-- A random instruction stores the next byte under its mask, and that byte is gone. -/
lemma step_random (h : m.upcoming = some (.random x kk)) :
    m.step.machine = { m with
      generator := { m.generator with drawn := m.generator.drawn + 1 }
      registers := (m.registers.set x
        (Random.byteAt m.generator.key m.generator.drawn &&& kk)).advance } ∧
    m.step.result = .ok (.executed (.random x kk)) :=
  step_of_execute h rfl

/-- A step that runs no random instruction draws no byte. -/
lemma generator_step (h : ∀ x kk, m.upcoming ≠ some (.random x kk)) :
    m.step.machine.generator = m.generator := by
  -- to put the generator in its own place changes nothing before the step, hence nothing after it
  have hfixed : m.step.machine.refit id (fun _ => m.generator) id = m.step.machine := by
    refine step_fixed (aside_refit id (fun _ => m.generator) id) ?_ rfl
    intro i hup m'
    refine effect_refit (fun _ _ => rfl) (Or.inr ?_)
    rintro x kk rfl
    exact h x kk hup
  rw [← hfixed]
  rfl

/-! ## Counting -/

/-- The number of bytes drawn after an event, when `count` have been drawn before it.  A reset
starts over. -/
def tally (m : Machine) (count : Nat) : Event → Nat
  | .reset _ => 0
  | .step =>
    match m.upcoming with
    | some (.random _ _) => count + 1
    | _ => count
  | .load _ | .setKey _ _ | .tick | .takeFrame => count

/-- The number of bytes drawn in a course of events, when `count` have been drawn before it. -/
def drawsFrom (count : Nat) (m : Machine) : List Event → Nat
  | [] => count
  | event :: rest => drawsFrom (m.tally count event) (m.undergo event) rest

/-- The number of random instructions that have run since the course began, or since the last
reset in it. -/
def draws (m : Machine) (events : List Event) : Nat := drawsFrom 0 m events

/-- The machine has the seed, and has drawn so many bytes of its stream. -/
structure Drawn (seed : UInt64) (count : Nat) (m : Machine) : Prop where
  seeded : m.seed = some seed
  generator : m.generator = ⟨Random.keyOfSeed seed, count⟩

namespace Drawn

lemma step (h : Drawn seed count m) : Drawn seed (m.tally count .step) m.step.machine := by
  refine ⟨m.settings_step.2.trans h.seeded, ?_⟩
  rw [tally]
  split
  · rename_i x kk hup
    rw [(step_random hup).1, h.generator]
  · rename_i hother
    rw [generator_step hother]
    exact h.generator

/-- The step lemma: one event. -/
lemma undergo (h : Drawn seed count m) (event : Event) :
    Drawn seed (m.tally count event) (m.undergo event) := by
  cases event with
  | load program =>
    obtain ⟨memory, hload⟩ := m.loadProgram_machine program
    refine ⟨?_, ?_⟩
    · rw [Machine.undergo, hload]
      exact h.seeded
    · rw [Machine.undergo, hload]
      exact h.generator
  | reset entropy =>
    have hgenerator : (m.reset entropy).machine.generator = freshGenerator m.seed entropy := rfl
    refine ⟨(m.settings_reset entropy).2.trans h.seeded, ?_⟩
    rw [Machine.undergo, hgenerator, h.seeded]
    rfl
  | step => exact h.step
  | setKey code down =>
    obtain ⟨keypad, registers, hkey⟩ := m.setKey_machine code down
    refine ⟨?_, ?_⟩
    · rw [Machine.undergo, hkey]
      exact h.seeded
    · rw [Machine.undergo, hkey]
      exact h.generator
  | tick => exact ⟨h.seeded, h.generator⟩
  | takeFrame => exact ⟨h.seeded, h.generator⟩

/-- The run lemma: a course of events. -/
lemma course (h : Drawn seed count m) (events : List Event) :
    Drawn seed (drawsFrom count m events) (m.course events) := by
  induction events generalizing m count with
  | nil => exact h
  | cons event rest ih => exact ih (h.undergo event)

end Drawn

/-- With a seed, random bytes are drawn in the order of the stream of that seed, one by each random
instruction and by nothing else.  The history comes to a course of single events, in which the
instructions run of which the journal tells; wherever a step of this course runs a random
instruction, its register receives the byte whose place in the stream is the number of random
instructions before it, since the machine was switched on or last reset. -/
theorem random_bytes_in_order (config : Config) (seed : UInt64) (hseed : config.seed = some seed)
    (entropy : UInt64) (m : Machine) (hm : m = ofConfig config entropy)
    (history : List Operation) :
    m.course (m.events history) = m.after history ∧
    m.ran (m.events history) = (m.journal history).filterMap Log.Entry.instruction? ∧
    (m.after history).generator
      = ⟨Random.keyOfSeed seed, m.draws (m.events history)⟩ ∧
    ∀ before rest x kk, m.events history = before ++ .step :: rest →
      (m.course before).upcoming = some (.random x kk) →
      (m.course before).step.result = .ok (.executed (.random x kk)) ∧
      (m.course (before ++ [.step])).registers.get x
        = Random.byteAt (Random.keyOfSeed seed) (m.draws before) &&& kk := by
  have hstart : Drawn seed 0 m := by
    subst hm
    refine ⟨hseed, ?_⟩
    show freshGenerator config.seed entropy = ⟨Random.keyOfSeed seed, 0⟩
    rw [hseed]
    rfl
  obtain ⟨hmachine, hran⟩ := m.accounts_events history
  refine ⟨hmachine, hran, ?_, ?_⟩
  · rw [← hmachine]
    exact (hstart.course (m.events history)).generator
  · intro before rest x kk _ hup
    have hbefore : (m.course before).generator = ⟨Random.keyOfSeed seed, m.draws before⟩ :=
      (hstart.course before).generator
    obtain ⟨hafter, hresult⟩ := step_random hup
    refine ⟨hresult, ?_⟩
    rw [course_append, course, undergo, course, hafter, hbefore]
    exact RegisterFile.get_set_self _ x _

/-- A program that draws two bytes, for two registers and under two masks. -/
def twoDraws : List UInt8 := [0xC0, 0xFF, 0xCF, 0x0F]

/-- Loads that program and runs it. -/
def drawTwice : List Operation :=
  [⟨.load twoDraws, Scheduler.ofRate 700⟩, ⟨.run 2, Scheduler.ofRate 700⟩]

lemma events_drawTwice (m : Machine) :
    m.events drawTwice = .load twoDraws :: ((m.loadProgram twoDraws).machine.runEvents 2 ++ []) :=
  rfl

lemma course_load_step (m : Machine) :
    m.course [.load twoDraws, .step] = (m.loadProgram twoDraws).machine.step.machine := rfl

lemma upcoming_twoDraws :
    ((ofConfig seeded 0).loadProgram twoDraws).machine.upcoming
        = some (.random Register.v0 0xFF) ∧
      ((ofConfig seeded 0).course [.load twoDraws, .step]).upcoming
        = some (.random Register.vf 0x0F) := by
  have hfits : twoDraws.length ≤ programCapacity := by decide
  obtain ⟨memory, heq, hread⟩ := loadProgram_fresh seeded 0 hfits
  have hword : memory.read16 programStart = .ok 0xC0FF := (hread (k := 0) rfl rfl).trans rfl
  have hword' : memory.read16 (programStart + 2) = .ok 0xCF0F := (hread (k := 2) rfl rfl).trans rfl
  rw [course_load_step, heq]
  have hfirst : ({ ofConfig seeded 0 with memory } : Machine).upcoming
      = some (.random Register.v0 0xFF) :=
    upcoming_eq_some.mpr ⟨rfl, rfl, 0xC0FF, fetch_of_read16 hword rfl⟩
  refine ⟨hfirst, ?_⟩
  rw [(step_random hfirst).1]
  exact upcoming_eq_some.mpr ⟨rfl, rfl, 0xCF0F, fetch_of_read16 hword' rfl⟩

/-- In the run of that program the second register receives the second byte of the seed's stream. -/
theorem random_bytes_in_order_drawTwice :
    seeded.seed = some 7 ∧
    (ofConfig seeded 0).events drawTwice = [.load twoDraws, .step] ++ .step :: [] ∧
    ((ofConfig seeded 0).course [.load twoDraws, .step]).upcoming
      = some (.random Register.vf 0x0F) ∧
    ((ofConfig seeded 0).course ([.load twoDraws, .step] ++ [.step])).registers.get Register.vf
      = Random.byteAt (Random.keyOfSeed 7) 1 &&& 0x0F := by
  obtain ⟨-, -, -, hdraw⟩ := random_bytes_in_order seeded 7 rfl 0 _ rfl drawTwice
  obtain ⟨hfirst, hsecond⟩ := upcoming_twoDraws
  have hevents : (ofConfig seeded 0).events drawTwice
      = [.load twoDraws, .step] ++ .step :: [] := by
    rw [course_load_step] at hsecond
    rw [events_drawTwice, runEvents, (step_random hfirst).2]
    dsimp only
    rw [runEvents, (step_random hsecond).2]
    rfl
  have hcount : (ofConfig seeded 0).draws [.load twoDraws, .step] = 1 := by
    rw [draws, drawsFrom, drawsFrom, drawsFrom, tally, tally, undergo, hfirst]
  refine ⟨rfl, hevents, hsecond, ?_⟩
  rw [← hcount]
  exact (hdraw _ _ _ _ hevents hsecond).2

end ChipVm.Machine
