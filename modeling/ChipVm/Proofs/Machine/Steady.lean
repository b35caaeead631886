/-
# Steps that leave the timers alone

The plain course of a machine is one step after the other, with nothing in between.  A machine
is steady when its next step succeeds and runs no instruction that has to do with the timers.
As long as the machines on a course are steady, ticks may come in between wherever they like:
the course goes through the same steps with the same results, and ends with the ticks on top
(`Machine.SteadyFor.stepTimes_tickTimes`).
-/
import Mathlib.Tactic.Lemma
import ChipVm.Proofs.Machine.Independence
import ChipVm.Proofs.Machine.KeyWait

namespace ChipVm.Machine

variable {m : Machine}

/-! ## The plain course -/

/-- The machine after the given number of steps. -/
def stepTimes (m : Machine) : Nat → Machine
  | 0 => m
  | n + 1 => (m.stepTimes n).step.machine

/-- What the first `count` steps come to. -/
def stepResults (m : Machine) (count : Nat) : List (Except Fault StepOutcome) :=
  (List.range count).map fun k => (m.stepTimes k).step.result

lemma stepTimes_add (m : Machine) (first second : Nat) :
    m.stepTimes (first + second) = (m.stepTimes first).stepTimes second := by
  induction second with
  | zero => rfl
  | succ second ih => exact congrArg (fun m => m.step.machine) ih

lemma stepResults_succ (m : Machine) (count : Nat) :
    m.stepResults (count + 1) = m.stepResults count ++ [(m.stepTimes count).step.result] := by
  rw [stepResults, List.range_succ, List.map_append]
  rfl

lemma stepResults_add (m : Machine) (first second : Nat) :
    m.stepResults (first + second)
      = m.stepResults first ++ (m.stepTimes first).stepResults second := by
  rw [stepResults, List.range_add, List.map_append, List.map_map]
  refine congrArg (m.stepResults first ++ ·) (List.map_congr_left fun k _ => ?_)
  show (m.stepTimes (first + k)).step.result = _
  rw [stepTimes_add]

/-! ## Steady machines -/

/-- The next step succeeds, and it has nothing to do with the timers. -/
structure Steady (m : Machine) : Prop where
  ok : ∃ outcome, m.step.result = .ok outcome
  untimed : ∀ i, m.upcoming = some i → i.usesTimers = false

lemma Steady.step_tickTimes (h : m.Steady) (times : Nat) :
    (m.tickTimes times).step = m.step.map fun after => after.tickTimes times :=
  Machine.step_tickTimes h.untimed times

lemma steady_tickTimes {times : Nat} : (m.tickTimes times).Steady ↔ m.Steady := by
  have hupcoming := m.upcoming_tickTimes times
  constructor
  · rintro ⟨hok, huntimed⟩
    rw [hupcoming] at huntimed
    rw [Machine.step_tickTimes huntimed] at hok
    exact ⟨hok, huntimed⟩
  · rintro ⟨hok, huntimed⟩
    refine ⟨?_, hupcoming ▸ huntimed⟩
    rw [Machine.step_tickTimes huntimed]
    exact hok

/-- So many steps in a row find the machine steady. -/
def SteadyFor (m : Machine) (count : Nat) : Prop :=
  ∀ k < count, (m.stepTimes k).Steady

variable {count : Nat}

lemma SteadyFor.mono (h : m.SteadyFor count) {k : Nat} (hk : k ≤ count) : m.SteadyFor k :=
  fun j hj => h j (Nat.lt_of_lt_of_le hj hk)

lemma steadyFor_zero (m : Machine) : m.SteadyFor 0 := nofun

lemma steadyFor_succ :
    m.SteadyFor (count + 1) ↔ m.SteadyFor count ∧ (m.stepTimes count).Steady :=
  Nat.forall_lt_succ_right

lemma steadyFor_add {first second : Nat} :
    m.SteadyFor (first + second) ↔
      m.SteadyFor first ∧ (m.stepTimes first).SteadyFor second := by
  induction second with
  | zero => exact ⟨fun h => ⟨h, steadyFor_zero _⟩, fun h => h.1⟩
  | succ second ih =>
    rw [← Nat.add_assoc, steadyFor_succ, steadyFor_succ, ih, stepTimes_add, and_assoc]

lemma SteadyFor.exists_outcomes (h : m.SteadyFor count) :
    ∃ outcomes : List StepOutcome, m.stepResults count = outcomes.map .ok := by
  induction count with
  | zero => exact ⟨[], rfl⟩
  | succ count ih =>
    obtain ⟨hbefore, hlast⟩ := steadyFor_succ.mp h
    obtain ⟨outcomes, houtcomes⟩ := ih hbefore
    obtain ⟨outcome, houtcome⟩ := hlast.ok
    exact ⟨outcomes ++ [outcome], by rw [stepResults_succ, houtcomes, houtcome]; simp⟩

/-- Ticks beforehand make the same course with the ticks on top. -/
lemma SteadyFor.stepTimes_tickTimes (h : m.SteadyFor count) (times : Nat) :
    (m.tickTimes times).stepTimes count = (m.stepTimes count).tickTimes times := by
  induction count with
  | zero => rfl
  | succ count ih =>
    obtain ⟨hbefore, hlast⟩ := steadyFor_succ.mp h
    rw [stepTimes, ih hbefore, hlast.step_tickTimes]
    rfl

lemma SteadyFor.stepResults_tickTimes (h : m.SteadyFor count) (times : Nat) :
    (m.tickTimes times).stepResults count = m.stepResults count := by
  refine List.map_congr_left fun k hk => ?_
  have hlt : k < count := List.mem_range.mp hk
  rw [(h.mono (Nat.le_of_lt hlt)).stepTimes_tickTimes, (h k hlt).step_tickTimes]
  rfl

lemma steadyFor_tickTimes {times : Nat} :
    (m.tickTimes times).SteadyFor count ↔ m.SteadyFor count := by
  induction count with
  | zero => exact ⟨fun _ => steadyFor_zero _, fun _ => steadyFor_zero _⟩
  | succ count ih =>
    rw [steadyFor_succ, steadyFor_succ, ih]
    refine and_congr_right fun hbefore => ?_
    rw [hbefore.stepTimes_tickTimes, steady_tickTimes]

/-! ## Programs that wait for a key -/

lemma Waiting.steady {before : Machine} {x : Register} (h : Waiting before x m) : m.Steady := by
  refine ⟨⟨.waiting x, by rw [h.step_eq]⟩, ?_⟩
  rw [upcoming_waiting h.awaiting]
  exact nofun

/-- A program that runs into a key wait is steady from there on. -/
lemma steadyFor_awaitKey {op : UInt16} {x : Register} (hrun : m.halted = none)
    (hkey : m.keypad.awaiting = none) (hfetch : m.fetch = .ok (op, .awaitKey x)) (count : Nat) :
    m.SteadyFor count := by
  have hwait : ∀ k, Waiting m x (m.stepTimes (k + 1)) := by
    intro k
    induction k with
    | zero => exact waiting_step hrun hkey hfetch
    | succ k ih => exact ih.step
  intro k _
  cases k with
  | zero =>
    refine ⟨?_, ?_⟩
    · rw [stepTimes, step_running hrun hkey, cycle, hfetch]
      exact ⟨_, rfl⟩
    · rw [stepTimes, upcoming_running hrun hkey, hfetch]
      rintro i hi
      obtain rfl := Option.some.inj hi
      rfl
  | succ k => exact (hwait k).steady

end ChipVm.Machine
