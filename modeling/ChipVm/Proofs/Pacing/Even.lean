/-
# Even pacing

What letting time pass comes to, said without the loop that does it.  With `S` steps and `T`
ticks owed, the plain run calls for a step `S` times, whatever the machine is about, and after
the `j`-th call ticks the timers until `T * j / S` ticks have been applied in all.

`Scheduler.advance` differs from it in that it stops calling for steps once it has found a
register waiting.  No step would do anything then, so the difference does not show.  The
invariant `Progress.Even` relates the loop after `j` turns to the plain run after `j` calls; it
holds at first, a turn carries it on (`Progress.Even.turn`), and so the whole loop does
(`pace_of_ok`, `pace_of_error`).
-/
import Mathlib.Tactic.Lemma
import ChipVm.Proofs.Machine.Halt
import ChipVm.Proofs.Pacing.Drift

namespace ChipVm

/-- Whether a step did something: it ran an instruction, be it a jump to itself. -/
def Machine.StepOutcome.ran : Machine.StepOutcome → Bool
  | .executed _ => true
  | .stalled => true
  | .waiting _ => false

/-- A step that reports a register waiting did nothing else. -/
lemma Machine.step_of_waiting {m : Machine} {x : Register}
    (h : m.step.result = .ok (.waiting x)) :
    m.halted = none ∧ m.keypad.awaiting = some x ∧ m.step.machine = m := by
  obtain ⟨hrun, ⟨y, hkey, hy, hsame⟩ | ⟨-, op, i, -, -, hi⟩⟩ := step_ok_cases h
  · obtain rfl := StepOutcome.waiting.inj hy
    exact ⟨hrun, hkey, hsame⟩
  · rw [outcomeAt] at hi
    split at hi <;> cases hi

namespace Scheduler

open Machine (StepOutcome)

/-! ## The plain run -/

/-- A machine, and how often its timers have been ticked since the run began. -/
structure Paced where
  /-- The machine. -/
  machine : Machine
  /-- The ticks that have been applied. -/
  ticked : Nat

/-- Calls for a step, and then ticks the timers until `due` ticks have been applied in all. -/
def Paced.call (p : Paced) (due : Nat) : Paced :=
  ⟨p.machine.step.machine.tickTimes (due - p.ticked), max p.ticked due⟩

/-- The plain run after `j` of its `steps` calls. -/
def evenly (steps ticks : Nat) (m : Machine) : Nat → Paced
  | 0 => ⟨m, 0⟩
  | j + 1 => (evenly steps ticks m j).call (ticks * (j + 1) / steps)

/-- What the first `count` calls of the plain run return. -/
def evenResults (steps ticks : Nat) (m : Machine) (count : Nat) :
    List (Except Fault StepOutcome) :=
  (List.range count).map fun j => (evenly steps ticks m j).machine.step.result

/-- The machine at the end of the plain run.  When there is no step to spread the ticks over,
they are applied all the same. -/
def evenRun (steps ticks : Nat) (m : Machine) : Machine :=
  if steps = 0 then m.tickTimes ticks else (evenly steps ticks m steps).machine

variable {steps ticks j : Nat} {m : Machine} {fault : Fault} {outcome : StepOutcome}
  {outcomes : List StepOutcome}

/-- After `j` calls, `T * j / S` of the ticks have been applied. -/
lemma ticked_evenly (steps ticks : Nat) (m : Machine) (j : Nat) :
    (evenly steps ticks m j).ticked = ticks * j / steps := by
  cases j with
  | zero =>
    show 0 = ticks * 0 / steps
    rw [Nat.mul_zero, Nat.zero_div]
  | succ j =>
    have hmono : ticks * j / steps ≤ ticks * (j + 1) / steps :=
      Nat.div_le_div_right (Nat.mul_le_mul_left ticks (Nat.le_succ j))
    show max (evenly steps ticks m j).ticked _ = _
    rw [ticked_evenly steps ticks m j]
    exact Nat.max_eq_right hmono

lemma machine_evenly_succ (steps ticks : Nat) (m : Machine) (j : Nat) :
    (evenly steps ticks m (j + 1)).machine
      = (evenly steps ticks m j).machine.step.machine.tickTimes
          (ticks * (j + 1) / steps - ticks * j / steps) := by
  rw [← ticked_evenly steps ticks m j]
  rfl

/-- What steps and ticks keep holds all along the plain run. -/
lemma evenly_keeps {P : Machine → Prop} (hstep : ∀ m, P m → P m.step.machine)
    (htick : ∀ m, P m → P m.tickTimers) (hm : P m) (j : Nat) :
    P (evenly steps ticks m j).machine := by
  induction j with
  | zero => exact hm
  | succ j ih =>
    rw [machine_evenly_succ]
    exact Machine.tickTimes_keeps htick (hstep _ ih) _

/-- If steps and ticks keep what makes a step come to `outcome`, every call of the plain run comes
to it. -/
lemma evenResults_of_kept {P : Machine → Prop} (hstep : ∀ m, P m → P m.step.machine)
    (htick : ∀ m, P m → P m.tickTimers) (hresult : ∀ m, P m → m.step.result = .ok outcome)
    (hm : P m) (count : Nat) :
    evenResults steps ticks m count = (List.replicate count outcome).map .ok := by
  rw [evenResults, List.map_replicate, List.map_eq_replicate_iff.mpr, List.length_range]
  intro j _
  exact hresult _ (evenly_keeps hstep htick hm j)

/-- While a register waits, every call of the plain run reports that. -/
lemma evenResults_of_waiting {before : Machine} {x : Register} (h : Machine.Waiting before x m)
    (count : Nat) :
    evenResults steps ticks m count = (List.replicate count (.waiting x)).map .ok :=
  evenResults_of_kept (fun _ hm => hm.step) (fun _ hm => hm.tickTimers)
    (fun _ hm => by rw [hm.step_eq]) h count

lemma evenResults_succ (steps ticks : Nat) (m : Machine) (count : Nat) :
    evenResults steps ticks m (count + 1) = evenResults steps ticks m count
      ++ [(evenly steps ticks m count).machine.step.result] := by
  rw [evenResults, List.range_succ, List.map_append]
  rfl

/-- The calls of the plain run all succeed, or there is a first one that fails. -/
lemma evenResults_cases (steps ticks : Nat) (m : Machine) (count : Nat) :
    (∃ outcomes : List StepOutcome, evenResults steps ticks m count = outcomes.map .ok) ∨
    ∃ j < count, ∃ (before : List StepOutcome) (fault : Fault),
      evenResults steps ticks m j = before.map .ok ∧
      (evenly steps ticks m j).machine.step.result = .error fault := by
  induction count with
  | zero => exact Or.inl ⟨[], rfl⟩
  | succ count ih =>
    rcases ih with ⟨outcomes, houtcomes⟩ | ⟨j, hj, hfirst⟩
    · cases hresult : (evenly steps ticks m count).machine.step.result with
      | error fault =>
        exact Or.inr ⟨count, Nat.lt_succ_self count, outcomes, fault, houtcomes, hresult⟩
      | ok outcome =>
        refine Or.inl ⟨outcomes ++ [outcome], ?_⟩
        rw [evenResults_succ, houtcomes, hresult, List.map_append]
        rfl
    · exact Or.inr ⟨j, Nat.lt_succ_of_lt hj, hfirst⟩

/-! ## The loop against the plain run -/

lemma Progress.step_of_ok (p : Progress) (hwaiting : p.advance.waiting = none)
    (hok : p.machine.step.result = .ok outcome) :
    p.step = (p.note p.machine.step.machine p.machine.step.log outcome, none) := by
  rw [Progress.step, hwaiting]
  rcases hreply : p.machine.step with ⟨after, result, written⟩
  rw [hreply] at hok
  obtain rfl : result = .ok outcome := hok
  rfl

lemma Progress.step_of_error (p : Progress) (hwaiting : p.advance.waiting = none)
    (herror : p.machine.step.result = .error fault) :
    p.step = (⟨p.machine.step.machine, p.advance, p.log ++ p.machine.step.log⟩, some fault) := by
  rw [Progress.step, hwaiting]
  rcases hreply : p.machine.step with ⟨after, result, written⟩
  rw [hreply] at herror
  obtain rfl : result = .error fault := herror
  rfl

/-- The loop after `j` turns, which the plain run matches with calls that had these outcomes. -/
structure Progress.Even (steps ticks : Nat) (m : Machine) (j : Nat) (outcomes : List StepOutcome)
    (p : Progress) : Prop where
  machine_eq : p.machine = (evenly steps ticks m j).machine
  ticks_eq : p.advance.ticks = ticks * j / steps
  found : ∀ x, p.advance.waiting = some x →
    p.machine.halted = none ∧ p.machine.keypad.awaiting = some x
  steps_eq : p.advance.steps = outcomes.countP StepOutcome.ran
  stalled_eq : p.advance.stalled = outcomes.contains .stalled
  mem_log : ∀ entry, entry ∈ p.log ↔
    ∃ k < j, entry ∈ (evenly steps ticks m k).machine.step.log

namespace Progress.Even

variable {p : Progress}

lemma start (steps ticks : Nat) (m : Machine) :
    Even steps ticks m 0 [] ⟨m, Advance.zero, #[]⟩ := by
  refine ⟨rfl, ?_, nofun, rfl, rfl, ?_⟩
  · show 0 = ticks * 0 / steps
    rw [Nat.mul_zero, Nat.zero_div]
  · simp

/-- The ticks that fall due complete a turn. -/
lemma tickUntil {next : Progress}
    (hmachine : next.machine = (evenly steps ticks m j).machine.step.machine)
    (hticks : next.advance.ticks = ticks * j / steps)
    (hfound : ∀ x, next.advance.waiting = some x →
      next.machine.halted = none ∧ next.machine.keypad.awaiting = some x)
    (hsteps : next.advance.steps = outcomes.countP StepOutcome.ran)
    (hstalled : next.advance.stalled = outcomes.contains .stalled)
    (hlog : ∀ entry, entry ∈ next.log ↔
      ∃ k < j + 1, entry ∈ (evenly steps ticks m k).machine.step.log) :
    Even steps ticks m (j + 1) outcomes (next.tickUntil (ticks * (j + 1) / steps)) := by
  refine ⟨?_, ?_, ?_, hsteps, hstalled, hlog⟩
  · rw [machine_evenly_succ, ← hmachine, ← hticks]
    rfl
  · show max next.advance.ticks _ = _
    rw [hticks]
    exact Nat.max_eq_right (Nat.div_le_div_right (Nat.mul_le_mul_left ticks (Nat.le_succ j)))
  · intro x hx
    have hkept := Machine.tickTimes_keeps
      (P := fun m => m.halted = none ∧ m.keypad.awaiting = some x) (fun _ hm => hm) (hfound x hx)
    exact hkept _

/-- The step lemma.  Where the loop has found a register waiting it takes no step, and the call
of the plain run does nothing. -/
lemma turn (h : Even steps ticks m j outcomes p)
    (hok : (evenly steps ticks m j).machine.step.result = .ok outcome) :
    ∃ next, p.step = (next, none) ∧
      Even steps ticks m (j + 1) (outcomes ++ [outcome])
        (next.tickUntil (ticks * (j + 1) / steps)) := by
  have hlog : ∀ entry, entry ∈ p.log ++ (evenly steps ticks m j).machine.step.log ↔
      ∃ k < j + 1, entry ∈ (evenly steps ticks m k).machine.step.log := by
    intro entry
    rw [Array.mem_append, h.mem_log]
    constructor
    · rintro (⟨k, hk, hmem⟩ | hmem)
      · exact ⟨k, Nat.lt_succ_of_lt hk, hmem⟩
      · exact ⟨j, Nat.lt_succ_self j, hmem⟩
    · rintro ⟨k, hk, hmem⟩
      rcases Nat.lt_succ_iff_lt_or_eq.mp hk with hlt | rfl
      · exact Or.inl ⟨k, hlt, hmem⟩
      · exact Or.inr hmem
  cases hwaiting : p.advance.waiting with
  | some x =>
    obtain ⟨hrun, hkey⟩ := h.found x hwaiting
    have hidle := Machine.step_waiting hrun hkey
    rw [h.machine_eq] at hidle
    rw [hidle] at hok hlog
    obtain rfl := Except.ok.inj hok
    refine ⟨p, by rw [Progress.step, hwaiting], tickUntil ?_ h.ticks_eq h.found ?_ ?_ ?_⟩
    · rw [hidle]
      exact h.machine_eq
    · rw [h.steps_eq]
      simp [StepOutcome.ran]
    · rw [h.stalled_eq]
      simp
    · simpa using hlog
  | none =>
    have hturn := p.step_of_ok hwaiting (h.machine_eq ▸ hok)
    rw [h.machine_eq] at hturn
    refine ⟨_, hturn, tickUntil ?_ ?_ ?_ ?_ ?_ ?_⟩
    · cases outcome <;> rfl
    · rw [ticks_note, h.ticks_eq]
    · intro x hx
      cases outcome with
      | waiting y =>
        obtain ⟨hrun, hkey, hsame⟩ := Machine.step_of_waiting hok
        obtain rfl := Option.some.inj hx
        simp only [note, hsame]
        exact ⟨hrun, hkey⟩
      | executed i | stalled =>
        rw [note, hwaiting] at hx
        cases hx
    · cases outcome <;> simp [note, h.steps_eq, StepOutcome.ran]
    · cases outcome <;> simp [note, h.stalled_eq]
    · cases outcome <;> exact hlog

/-- A call of the plain run that fails is a step of the loop that fails. -/
lemma step_of_error (h : Even steps ticks m j outcomes p)
    (herror : (evenly steps ticks m j).machine.step.result = .error fault) :
    ∃ next, p.step = (next, some fault) ∧
      next.machine = (evenly steps ticks m j).machine.step.machine := by
  rw [← h.machine_eq] at herror ⊢
  cases hwaiting : p.advance.waiting with
  | some x =>
    -- a register that waits keeps steps from failing
    obtain ⟨hrun, hkey⟩ := h.found x hwaiting
    rw [Machine.step_waiting hrun hkey] at herror
    cases herror
  | none => exact ⟨_, p.step_of_error hwaiting herror, rfl⟩

end Progress.Even

/-- One turn of the loop, when what it multiplies fits into a word. -/
lemma pace_turn_of_lt {p next : Progress} {left : Nat} (hstep : p.step = (next, none))
    (hj : j + (left + 1) = steps) (hproduct : ticks * (j + 1) < wordBound) :
    pace steps ticks p (left + 1)
      = pace steps ticks (next.tickUntil (ticks * (j + 1) / steps)) left := by
  have hdone : steps - left = j + 1 := by omega
  rw [pace, hstep]
  simp only [hdone, if_pos hproduct]

lemma pace_turn {p next : Progress} {left : Nat} (hstep : p.step = (next, none))
    (hj : j + (left + 1) = steps) (hfits : steps * ticks < wordBound) :
    pace steps ticks p (left + 1)
      = pace steps ticks (next.tickUntil (ticks * (j + 1) / steps)) left := by
  refine pace_turn_of_lt hstep hj (Nat.lt_of_le_of_lt ?_ hfits)
  rw [Nat.mul_comm steps ticks]
  exact Nat.mul_le_mul_left ticks (by omega)

/-- What a turn of the loop can come to: its step fails, what it multiplies does not fit into a
word, or the loop goes on. -/
lemma pace_succ_cases {p : Progress} {left : Nat} (h : p.Even steps ticks m j outcomes)
    (hj : j + (left + 1) = steps) :
    (∃ fault, (evenly steps ticks m j).machine.step.result = .error fault ∧
      (pace steps ticks p (left + 1)).2 = some (.fault fault)) ∨
    ∃ outcome next, (evenly steps ticks m j).machine.step.result = .ok outcome ∧
      p.step = (next, none) ∧
      ((wordBound ≤ ticks * (j + 1) ∧ (pace steps ticks p (left + 1)).2 = some .overflow) ∨
      (ticks * (j + 1) < wordBound ∧
        (next.tickUntil (ticks * (j + 1) / steps)).Even steps ticks m (j + 1)
          (outcomes ++ [outcome]) ∧
        pace steps ticks p (left + 1)
          = pace steps ticks (next.tickUntil (ticks * (j + 1) / steps)) left)) := by
  cases hresult : (evenly steps ticks m j).machine.step.result with
  | error fault =>
    obtain ⟨last, hstep, -⟩ := h.step_of_error hresult
    exact Or.inl ⟨fault, rfl, by rw [pace, hstep]⟩
  | ok outcome =>
    obtain ⟨next, hstep, hnext⟩ := h.turn hresult
    refine Or.inr ⟨outcome, next, rfl, hstep, ?_⟩
    rcases Nat.lt_or_ge (ticks * (j + 1)) wordBound with hfits | hlarge
    · exact Or.inr ⟨hfits, hnext, pace_turn_of_lt hstep hj hfits⟩
    · have hdone : steps - left = j + 1 := by omega
      refine Or.inl ⟨hlarge, ?_⟩
      rw [pace, hstep]
      simp only [hdone, if_neg (Nat.not_lt.mpr hlarge)]

/-- The run lemma, for a plain run none of whose calls fails. -/
lemma pace_of_ok {p : Progress} {left : Nat} {rest : List StepOutcome}
    (h : p.Even steps ticks m j outcomes) (hj : j + left = steps)
    (hfits : steps * ticks < wordBound)
    (hrest : (List.range' j left).map (fun k => (evenly steps ticks m k).machine.step.result)
      = rest.map .ok) :
    ∃ last, pace steps ticks p left = (last, none) ∧
      last.Even steps ticks m steps (outcomes ++ rest) := by
  induction left generalizing j p outcomes rest with
  | zero =>
    obtain rfl : rest = [] := List.map_eq_nil_iff.mp hrest.symm
    obtain rfl : j = steps := hj
    exact ⟨p, rfl, by simpa using h⟩
  | succ left ih =>
    rw [List.range'_succ, List.map_cons] at hrest
    obtain ⟨outcome, rest, rfl, hok, hrest⟩ := List.map_eq_cons_iff.mp hrest.symm
    obtain ⟨next, hstep, hnext⟩ := h.turn hok.symm
    obtain ⟨last, hlast, heven⟩ := ih hnext (by omega) hrest.symm
    refine ⟨last, ?_, by simpa using heven⟩
    rw [pace_turn hstep hj hfits]
    exact hlast

/-- The run lemma, for a plain run with a call that fails: that of the `count + 1`-th from here. -/
lemma pace_of_error {p : Progress} {left count : Nat} {rest : List StepOutcome}
    (h : p.Even steps ticks m j outcomes) (hj : j + left = steps) (hcount : count < left)
    (hfits : steps * ticks < wordBound)
    (hrest : (List.range' j count).map (fun k => (evenly steps ticks m k).machine.step.result)
      = rest.map .ok)
    (herror : (evenly steps ticks m (j + count)).machine.step.result = .error fault) :
    ∃ last, pace steps ticks p left = (last, some (.fault fault)) ∧
      last.machine = (evenly steps ticks m (j + count)).machine.step.machine := by
  induction count generalizing j p outcomes rest left with
  | zero =>
    obtain ⟨last, hstep, hlast⟩ := h.step_of_error herror
    obtain ⟨left, rfl⟩ := Nat.exists_eq_add_one_of_ne_zero (Nat.ne_of_gt hcount)
    refine ⟨last, ?_, hlast⟩
    rw [pace, hstep]
  | succ count ih =>
    rw [List.range'_succ, List.map_cons] at hrest
    obtain ⟨outcome, rest, rfl, hok, hrest⟩ := List.map_eq_cons_iff.mp hrest.symm
    obtain ⟨left, rfl⟩ := Nat.exists_eq_add_one_of_ne_zero (Nat.ne_zero_of_lt hcount)
    obtain ⟨next, hstep, hnext⟩ := h.turn hok.symm
    rw [pace_turn hstep hj hfits]
    rw [← Nat.add_assoc, Nat.add_right_comm] at herror ⊢
    exact ih hnext (by omega) (by omega) hrest.symm herror

/-! ## Letting time pass -/

section Advance

variable {s : Scheduler} {elapsed : Duration}

lemma evenResults_eq_range' (steps ticks : Nat) (m : Machine) (count : Nat) :
    evenResults steps ticks m count = (List.range' 0 count).map fun k =>
      (evenly steps ticks m k).machine.step.result := by
  rw [evenResults, List.range_eq_range']

/-- Letting time pass, when no call of the plain run fails. -/
lemma advance_of_ok (hsteps : (s.owe elapsed).1 = steps) (hticks : (s.owe elapsed).2.1 = ticks)
    (hfits : steps * ticks < wordBound)
    (hresults : evenResults steps ticks m steps = outcomes.map .ok) :
    (∃ waiting, (s.advance m elapsed).result
      = .ok ⟨outcomes.countP StepOutcome.ran, ticks, outcomes.contains .stalled, waiting⟩) ∧
    (s.advance m elapsed).machine = evenRun steps ticks m ∧
    ∀ op i registers, .executing op i registers ∈ (s.advance m elapsed).log ↔
      ∃ k < steps, .executing op i registers ∈ (evenly steps ticks m k).machine.step.log := by
  rw [evenResults_eq_range'] at hresults
  obtain ⟨last, hpace, heven⟩ :=
    pace_of_ok (Progress.Even.start steps ticks m) (Nat.zero_add steps) hfits hresults
  rw [List.nil_append] at heven
  simp only [advance, hsteps, hticks, hpace]
  -- with a step or more to spread them over, all ticks have been applied by the last one
  have hticked : last.advance.ticks = if steps = 0 then 0 else ticks := by
    rw [heven.ticks_eq]
    split
    · rename_i hnone
      rw [hnone, Nat.div_zero]
    · rename_i hsome
      exact Nat.mul_div_cancel ticks (Nat.pos_of_ne_zero hsome)
  refine ⟨⟨last.advance.waiting, ?_⟩, ?_, ?_⟩
  · have hall : max last.advance.ticks ticks = ticks := by
      rw [hticked]
      split <;> simp
    simp only [Progress.tickUntil, heven.steps_eq, heven.stalled_eq, hall]
  · show last.machine.tickTimes (ticks - last.advance.ticks) = _
    rw [hticked, heven.machine_eq, evenRun]
    split
    · rename_i hnone
      rw [hnone]
      rfl
    · rw [Nat.sub_self]
      rfl
  · intro op i registers
    rw [Array.mem_push, ← heven.mem_log]
    simp [Progress.tickUntil]

/-- Letting time pass, when a call of the plain run fails: the first that does is the
`count + 1`-th. -/
lemma advance_of_error {count : Nat} (hsteps : (s.owe elapsed).1 = steps)
    (hticks : (s.owe elapsed).2.1 = ticks) (hfits : steps * ticks < wordBound)
    (hcount : count < steps) (hresults : evenResults steps ticks m count = outcomes.map .ok)
    (herror : (evenly steps ticks m count).machine.step.result = .error fault) :
    (s.advance m elapsed).result = .error (.fault fault) ∧
    (s.advance m elapsed).machine = (evenly steps ticks m count).machine.step.machine := by
  rw [evenResults_eq_range'] at hresults
  rw [← Nat.zero_add count] at herror
  obtain ⟨last, hpace, hlast⟩ :=
    pace_of_error (Progress.Even.start steps ticks m) (Nat.zero_add steps) hcount hfits hresults
      herror
  simp only [advance, hsteps, hticks, hpace, hlast, Nat.zero_add, and_self]

end Advance

/-- What is owed is what the credits and the time make, unless that is more than can be
counted. -/
lemma owe_eq {s : Scheduler} {elapsed : Duration}
    (hsteps : (s.stepCredit + elapsed.nanos * s.rate.toNat) / nanosPerSecond < wordBound)
    (hticks : (s.tickCredit + elapsed.nanos * ticksPerSecond) / nanosPerSecond < wordBound) :
    s.owe elapsed = ((s.stepCredit + elapsed.nanos * s.rate.toNat) / nanosPerSecond,
      (s.tickCredit + elapsed.nanos * ticksPerSecond) / nanosPerSecond,
      ⟨s.rate, (s.stepCredit + elapsed.nanos * s.rate.toNat) % nanosPerSecond,
        (s.tickCredit + elapsed.nanos * ticksPerSecond) % nanosPerSecond⟩) := by
  simp only [owe, drain, Nat.min_eq_left (Nat.le_sub_one_of_lt hsteps),
    Nat.min_eq_left (Nat.le_sub_one_of_lt hticks)]

/-- Letting time pass does what the plain run does: it comes to the same machine and reports what
the calls of the plain run returned, or it fails where the first of them fails, with the machine
as that call leaves it.  In either case what was owed is no longer carried. -/
theorem advance_eq_evenRun (s : Scheduler) (m : Machine) (elapsed : Duration) (steps ticks : Nat)
    (hsteps : steps = (s.stepCredit + elapsed.nanos * s.rate.toNat) / nanosPerSecond)
    (hticks : ticks = (s.tickCredit + elapsed.nanos * ticksPerSecond) / nanosPerSecond)
    (hstepsFit : steps < wordBound) (hticksFit : ticks < wordBound)
    (hfits : steps * ticks < wordBound) :
    (∀ outcomes : List StepOutcome, evenResults steps ticks m steps = outcomes.map .ok →
      (s.advance m elapsed).machine = evenRun steps ticks m ∧
      ∃ advance, (s.advance m elapsed).result = .ok advance ∧
        advance.ticks = ticks ∧
        advance.steps = outcomes.countP StepOutcome.ran ∧
        advance.stalled = outcomes.contains .stalled) ∧
    (∀ (j : Nat) (before : List StepOutcome) (fault : Fault), 1 ≤ j → j ≤ steps →
      evenResults steps ticks m (j - 1) = before.map .ok →
      (evenly steps ticks m (j - 1)).machine.step.result = .error fault →
      (s.advance m elapsed).result = .error (.fault fault) ∧
      (s.advance m elapsed).machine = (evenly steps ticks m (j - 1)).machine.step.machine ∧
      (evenly steps ticks m (j - 1)).ticked = ticks * (j - 1) / steps) ∧
    (s.advance m elapsed).scheduler
      = ⟨s.rate, (s.stepCredit + elapsed.nanos * s.rate.toNat) % nanosPerSecond,
          (s.tickCredit + elapsed.nanos * ticksPerSecond) % nanosPerSecond⟩ := by
  have howe := owe_eq (hsteps ▸ hstepsFit) (hticks ▸ hticksFit)
  have howedSteps : (s.owe elapsed).1 = steps := by rw [howe, hsteps]
  have howedTicks : (s.owe elapsed).2.1 = ticks := by rw [howe, hticks]
  refine ⟨?_, ?_, ?_⟩
  · intro outcomes hresults
    obtain ⟨⟨waiting, hresult⟩, hmachine, -⟩ :=
      advance_of_ok howedSteps howedTicks hfits hresults
    exact ⟨hmachine, _, hresult, rfl, rfl, rfl⟩
  · intro j before fault hfirst hlast hbefore herror
    obtain ⟨hresult, hmachine⟩ :=
      advance_of_error howedSteps howedTicks hfits (by omega) hbefore herror
    exact ⟨hresult, hmachine, ticked_evenly steps ticks m (j - 1)⟩
  · rw [scheduler_advance, howe]

/-- At a hundred steps a second, 55 milliseconds owe five steps and three ticks.  A machine that
waits for a key takes none of these steps and gets all of the ticks; one that fails at its first
step gets none. -/
theorem advance_eq_evenRun_waiting_or_lawless :
    (∃ advance, ((ofRate 100).advance Machine.keyWaiter.step.machine ⟨55000000, by decide⟩).result
        = .ok advance ∧ advance.ticks = 3 ∧ advance.steps = 0 ∧ advance.stalled = false) ∧
    ((ofRate 100).advance Machine.lawless ⟨55000000, by decide⟩).result
      = .error (.fault (.unknownOpcode 0xFFFF 0x200)) ∧
    ((ofRate 100).advance Machine.lawless ⟨55000000, by decide⟩).scheduler
      = ⟨100, 500000000, 300000000⟩ := by
  have hwaits : evenResults 5 3 Machine.keyWaiter.step.machine 5
      = (List.replicate 5 (.waiting Register.v0)).map .ok := by
    obtain ⟨memory, heq, hread⟩ := Machine.keyWaiter_eq
    rw [heq]
    exact evenResults_of_waiting
      (Machine.waiting_step rfl rfl (Machine.fetch_of_read16 hread rfl)) 5
  obtain ⟨hok, -⟩ := advance_eq_evenRun (ofRate 100) Machine.keyWaiter.step.machine
    ⟨55000000, by decide⟩ 5 3 (by decide) (by decide) (by decide) (by decide) (by decide)
  obtain ⟨-, herror, hscheduler⟩ := advance_eq_evenRun (ofRate 100) Machine.lawless
    ⟨55000000, by decide⟩ 5 3 (by decide) (by decide) (by decide) (by decide) (by decide)
  obtain ⟨-, hadvance⟩ := hok _ hwaits
  exact ⟨hadvance, (herror 1 [] _ (by decide) (by decide) rfl Machine.lawless_step).1, hscheduler⟩

end Scheduler

end ChipVm
