/-
# What an advance reports of a key wait

Letting time pass reports a register as waiting when one of the steps that it takes finds it so.
The wait itself begins with the step before that, and it goes on when no step is taken at all.  So
the report is about the machine as the last of the steps owed finds it, and not as it leaves it.
What is reported is true, but nothing is reported when the key wait is the very last instruction
that runs, nor when no step is owed to a machine that waits already.  These are the only cases
(`Scheduler.status_of_advance`), and both of them come up.

The invariant of the loop is `Progress.Reports`: what it reports is what its last turn found.  A
turn makes it so whatever was reported before (`Progress.Even.reports_turn`), and so it holds when
the loop has come to its end (`Scheduler.pace_to_end`).
-/
import Mathlib.Tactic.Lemma
import ChipVm.Proofs.Machine.Stall

namespace ChipVm

open Machine (StepOutcome)

/-! ## The status after a step -/

namespace Machine

variable {m : Machine} {x : Register} {outcome : StepOutcome}

lemma status_eq_waiting_iff :
    m.status = .waiting x ↔ m.halted = none ∧ m.keypad.awaiting = some x := by
  unfold status
  cases m.halted with
  | some fault => simp
  | none => cases m.keypad.awaiting <;> simp

lemma step_eq_waiting_iff : m.step.result = .ok (.waiting x) ↔ m.status = .waiting x := by
  rw [status_eq_waiting_iff]
  constructor
  · intro h
    obtain ⟨hrun, hkey, -⟩ := step_of_waiting h
    exact ⟨hrun, hkey⟩
  · rintro ⟨hrun, hkey⟩
    rw [step_waiting hrun hkey]

lemma status_tickTimes (m : Machine) (times : Nat) : (m.tickTimes times).status = m.status :=
  tickTimes_keeps (P := fun later => later.status = m.status) (fun _ h => h) rfl times

/-- What the machine was about when a step has run an instruction. -/
lemma execute_of_executed {i : Instruction} (h : m.step.result = .ok (.executed i)) :
    m.halted = none ∧ m.keypad.awaiting = none ∧
      ∃ op, m.fetch = .ok (op, i) ∧ m.execute i = .ok () m.step.machine := by
  obtain ⟨hrun, ⟨x, -, hx, -⟩ | ⟨hkey, op, j, hfetch, hexecute, hj⟩⟩ := step_ok_cases h
  · cases hx
  · rw [outcomeAt] at hj
    split at hj
    · cases hj
    · obtain rfl := StepOutcome.executed.inj hj
      exact ⟨hrun, hkey, op, hfetch, hexecute⟩

/-- After a step a register waits if it did so before, or if the step was its key wait. -/
lemma status_step (h : m.step.result = .ok outcome) :
    m.step.machine.status = .waiting x ↔
      outcome = .waiting x ∨ outcome = .executed (.awaitKey x) := by
  cases outcome with
  | waiting y =>
    obtain ⟨hrun, hkey, hsame⟩ := step_of_waiting h
    simp [hsame, status_eq_waiting_iff, hrun, hkey]
  | stalled =>
    have hstalled := stalled_of_step h
    simp [hstalled.step_eq.1, status_eq_waiting_iff, hstalled.awaiting]
  | executed i =>
    obtain ⟨hrun, hkey, op, hfetch, hexecute⟩ := execute_of_executed h
    by_cases hi : ∃ y, i = .awaitKey y
    · obtain ⟨y, rfl⟩ := hi
      simp [(waiting_step hrun hkey hfetch).status_eq]
    · have hsame := keypad_execute hexecute fun y hy => hi ⟨y, hy⟩
      have hother : i ≠ .awaitKey x := fun hx => hi ⟨x, hx⟩
      simp [status_eq_waiting_iff, hsame, hkey, hother]

end Machine

namespace Scheduler

variable {s : Scheduler} {m : Machine} {elapsed : Duration} {steps ticks j : Nat} {x : Register}
  {outcome : StepOutcome} {outcomes : List StepOutcome}

/-! ## The report of the loop -/

/-- After `j` turns the loop reports the register that the last of them found waiting. -/
def Progress.Reports (steps ticks : Nat) (m : Machine) (j : Nat) (p : Progress) : Prop :=
  ∀ x, p.advance.waiting = some x ↔
    ∃ k, j = k + 1 ∧ (evenly steps ticks m k).machine.status = .waiting x

/-- A turn reports the register that the call of the plain run finds waiting. -/
lemma Progress.Even.waiting_turn {p next : Progress} (h : p.Even steps ticks m j outcomes)
    (hok : (evenly steps ticks m j).machine.step.result = .ok outcome)
    (hstep : p.step = (next, none)) : next.advance.waiting = some x ↔ outcome = .waiting x := by
  rw [← h.machine_eq] at hok
  cases hwaiting : p.advance.waiting with
  | some y =>
    obtain ⟨hrun, hkey⟩ := h.found y hwaiting
    rw [Machine.step_waiting hrun hkey] at hok
    rw [Progress.step, hwaiting] at hstep
    obtain rfl := Except.ok.inj hok
    obtain rfl := congrArg Prod.fst hstep
    simp [hwaiting]
  | none =>
    rw [p.step_of_ok hwaiting hok] at hstep
    obtain rfl := congrArg Prod.fst hstep
    cases outcome <;> simp [Progress.note, hwaiting]

/-- The step lemma: whatever was reported before, after a turn it is what this turn found. -/
lemma Progress.Even.reports_turn {p next : Progress} (h : p.Even steps ticks m j outcomes)
    (hok : (evenly steps ticks m j).machine.step.result = .ok outcome)
    (hstep : p.step = (next, none)) (due : Nat) :
    (next.tickUntil due).Reports steps ticks m (j + 1) := by
  intro x
  have hcall : outcome = .waiting x ↔ (evenly steps ticks m j).machine.status = .waiting x := by
    rw [← Machine.step_eq_waiting_iff, hok]
    simp
  show next.advance.waiting = some x ↔ _
  rw [h.waiting_turn hok hstep, hcall]
  constructor
  · intro hstatus
    exact ⟨j, rfl, hstatus⟩
  · rintro ⟨k, hk, hstatus⟩
    obtain rfl := Nat.succ.inj hk
    exact hstatus

/-- The run lemma: a loop that comes to its end has gone through the whole plain run, and reports
what the last turn found. -/
lemma pace_to_end {p last : Progress} {left : Nat} (h : p.Even steps ticks m j outcomes)
    (hreports : p.Reports steps ticks m j) (hj : j + left = steps)
    (hbefore : ∀ k < j, ∃ outcome, (evenly steps ticks m k).machine.step.result = .ok outcome)
    (hpace : pace steps ticks p left = (last, none)) :
    last.machine = (evenly steps ticks m steps).machine ∧ last.Reports steps ticks m steps ∧
      ∀ k < steps, ∃ outcome, (evenly steps ticks m k).machine.step.result = .ok outcome := by
  induction left generalizing j p outcomes with
  | zero =>
    obtain rfl : p = last := congrArg Prod.fst hpace
    obtain rfl : j = steps := hj
    exact ⟨h.machine_eq, hreports, hbefore⟩
  | succ left ih =>
    rcases pace_succ_cases h hj with
      ⟨fault, -, hfault⟩ | ⟨outcome, next, hresult, hstep, ⟨-, hoverflow⟩ | ⟨-, hnext, hgoes⟩⟩
    · rw [hpace] at hfault
      cases hfault
    · rw [hpace] at hoverflow
      cases hoverflow
    · rw [hgoes] at hpace
      exact ih hnext (h.reports_turn hresult hstep _) (by omega)
        (Nat.forall_lt_succ_right.mpr ⟨hbefore, outcome, hresult⟩) hpace

/-! ## The report of an advance -/

/-- An advance that comes to its end has gone through the plain run, and reports what the last call
found.  The ticks that come after that call do not change what the machine is about. -/
lemma advance_to_end {advance : Advance} (hsteps : (s.owe elapsed).1 = steps)
    (hticks : (s.owe elapsed).2.1 = ticks) (hok : (s.advance m elapsed).result = .ok advance) :
    (s.advance m elapsed).machine.status = (evenly steps ticks m steps).machine.status ∧
    (∀ x, advance.waiting = some x ↔
      ∃ k, steps = k + 1 ∧ (evenly steps ticks m k).machine.status = .waiting x) ∧
    ∀ k < steps, ∃ outcome, (evenly steps ticks m k).machine.step.result = .ok outcome := by
  have hstart : (⟨m, Advance.zero, #[]⟩ : Progress).Reports steps ticks m 0 := by
    intro x
    simp [Advance.zero]
  rcases hpace : pace steps ticks ⟨m, Advance.zero, #[]⟩ steps with ⟨last, _ | problem⟩
  · obtain ⟨hmachine, hreports, hcalls⟩ := pace_to_end (Progress.Even.start steps ticks m) hstart
      (Nat.zero_add steps) (fun k hk => absurd hk (Nat.not_lt_zero k)) hpace
    simp only [Scheduler.advance, hsteps, hticks, hpace] at hok ⊢
    obtain rfl := Except.ok.inj hok
    refine ⟨?_, hreports, hcalls⟩
    rw [← hmachine]
    exact last.machine.status_tickTimes _
  · simp only [Scheduler.advance, hsteps, hticks, hpace] at hok
    cases hok

/-- The machine waits after an advance if the advance says so, and otherwise in two cases only: no
step was owed and it waited already, or the last step owed ran the key wait. -/
lemma status_of_advance {advance : Advance} (hsteps : (s.owe elapsed).1 = steps)
    (hticks : (s.owe elapsed).2.1 = ticks) (hok : (s.advance m elapsed).result = .ok advance) :
    (s.advance m elapsed).machine.status = .waiting x ↔
      advance.waiting = some x ∨
      (steps = 0 ∧ m.status = .waiting x) ∨
      ∃ k, steps = k + 1 ∧ (evenly steps ticks m k).machine.step.result
        = .ok (.executed (.awaitKey x)) := by
  obtain ⟨hstatus, hreports, hcalls⟩ := advance_to_end hsteps hticks hok
  rw [hstatus, hreports]
  clear hsteps hstatus hreports
  cases steps with
  | zero => simp [evenly]
  | succ k =>
    obtain ⟨outcome, houtcome⟩ := hcalls k (Nat.lt_succ_self k)
    rw [machine_evenly_succ, Machine.status_tickTimes, Machine.status_step houtcome]
    simp [← Machine.step_eq_waiting_iff, houtcome]

/-- What an advance reports of a key wait is true, and it is what the last step owed found.  A wait
goes unreported when no step was owed to a machine that waited already, or when the last step owed
ran the key wait, and in no other case. -/
theorem report_is_of_last_step (s : Scheduler) (m : Machine) (elapsed : Duration)
    (steps ticks : Nat) (hsteps : (s.owe elapsed).1 = steps) (hticks : (s.owe elapsed).2.1 = ticks)
    (advance : Advance) (hok : (s.advance m elapsed).result = .ok advance) (x : Register) :
    (advance.waiting = some x → (s.advance m elapsed).machine.status = .waiting x) ∧
    (advance.waiting = some x ↔
      ∃ k, steps = k + 1 ∧ (evenly steps ticks m k).machine.status = .waiting x) ∧
    ((s.advance m elapsed).machine.status = .waiting x ↔
      advance.waiting = some x ∨
      (steps = 0 ∧ m.status = .waiting x) ∨
      ∃ k, steps = k + 1 ∧ (evenly steps ticks m k).machine.step.result
        = .ok (.executed (.awaitKey x))) := by
  have hstatus := status_of_advance (x := x) hsteps hticks hok
  exact ⟨fun h => hstatus.mpr (Or.inl h), (advance_to_end hsteps hticks hok).2.1 x, hstatus⟩

/-! ## A program that runs into a key wait -/

open Machine (keyWaiter parts_keyWaiter step_keyWaiter)

lemma status_step_keyWaiter : keyWaiter.step.machine.status = .waiting Register.v0 :=
  (Machine.status_step step_keyWaiter).mpr (Or.inr rfl)

/-- The time in which a hundred steps a second owe one step and no tick. -/
def oneStep : Duration := ⟨10000000, by decide⟩

/-- A time in which a hundred steps a second owe two steps and a tick. -/
def twoSteps : Duration := ⟨25000000, by decide⟩

/-- Of two steps the first runs into the key wait, and the second finds it. -/
theorem report_is_of_last_step_keyWaiter :
    ∃ advance, ((ofRate 100).advance keyWaiter twoSteps).result = .ok advance ∧
      advance.waiting = some Register.v0 ∧
      ((ofRate 100).advance keyWaiter twoSteps).machine.status = .waiting Register.v0 := by
  have hsecond : (evenly 2 1 keyWaiter 1).machine.status = .waiting Register.v0 := by
    rw [machine_evenly_succ, Machine.status_tickTimes]
    exact status_step_keyWaiter
  have hresults : evenResults 2 1 keyWaiter 2
      = [.executed (.awaitKey Register.v0), .waiting Register.v0].map .ok := by
    rw [evenResults_succ, evenResults_succ, Machine.step_eq_waiting_iff.mpr hsecond, evenly,
      step_keyWaiter]
    rfl
  have hsteps : ((ofRate 100).owe twoSteps).1 = 2 := by decide
  have hticks : ((ofRate 100).owe twoSteps).2.1 = 1 := by decide
  obtain ⟨⟨waiting, hok⟩, -⟩ := advance_of_ok hsteps hticks (by decide) hresults
  obtain ⟨htrue, hlast, -⟩ :=
    report_is_of_last_step _ _ _ 2 1 hsteps hticks _ hok Register.v0
  have hfound : waiting = some Register.v0 := hlast.mpr ⟨1, rfl, hsecond⟩
  exact ⟨_, hok, hfound, htrue hfound⟩

/-- A single step runs into the key wait, and nothing is reported of it; nor is it when no time
passes afterwards. -/
theorem waits_go_unreported :
    keyWaiter.Reachable ∧
    ((ofRate 100).advance keyWaiter oneStep).result = .ok ⟨1, 0, false, none⟩ ∧
    ((ofRate 100).advance keyWaiter oneStep).machine.status = .waiting Register.v0 ∧
    ((ofRate 100).advance keyWaiter.step.machine ⟨0, by decide⟩).result
      = .ok ⟨0, 0, false, none⟩ ∧
    ((ofRate 100).advance keyWaiter.step.machine ⟨0, by decide⟩).machine.status
      = .waiting Register.v0 := by
  have hsteps : ((ofRate 100).owe oneStep).1 = 1 := by decide
  have hticks : ((ofRate 100).owe oneStep).2.1 = 0 := by decide
  have hresults : evenResults 1 0 keyWaiter 1 = [.executed (.awaitKey Register.v0)].map .ok :=
    congrArg (fun result => [result]) step_keyWaiter
  obtain ⟨⟨waiting, hok⟩, -⟩ := advance_of_ok hsteps hticks (by decide) hresults
  have hsilent : waiting = none := by
    cases waiting with
    | none => rfl
    | some x =>
      obtain ⟨k, hk, hstatus⟩ := ((advance_to_end hsteps hticks hok).2.1 x).mp rfl
      obtain rfl : 0 = k := Nat.succ.inj hk
      have hwaits := (Machine.status_eq_waiting_iff.mp hstatus).2
      rw [evenly, parts_keyWaiter.2.1] at hwaits
      cases hwaits
  subst hsilent
  have hstatus := (status_of_advance hsteps hticks hok).mpr
    (Or.inr (Or.inr ⟨0, rfl, step_keyWaiter⟩))
  have howed : (ofRate 100).owe ⟨0, by decide⟩ = (0, 0, ofRate 100) := by decide
  have hidle : ((ofRate 100).advance keyWaiter.step.machine ⟨0, by decide⟩).result
      = .ok ⟨0, 0, false, none⟩ := by
    simp only [Scheduler.advance, howed]
    rfl
  have hstill := (status_of_advance (congrArg Prod.fst howed) (congrArg (·.2.1) howed) hidle).mpr
    (Or.inr (Or.inl ⟨rfl, status_step_keyWaiter⟩))
  exact ⟨(Machine.Reachable.start Config.standard 0).load [0xF0, 0x0A], hok, hstatus, hidle, hstill⟩

end Scheduler

end ChipVm
