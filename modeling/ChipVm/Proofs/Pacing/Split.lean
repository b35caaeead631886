/-
# How time is split does not show

Time is let pass in calls, and how it is split into calls decides how steps and ticks alternate.
As long as no step fails and no instruction runs that reads or sets a timer, that does not show
in the end.

* One call that owes `S` steps and `T` ticks takes `S` plain steps and puts `T` ticks on top
  (`Scheduler.advance_of_steady`): the plain run of the call does so, since its ticks commute
  with its steps.
* Calls one after the other make one plain course, with all ticks on top
  (`Console.run_of_steady`).
* How many steps and ticks the calls owe in all is decided by the whole time
  (`Scheduler.telescope`).

That no step of one list of calls fails or uses a timer is read off what these calls return and
write into the journal, and it carries over to the other list.
-/
import Mathlib.Tactic.Lemma
import ChipVm.Console
import ChipVm.Proofs.Machine.Steady
import ChipVm.Proofs.Pacing.Even

namespace ChipVm

open Machine (StepOutcome)

namespace Scheduler

variable {s : Scheduler} {m : Machine} {elapsed : Duration} {steps ticks : Nat}
  {outcomes : List StepOutcome}

/-! ## Schedulers in use -/

/-- The schedulers that come up: fresh ones, and those that a reset or a call leaves. -/
inductive Reachable : Scheduler → Prop where
  | start (rate : UInt32) : Reachable (ofRate rate)
  | reset {s : Scheduler} (h : Reachable s) : Reachable s.reset
  | advance {s : Scheduler} (h : Reachable s) (m : Machine) (elapsed : Duration) :
      Reachable (s.advance m elapsed).scheduler

/-- A scheduler in use carries less than one step and less than one tick. -/
lemma Reachable.credits_lt (h : s.Reachable) :
    s.stepCredit < nanosPerSecond ∧ s.tickCredit < nanosPerSecond := by
  have hunit : 0 < nanosPerSecond := by decide
  cases h with
  | start rate => exact ⟨hunit, hunit⟩
  | reset h => exact ⟨hunit, hunit⟩
  | advance h m elapsed =>
    rw [scheduler_advance]
    exact ⟨drain_lt _ _ _, drain_lt _ _ _⟩

lemma rate_after (s : Scheduler) (given : List (Machine × Duration)) :
    (s.after given).rate = s.rate := by
  induction given generalizing s with
  | nil => rfl
  | cons first rest ih =>
    obtain ⟨machine, elapsed⟩ := first
    rw [after, ih, scheduler_advance]
    rfl

/-! ## One call -/

/-- The plain run of a call, over machines that stay steady: its steps, with its ticks on top. -/
lemma machine_evenly_of_steady {j : Nat} (h : m.SteadyFor j) :
    (evenly steps ticks m j).machine = (m.stepTimes j).tickTimes (ticks * j / steps) := by
  induction j with
  | zero =>
    rw [Nat.mul_zero, Nat.zero_div]
    rfl
  | succ j ih =>
    obtain ⟨hbefore, hlast⟩ := Machine.steadyFor_succ.mp h
    have hmono : ticks * j / steps ≤ ticks * (j + 1) / steps :=
      Nat.div_le_div_right (Nat.mul_le_mul_left ticks (Nat.le_succ j))
    rw [machine_evenly_succ, ih hbefore, hlast.step_tickTimes]
    show ((m.stepTimes j).step.machine.tickTimes _).tickTimes _ = _
    rw [← Machine.tickTimes_add, Nat.add_sub_cancel' hmono]
    rfl

lemma evenResults_of_steady {count : Nat} (h : m.SteadyFor count) :
    evenResults steps ticks m count = m.stepResults count := by
  refine List.map_congr_left fun k hk => ?_
  have hlt : k < count := List.mem_range.mp hk
  rw [machine_evenly_of_steady (h.mono (Nat.le_of_lt hlt)), (h k hlt).step_tickTimes]
  rfl

lemma steadyFor_of_evenly (steps ticks : Nat) {count : Nat}
    (h : ∀ k < count, (evenly steps ticks m k).machine.Steady) : m.SteadyFor count := by
  induction count with
  | zero => exact m.steadyFor_zero
  | succ count ih =>
    have hbefore := ih fun k hk => h k (Nat.lt_succ_of_lt hk)
    have hlast := h count (Nat.lt_succ_self count)
    rw [machine_evenly_of_steady hbefore, Machine.steady_tickTimes] at hlast
    exact Machine.steadyFor_succ.mpr ⟨hbefore, hlast⟩

/-- A call over machines that stay steady. -/
lemma advance_of_steady (hfits : (s.owe elapsed).1 * (s.owe elapsed).2.1 < wordBound)
    (hsteady : m.SteadyFor (s.owe elapsed).1)
    (houtcomes : m.stepResults (s.owe elapsed).1 = outcomes.map .ok) :
    (∃ waiting, (s.advance m elapsed).result = .ok ⟨outcomes.countP StepOutcome.ran,
      (s.owe elapsed).2.1, outcomes.contains .stalled, waiting⟩) ∧
    (s.advance m elapsed).machine
      = (m.stepTimes (s.owe elapsed).1).tickTimes (s.owe elapsed).2.1 ∧
    ∀ op i registers, .executing op i registers ∈ (s.advance m elapsed).log →
      i.usesTimers = false := by
  rw [← evenResults_of_steady hsteady] at houtcomes
  obtain ⟨hresult, hmachine, hlog⟩ := advance_of_ok rfl rfl hfits houtcomes
  refine ⟨hresult, ?_, ?_⟩
  · rw [hmachine, evenRun]
    split
    · rename_i hnone
      rw [hnone]
      rfl
    · rename_i hsome
      rw [machine_evenly_of_steady hsteady, Nat.mul_div_cancel _ (Nat.pos_of_ne_zero hsome)]
  · intro op i registers hmem
    obtain ⟨k, hk, hmem⟩ := (hlog op i registers).mp hmem
    have hupcoming := Machine.mem_log_step.mp ⟨op, registers, hmem⟩
    rw [machine_evenly_of_steady (hsteady.mono (Nat.le_of_lt hk)),
      Machine.upcoming_tickTimes] at hupcoming
    exact (hsteady k hk).untimed i hupcoming

/-- A call that reports no fault, and whose journal names no instruction that uses a timer, went
over steady machines. -/
lemma steadyFor_of_advance (hfits : (s.owe elapsed).1 * (s.owe elapsed).2.1 < wordBound)
    (hfault : ∀ fault, (s.advance m elapsed).result ≠ .error (.fault fault))
    (htimers : ∀ op i registers, .executing op i registers ∈ (s.advance m elapsed).log →
      i.usesTimers = false) : m.SteadyFor (s.owe elapsed).1 := by
  rcases evenResults_cases (s.owe elapsed).1 (s.owe elapsed).2.1 m (s.owe elapsed).1 with
    ⟨outcomes, houtcomes⟩ | ⟨j, hj, before, fault, hbefore, herror⟩
  · obtain ⟨-, -, hlog⟩ := advance_of_ok rfl rfl hfits houtcomes
    refine steadyFor_of_evenly (s.owe elapsed).1 (s.owe elapsed).2.1 fun k hk => ⟨?_, ?_⟩
    · have hmem : (evenly (s.owe elapsed).1 (s.owe elapsed).2.1 m k).machine.step.result
          ∈ outcomes.map .ok := by
        rw [← houtcomes]
        exact List.mem_map_of_mem (List.mem_range.mpr hk)
      obtain ⟨outcome, -, houtcome⟩ := List.mem_map.mp hmem
      exact ⟨outcome, houtcome.symm⟩
    · intro i hupcoming
      obtain ⟨op, registers, hmem⟩ := Machine.mem_log_step.mpr hupcoming
      exact htimers op i registers ((hlog op i registers).mpr ⟨k, hk, hmem⟩)
  · exact absurd (advance_of_error rfl rfl hfits hj hbefore herror).1 (hfault fault)

/-- Neither what the call owes nor what it multiplies is more than a 64-bit word can count. -/
structure Call.Fits (call : Call) : Prop where
  countable : call.Countable
  product : call.steps * call.ticks < wordBound

end Scheduler

/-! ## Many calls -/

namespace Console

/-- The machines that are met when time passes stretch after stretch. -/
def stretches (c : Console) : List Duration → List (Machine × Duration)
  | [] => []
  | elapsed :: rest =>
    (c.machine, elapsed) :: (c.perform (.advance elapsed)).console.stretches rest

/-- The calls that are made when time passes stretch after stretch. -/
def calls (c : Console) (given : List Duration) : List Scheduler.Call :=
  c.scheduler.calls (c.stretches given)

/-- The steps that these calls owe in all. -/
def owedSteps (c : Console) (given : List Duration) : Nat :=
  ((c.calls given).map Scheduler.Call.steps).sum

/-- The ticks that these calls owe in all. -/
def owedTicks (c : Console) (given : List Duration) : Nat :=
  ((c.calls given).map Scheduler.Call.ticks).sum

variable {c : Console} {given rest : List Duration} {elapsed : Duration}
  {outcomes : List StepOutcome}

lemma calls_cons (c : Console) (elapsed : Duration) (rest : List Duration) :
    c.calls (elapsed :: rest)
      = ⟨c.scheduler, c.machine, elapsed⟩ :: (c.perform (.advance elapsed)).console.calls rest :=
  rfl

lemma owed_nil (c : Console) : c.owedSteps [] = 0 ∧ c.owedTicks [] = 0 := ⟨rfl, rfl⟩

lemma owedSteps_cons (c : Console) (elapsed : Duration) (rest : List Duration) :
    c.owedSteps (elapsed :: rest) = (c.scheduler.owe elapsed).1
      + (c.perform (.advance elapsed)).console.owedSteps rest := by
  rw [owedSteps, calls_cons, List.map_cons, List.sum_cons]
  rfl

lemma owedTicks_cons (c : Console) (elapsed : Duration) (rest : List Duration) :
    c.owedTicks (elapsed :: rest) = (c.scheduler.owe elapsed).2.1
      + (c.perform (.advance elapsed)).console.owedTicks rest := by
  rw [owedTicks, calls_cons, List.map_cons, List.sum_cons]
  rfl

/-- What the calls report, taken together. -/
structure Reports (c : Console) (given : List Duration) (outcomes : List StepOutcome)
    (reports : List Advance) : Prop where
  results : (c.calls given).map (fun call => call.reply.result) = reports.map .ok
  steps : (reports.map Advance.steps).sum = outcomes.countP StepOutcome.ran
  ticks : (reports.map Advance.ticks).sum = c.owedTicks given
  stalled : (∃ report ∈ reports, report.stalled = true) ↔ .stalled ∈ outcomes
  untimed : ∀ call ∈ c.calls given, ∀ op i registers,
    .executing op i registers ∈ call.reply.log → i.usesTimers = false

lemma Reports.cons {report : Advance} {reports : List Advance} {first second : List StepOutcome}
    (hresult : (c.scheduler.advance c.machine elapsed).result = .ok report)
    (hsteps : report.steps = first.countP StepOutcome.ran)
    (hticks : report.ticks = (c.scheduler.owe elapsed).2.1)
    (hstalled : report.stalled = first.contains .stalled)
    (huntimed : ∀ op i registers, .executing op i registers
      ∈ (c.scheduler.advance c.machine elapsed).log → i.usesTimers = false)
    (hrest : (c.perform (.advance elapsed)).console.Reports rest second reports) :
    c.Reports (elapsed :: rest) (first ++ second) (report :: reports) := by
  refine ⟨?_, ?_, ?_, ?_, ?_⟩
  · rw [calls_cons, List.map_cons, hrest.results, List.map_cons]
    exact congrArg (· :: _) hresult
  · rw [List.map_cons, List.sum_cons, hsteps, hrest.steps, List.countP_append]
  · rw [List.map_cons, List.sum_cons, hticks, hrest.ticks, owedTicks_cons]
  · rw [List.mem_append, ← hrest.stalled]
    simp [hstalled]
  · intro call hcall
    rw [calls_cons] at hcall
    rcases List.mem_cons.mp hcall with rfl | hlater
    · exact huntimed
    · exact hrest.untimed call hlater

lemma Reports.no_fault {reports : List Advance} (h : c.Reports given outcomes reports) :
    ∀ call ∈ c.calls given, ∀ fault, call.reply.result ≠ .error (.fault fault) := by
  intro call hcall fault hresult
  have hmem : call.reply.result ∈ reports.map .ok := by
    rw [← h.results]
    exact List.mem_map_of_mem hcall
  obtain ⟨report, -, hreport⟩ := List.mem_map.mp hmem
  rw [hresult] at hreport
  cases hreport

/-- Calls over machines that stay steady: all their steps, with all their ticks on top. -/
lemma run_of_steady (hfits : ∀ call ∈ c.calls given, call.Fits)
    (hsteady : c.machine.SteadyFor (c.owedSteps given))
    (houtcomes : c.machine.stepResults (c.owedSteps given) = outcomes.map .ok) :
    (c.run (given.map .advance)).machine
      = (c.machine.stepTimes (c.owedSteps given)).tickTimes (c.owedTicks given) ∧
    ∃ reports, c.Reports given outcomes reports := by
  induction given generalizing c outcomes with
  | nil =>
    obtain rfl : outcomes = [] := List.map_eq_nil_iff.mp houtcomes.symm
    exact ⟨rfl, [], rfl, rfl, rfl, by simp, fun _ hcall => absurd hcall List.not_mem_nil⟩
  | cons elapsed rest ih =>
    rw [owedSteps_cons] at hsteady houtcomes ⊢
    rw [owedTicks_cons]
    obtain ⟨hfirst, hlater⟩ := Machine.steadyFor_add.mp hsteady
    rw [Machine.stepResults_add] at houtcomes
    obtain ⟨first, second, rfl, houtFirst, houtSecond⟩ := List.map_eq_append_iff.mp houtcomes.symm
    obtain ⟨⟨waiting, hresult⟩, hmachine, huntimed⟩ :=
      Scheduler.advance_of_steady (hfits _ List.mem_cons_self).product hfirst houtFirst.symm
    -- the ticks of this call are on top of its steps, and do not bother the steps to come
    have hnext : (c.perform (.advance elapsed)).console.machine
        = (c.machine.stepTimes (c.scheduler.owe elapsed).1).tickTimes
            (c.scheduler.owe elapsed).2.1 := hmachine
    obtain ⟨hlast, reports, hreports⟩ := ih (c := (c.perform (.advance elapsed)).console)
      (fun call hcall => hfits call (List.mem_cons_of_mem _ hcall))
      (by rw [hnext]; exact Machine.steadyFor_tickTimes.mpr hlater)
      (by rw [hnext, hlater.stepResults_tickTimes]; exact houtSecond.symm)
    refine ⟨?_, _, Reports.cons hresult rfl rfl rfl huntimed hreports⟩
    show ((c.perform (.advance elapsed)).console.run (rest.map .advance)).machine = _
    rw [hlast, hnext, hlater.stepTimes_tickTimes, Machine.stepTimes_add, Machine.tickTimes_add]

/-- Calls that report no fault, and whose journals name no instruction that uses a timer, went
over steady machines. -/
lemma steadyFor_of_calls (hfits : ∀ call ∈ c.calls given, call.Fits)
    (hfault : ∀ call ∈ c.calls given, ∀ fault, call.reply.result ≠ .error (.fault fault))
    (htimers : ∀ call ∈ c.calls given, ∀ op i registers,
      .executing op i registers ∈ call.reply.log → i.usesTimers = false) :
    c.machine.SteadyFor (c.owedSteps given) := by
  induction given generalizing c with
  | nil => exact c.machine.steadyFor_zero
  | cons elapsed rest ih =>
    have hmem : ⟨c.scheduler, c.machine, elapsed⟩ ∈ c.calls (elapsed :: rest) :=
      List.mem_cons_self
    have hproduct := (hfits _ hmem).product
    have hfirst : c.machine.SteadyFor (c.scheduler.owe elapsed).1 :=
      Scheduler.steadyFor_of_advance hproduct (hfault _ hmem) (htimers _ hmem)
    have hrest := ih (c := (c.perform (.advance elapsed)).console)
      (fun call hcall => hfits call (List.mem_cons_of_mem _ hcall))
      (fun call hcall => hfault call (List.mem_cons_of_mem _ hcall))
      (fun call hcall => htimers call (List.mem_cons_of_mem _ hcall))
    obtain ⟨outcomes, houtcomes⟩ := hfirst.exists_outcomes
    have hnext : (c.perform (.advance elapsed)).console.machine
        = (c.machine.stepTimes (c.scheduler.owe elapsed).1).tickTimes
            (c.scheduler.owe elapsed).2.1 :=
      (Scheduler.advance_of_steady hproduct hfirst houtcomes).2.1
    rw [hnext, Machine.steadyFor_tickTimes] at hrest
    rw [owedSteps_cons]
    exact Machine.steadyFor_add.mpr ⟨hfirst, hrest⟩

/-! ## The whole time decides -/

lemma totalNanos_stretches (c : Console) (given : List Duration) :
    Scheduler.totalNanos (c.stretches given) = (given.map Duration.nanos).sum := by
  induction given generalizing c with
  | nil => rfl
  | cons elapsed rest ih =>
    have hrest := ih (c.perform (.advance elapsed)).console
    rw [Scheduler.totalNanos] at hrest ⊢
    rw [stretches, List.map_cons, List.sum_cons, hrest, List.map_cons, List.sum_cons]

lemma scheduler_run (c : Console) (given : List Duration) :
    (c.run (given.map .advance)).scheduler = c.scheduler.after (c.stretches given) := by
  induction given generalizing c with
  | nil => rfl
  | cons elapsed rest ih => exact ih (c.perform (.advance elapsed)).console

/-- One of the two accounts of a scheduler.  What it owes over all calls and carries at last is
decided by what it carried at first and by the time that has passed. -/
lemma account_of_total (owed : Scheduler.Call → Nat) (credit : Scheduler → Nat) (rate : Nat)
    (hpaid : ∀ s elapsed, credit (Scheduler.owe s elapsed).2.2 < nanosPerSecond)
    (hcredit : credit c.scheduler < nanosPerSecond) {first second : List Duration}
    (htotal : (first.map Duration.nanos).sum = (second.map Duration.nanos).sum)
    (hbalance : ∀ given, given = first ∨ given = second → ∀ call ∈ c.calls given,
      owed call * nanosPerSecond + credit call.reply.scheduler
        = credit call.scheduler + call.elapsed.nanos * rate) :
    ((c.calls first).map owed).sum = ((c.calls second).map owed).sum ∧
      credit (c.run (first.map .advance)).scheduler
        = credit (c.run (second.map .advance)).scheduler := by
  have hfirst := Scheduler.telescope owed credit (hbalance first (Or.inl rfl))
  have hsecond := Scheduler.telescope owed credit (hbalance second (Or.inr rfl))
  rw [totalNanos_stretches] at hfirst hsecond
  rw [← htotal] at hsecond
  have hfirstLt : credit (c.scheduler.after (c.stretches first)) < nanosPerSecond :=
    Scheduler.credit_after_lt credit hpaid hcredit
  have hsecondLt : credit (c.scheduler.after (c.stretches second)) < nanosPerSecond :=
    Scheduler.credit_after_lt credit hpaid hcredit
  rw [scheduler_run, scheduler_run, calls, calls]
  unfold nanosPerSecond at *
  omega

/-- Two ways to split the same time owe the same steps and ticks, and carry the same at last. -/
lemma owed_of_total (hs : c.scheduler.Reachable) {first second : List Duration}
    (htotal : (first.map Duration.nanos).sum = (second.map Duration.nanos).sum)
    (hfirst : ∀ call ∈ c.calls first, call.Fits)
    (hsecond : ∀ call ∈ c.calls second, call.Fits) :
    c.owedSteps first = c.owedSteps second ∧ c.owedTicks first = c.owedTicks second ∧
      (c.run (first.map .advance)).scheduler = (c.run (second.map .advance)).scheduler := by
  have hcount : ∀ given, given = first ∨ given = second → ∀ call ∈ c.calls given,
      call.Countable := by
    rintro given (rfl | rfl) call hcall
    · exact (hfirst call hcall).countable
    · exact (hsecond call hcall).countable
  obtain ⟨hsteps, hstepCredit⟩ := account_of_total Scheduler.Call.steps Scheduler.stepCredit
    c.scheduler.rate.toNat (fun _ _ => Scheduler.drain_lt _ _ _) hs.credits_lt.1 htotal
    (fun given hgiven call hcall => by
      have hbalance := Scheduler.steps_balance (hcount given hgiven call hcall)
      rw [Scheduler.rate_of_mem_calls hcall] at hbalance
      exact hbalance)
  obtain ⟨hticks, htickCredit⟩ := account_of_total Scheduler.Call.ticks Scheduler.tickCredit
    ticksPerSecond (fun _ _ => Scheduler.drain_lt _ _ _) hs.credits_lt.2 htotal
    (fun given hgiven call hcall => Scheduler.ticks_balance (hcount given hgiven call hcall))
  refine ⟨hsteps, hticks, ?_⟩
  have hrate : (c.run (first.map .advance)).scheduler.rate
      = (c.run (second.map .advance)).scheduler.rate := by
    rw [scheduler_run, scheduler_run, Scheduler.rate_after, Scheduler.rate_after]
  generalize (c.run (first.map .advance)).scheduler = left at *
  generalize (c.run (second.map .advance)).scheduler = right at *
  obtain ⟨rate, stepCredit, tickCredit⟩ := left
  obtain ⟨rate', stepCredit', tickCredit'⟩ := right
  cases hrate
  cases hstepCredit
  cases htickCredit
  rfl

/-- How time is split into calls does not show when no step fails and no instruction runs that
uses a timer: the calls leave the same machine and the same scheduler behind, and report the same
steps, the same ticks and stalls in one case as in the other. -/
theorem split_unobservable (s : Scheduler) (hs : s.Reachable) (m : Machine)
    (first second : List Duration)
    (htotal : (first.map Duration.nanos).sum = (second.map Duration.nanos).sum)
    (hfirst : ∀ call ∈ calls ⟨m, s⟩ first, call.Fits)
    (hsecond : ∀ call ∈ calls ⟨m, s⟩ second, call.Fits)
    (hfault : ∀ call ∈ calls ⟨m, s⟩ first, ∀ fault, call.reply.result ≠ .error (.fault fault))
    (htimers : ∀ call ∈ calls ⟨m, s⟩ first, ∀ op i registers,
      .executing op i registers ∈ call.reply.log → i.usesTimers = false) :
    run ⟨m, s⟩ (first.map .advance) = run ⟨m, s⟩ (second.map .advance) ∧
    ∃ reports reports' : List Advance,
      (calls ⟨m, s⟩ first).map (fun call => call.reply.result) = reports.map .ok ∧
      (calls ⟨m, s⟩ second).map (fun call => call.reply.result) = reports'.map .ok ∧
      (reports.map Advance.steps).sum = (reports'.map Advance.steps).sum ∧
      (reports.map Advance.ticks).sum = (reports'.map Advance.ticks).sum ∧
      ((∃ report ∈ reports, report.stalled = true) ↔
        ∃ report ∈ reports', report.stalled = true) := by
  obtain ⟨hsteps, hticks, hscheduler⟩ := owed_of_total hs htotal hfirst hsecond
  -- both lists go over the same plain course, which the first list shows to be steady
  have hsteady := steadyFor_of_calls hfirst hfault htimers
  obtain ⟨outcomes, houtcomes⟩ := hsteady.exists_outcomes
  obtain ⟨hmachine, reports, hreports⟩ := run_of_steady hfirst hsteady houtcomes
  rw [hsteps] at hsteady houtcomes
  obtain ⟨hmachine', reports', hreports'⟩ := run_of_steady hsecond hsteady houtcomes
  rw [hsteps, hticks, ← hmachine'] at hmachine
  refine ⟨?_, reports, reports', hreports.results, hreports'.results, ?_, ?_, ?_⟩
  · generalize run ⟨m, s⟩ (first.map .advance) = left at *
    generalize run ⟨m, s⟩ (second.map .advance) = right at *
    cases left
    cases right
    cases hmachine
    cases hscheduler
    rfl
  · rw [hreports.steps, hreports'.steps]
  · rw [hreports.ticks, hreports'.ticks, hticks]
  · rw [hreports.stalled, hreports'.stalled]

/-- Twenty milliseconds in two calls. -/
def inTwo : List Duration := [⟨15000000, by decide⟩, ⟨5000000, by decide⟩]

/-- Twenty milliseconds in one call. -/
def inOne : List Duration := [⟨20000000, by decide⟩]

lemma fits_inTwo (m : Machine) : ∀ call ∈ calls ⟨m, Scheduler.ofRate 100⟩ inTwo, call.Fits := by
  intro call h
  simp only [inTwo, calls_cons, perform, Scheduler.scheduler_advance, List.mem_cons] at h
  rcases h with rfl | rfl | h
  · refine ⟨⟨?_, ?_⟩, ?_⟩ <;> dsimp only [Scheduler.Call.steps, Scheduler.Call.ticks] <;> decide
  · refine ⟨⟨?_, ?_⟩, ?_⟩ <;> dsimp only [Scheduler.Call.steps, Scheduler.Call.ticks] <;> decide
  · exact absurd h List.not_mem_nil

lemma fits_inOne (m : Machine) : ∀ call ∈ calls ⟨m, Scheduler.ofRate 100⟩ inOne, call.Fits := by
  intro call h
  obtain rfl := List.mem_singleton.mp h
  refine ⟨⟨?_, ?_⟩, ?_⟩ <;> dsimp only [Scheduler.Call.steps, Scheduler.Call.ticks] <;> decide

/-- At a hundred steps a second, the program of `keyWaiter` runs into its wait and is called upon
once more, be it in the same call or in another one. -/
theorem split_unobservable_keyWaiter :
    (inTwo.map Duration.nanos).sum = (inOne.map Duration.nanos).sum ∧
    owedSteps ⟨Machine.keyWaiter, Scheduler.ofRate 100⟩ inTwo = 2 ∧
    owedTicks ⟨Machine.keyWaiter, Scheduler.ofRate 100⟩ inTwo = 1 ∧
    run ⟨Machine.keyWaiter, Scheduler.ofRate 100⟩ (inTwo.map .advance)
      = run ⟨Machine.keyWaiter, Scheduler.ofRate 100⟩ (inOne.map .advance) := by
  have hreach : (Scheduler.ofRate 100).Reachable := Scheduler.Reachable.start 100
  have htotal : (inTwo.map Duration.nanos).sum = (inOne.map Duration.nanos).sum := by decide
  have htwo := fits_inTwo Machine.keyWaiter
  have hone := fits_inOne Machine.keyWaiter
  have howed : owedSteps ⟨Machine.keyWaiter, Scheduler.ofRate 100⟩ inTwo = 2 ∧
      owedTicks ⟨Machine.keyWaiter, Scheduler.ofRate 100⟩ inTwo = 1 := by
    obtain ⟨hsteps, hticks, -⟩ := owed_of_total hreach htotal htwo hone
    have howe : (Scheduler.ofRate 100).owe ⟨20000000, by decide⟩
        = (2, 1, ⟨100, 0, 200000000⟩) := by decide
    rw [inOne, owedSteps_cons, howe, (owed_nil _).1] at hsteps
    rw [inOne, owedTicks_cons, howe, (owed_nil _).2] at hticks
    exact ⟨hsteps, hticks⟩
  have hsteady : Machine.keyWaiter.SteadyFor 2 := by
    obtain ⟨memory, heq, hread⟩ := Machine.keyWaiter_eq
    rw [heq]
    exact Machine.steadyFor_awaitKey rfl rfl (Machine.fetch_of_read16 hread rfl) 2
  obtain ⟨outcomes, houtcomes⟩ := hsteady.exists_outcomes
  rw [← howed.1] at hsteady houtcomes
  obtain ⟨-, reports, hreports⟩ := run_of_steady htwo hsteady houtcomes
  obtain ⟨hrun, -⟩ := split_unobservable (Scheduler.ofRate 100) hreach Machine.keyWaiter
    inTwo inOne htotal htwo hone hreports.no_fault hreports.untimed
  exact ⟨htotal, howed.1, howed.2, hrun⟩

end Console

end ChipVm
