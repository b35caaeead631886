/-
# Where the pacing product overflows

After the `j`-th of `S` steps, `T * j / S` ticks are due.  The scheduler keeps its credits in 128
bits and clamps what it owes to a 64-bit word, but it forms the product `T * j` in a 64-bit word
too, and both factors grow with the time that has passed.  So the product can be too large, and
when that is so is said here exactly: some turn of the loop is reached whose product is, and a
turn is reached when the calls of the plain run before it and in it succeed
(`Scheduler.advance_overflows_iff`).

For a time of so many seconds the product is at most `60 * rate * seconds * seconds`, so short
times are safe at any rate (`Scheduler.product_le`): up to 8460 seconds at the highest rate there
is, and up to 242 days at the rate of a machine that is not told otherwise.
-/
import Mathlib.Tactic.Lemma
import ChipVm.Proofs.Machine.Calls
import ChipVm.Proofs.Machine.FaultSet
import ChipVm.Proofs.Pacing.Split

namespace ChipVm

open Machine (StepOutcome)

namespace Scheduler

variable {s : Scheduler} {m : Machine} {elapsed : Duration} {steps ticks j : Nat}
  {outcomes : List StepOutcome}

/-! ## The products that are formed -/

/-- The loop comes to form the product of `ticks` and `j`: it has a `j`-th turn, and no call of the
plain run fails up to there. -/
def Forms (steps ticks : Nat) (m : Machine) (j : Nat) : Prop :=
  0 < j ∧ j ≤ steps ∧
    ∀ k < j, ∃ outcome, (evenly steps ticks m k).machine.step.result = .ok outcome

lemma forms_of_steady (hfirst : 0 < j) (hlast : j ≤ steps) (h : m.SteadyFor j) :
    Forms steps ticks m j := by
  refine ⟨hfirst, hlast, fun k hk => ?_⟩
  rw [machine_evenly_of_steady fun l hl => h l (Nat.lt_trans hl hk)]
  exact (Machine.steady_tickTimes.mpr (h k hk)).ok

/-- The loop fails on a product exactly if one that it comes to form from here on is too large. -/
lemma pace_overflows_iff {p : Progress} {left : Nat} (h : p.Even steps ticks m j outcomes)
    (hj : j + left = steps)
    (hbefore : ∀ k < j, ∃ outcome, (evenly steps ticks m k).machine.step.result = .ok outcome) :
    (pace steps ticks p left).2 = some .overflow ↔
      ∃ k, j < k ∧ Forms steps ticks m k ∧ wordBound ≤ ticks * k := by
  induction left generalizing j p outcomes with
  | zero =>
    constructor
    · intro hoverflow
      cases hoverflow
    · rintro ⟨k, hlater, ⟨-, hlast, -⟩, -⟩
      omega
  | succ left ih =>
    rcases pace_succ_cases h hj with ⟨fault, herror, hpace⟩ | ⟨outcome, next, hresult, -, hturn⟩
    -- where a call fails there is nothing to multiply, and no later turn is reached
    · constructor
      · intro hoverflow
        rw [hpace] at hoverflow
        cases hoverflow
      · rintro ⟨k, hlater, ⟨-, -, hok⟩, -⟩
        obtain ⟨outcome, houtcome⟩ := hok j hlater
        rw [herror] at houtcome
        cases houtcome
    · have hreached : ∀ k < j + 1, ∃ outcome,
          (evenly steps ticks m k).machine.step.result = .ok outcome :=
        Nat.forall_lt_succ_right.mpr ⟨hbefore, outcome, hresult⟩
      rcases hturn with ⟨hlarge, hpace⟩ | ⟨hfits, hnext, hpace⟩
      · have hforms : Forms steps ticks m (j + 1) := ⟨Nat.succ_pos j, by omega, hreached⟩
        exact iff_of_true hpace ⟨j + 1, Nat.lt_succ_self j, hforms, hlarge⟩
      · rw [hpace, ih hnext (by omega) hreached]
        constructor
        · rintro ⟨k, hlater, hk⟩
          exact ⟨k, Nat.lt_of_succ_lt hlater, hk⟩
        · rintro ⟨k, hlater, hforms, hk⟩
          have hne : j + 1 ≠ k := by
            rintro rfl
            omega
          exact ⟨k, Nat.lt_of_le_of_ne hlater hne, hforms, hk⟩

/-- Letting time pass fails on a product exactly if one that it comes to form is too large. -/
lemma advance_overflows_iff :
    (s.advance m elapsed).result = .error .overflow ↔
      ∃ j, Forms (s.owe elapsed).1 (s.owe elapsed).2.1 m j ∧
        wordBound ≤ (s.owe elapsed).2.1 * j := by
  have hpace := pace_overflows_iff
    (Progress.Even.start (s.owe elapsed).1 (s.owe elapsed).2.1 m) (Nat.zero_add _) nofun
  have hadvance : (s.advance m elapsed).result = .error .overflow ↔
      (pace (s.owe elapsed).1 (s.owe elapsed).2.1 ⟨m, Advance.zero, #[]⟩ (s.owe elapsed).1).2
        = some .overflow := by
    rw [advance]
    dsimp only
    split <;> rename_i heq <;> simp [heq]
  rw [hadvance, hpace]
  refine exists_congr fun j => ?_
  constructor
  · exact fun h => h.2
  · exact fun h => ⟨h.1.1, h⟩

/-! ## Times that are safe -/

/-- At most so many units are owed as so many seconds are worth. -/
lemma drain_le {credit nanos rate seconds : Nat} (hcredit : credit < nanosPerSecond)
    (hnanos : nanos ≤ seconds * nanosPerSecond) :
    (drain credit nanos rate).1 ≤ seconds * rate := by
  have hproduct : nanos * rate ≤ nanosPerSecond * (seconds * rate) := by
    rw [Nat.mul_left_comm, ← Nat.mul_assoc]
    exact Nat.mul_le_mul_right rate hnanos
  have htotal : credit + nanos * rate < nanosPerSecond * (seconds * rate + 1) := by
    rw [Nat.mul_succ]
    omega
  calc (drain credit nanos rate).1
      ≤ (credit + nanos * rate) / nanosPerSecond := Nat.min_le_left _ _
    _ ≤ seconds * rate := Nat.le_of_lt_succ (Nat.div_lt_of_lt_mul htotal)

/-- No product is larger than that of all the ticks and all the steps that so many seconds are
worth. -/
lemma product_le {seconds : Nat} (hs : s.Reachable)
    (hshort : elapsed.nanos ≤ seconds * nanosPerSecond)
    (hforms : Forms (s.owe elapsed).1 (s.owe elapsed).2.1 m j) :
    (s.owe elapsed).2.1 * j ≤ seconds * ticksPerSecond * (seconds * s.rate.toNat) := by
  obtain ⟨hstepCredit, htickCredit⟩ := hs.credits_lt
  exact Nat.mul_le_mul (drain_le htickCredit hshort)
    (Nat.le_trans hforms.2.1 (drain_le hstepCredit hshort))

/-! ## Both together -/

/-- Letting time pass fails on a product exactly if one of those that it comes to form does not
fit into a word.  All of them fit as long as the ticks times the steps do that the time is worth
when it is rounded up to whole seconds. -/
theorem pacing_product_fits_or_fails (s : Scheduler) (m : Machine) (elapsed : Duration) :
    ((s.advance m elapsed).result = .error .overflow ↔
      ∃ j, Forms (s.owe elapsed).1 (s.owe elapsed).2.1 m j ∧
        wordBound ≤ (s.owe elapsed).2.1 * j) ∧
    (∀ seconds, s.Reachable → elapsed.nanos ≤ seconds * nanosPerSecond →
      seconds * ticksPerSecond * (seconds * s.rate.toNat) < wordBound →
      ∀ j, Forms (s.owe elapsed).1 (s.owe elapsed).2.1 m j →
        (s.owe elapsed).2.1 * j < wordBound) := by
  refine ⟨advance_overflows_iff, ?_⟩
  intro seconds hs hshort hworth j hforms
  exact Nat.lt_of_le_of_lt (product_le hs hshort hforms) hworth

/-- At the highest rate there is, 8460 seconds are not too long, even for a program that waits for a
key all the while and never fails. -/
theorem pacing_product_fits_or_fails_fastest :
    (ofRate 0xFFFFFFFF).Reachable ∧
    8460 * ticksPerSecond * (8460 * (ofRate 0xFFFFFFFF).rate.toNat) < wordBound ∧
    ((ofRate 0xFFFFFFFF).advance Machine.keyWaiter ⟨8460 * nanosPerSecond, by decide⟩).result
      ≠ .error .overflow := by
  have hreach : (ofRate 0xFFFFFFFF).Reachable := .start 0xFFFFFFFF
  have hworth : 8460 * ticksPerSecond * (8460 * (ofRate 0xFFFFFFFF).rate.toNat) < wordBound := by
    decide
  obtain ⟨hiff, hfits⟩ := pacing_product_fits_or_fails (ofRate 0xFFFFFFFF) Machine.keyWaiter
    ⟨8460 * nanosPerSecond, by decide⟩
  refine ⟨hreach, hworth, fun hoverflow => ?_⟩
  obtain ⟨j, hforms, hlarge⟩ := hiff.mp hoverflow
  exact absurd (hfits 8460 hreach (Nat.le_refl _) hworth j hforms) (Nat.not_lt.mpr hlarge)

end Scheduler

/-! ## A time that is too long -/

namespace Machine

/-- A program that calls itself opens one more call, as long as there is room. -/
lemma step_callingItself {depth : Nat} (h : depth < stackLimit) :
    (callingItself depth (Nat.le_of_lt h)).step.machine = callingItself (depth + 1) h ∧
    (callingItself depth (Nat.le_of_lt h)).step.result = .ok (.executed (.call 0x200)) := by
  obtain ⟨hrun, hkey, -⟩ := parts_callingItself (Nat.le_of_lt h)
  have hup := upcoming_eq_some.mpr ⟨hrun, hkey, _, fetch_callingItself (Nat.le_of_lt h)⟩
  have hroom : (callingItself depth (Nat.le_of_lt h)).stack.depth < stackLimit := by
    rw [callingItself, CallStack.depth, List.length_replicate]
    exact h
  obtain ⟨hmachine, hresult⟩ := step_call hup hroom
  refine ⟨hmachine.trans ?_, hresult⟩
  obtain ⟨memory, heq, -⟩ := loadProgram_word Config.standard 0 0x22 0x00
  simp only [callingItself, heq]
  rfl

lemma steady_callingItself {depth : Nat} (h : depth < stackLimit) :
    (callingItself depth (Nat.le_of_lt h)).Steady := by
  refine ⟨⟨_, (step_callingItself h).2⟩, fun i hi => ?_⟩
  obtain ⟨-, -, op, hfetch⟩ := upcoming_eq_some.mp hi
  rw [fetch_callingItself] at hfetch
  cases hfetch
  rfl

lemma stepTimes_callingItself {count : Nat} (h : count ≤ stackLimit) :
    (callingItself 0 (Nat.zero_le stackLimit)).stepTimes count = callingItself count h := by
  induction count with
  | zero => rfl
  | succ count ih => rw [stepTimes, ih (Nat.le_of_succ_le h), (step_callingItself h).1]

end Machine

namespace Scheduler

open Machine (callingItself)

/-- More than half as many seconds as make a word of ticks. -/
def tooLong : Duration := ⟨153722867280912931 * nanosPerSecond, by decide⟩

/-- After the second step of a program that calls itself, the scheduler comes to multiply more
ticks than half a word by two.  Without that the program would get to its seventeenth call, and
fail there. -/
theorem pacing_product_overflows :
    (ofRate 60).Reachable ∧
    Forms ((ofRate 60).owe tooLong).1 ((ofRate 60).owe tooLong).2.1
      (callingItself 0 (by decide)) 2 ∧
    wordBound ≤ ((ofRate 60).owe tooLong).2.1 * 2 ∧
    ((ofRate 60).advance (callingItself 0 (by decide)) tooLong).result = .error .overflow := by
  have hsteady : (callingItself 0 (by decide)).SteadyFor 2 := by
    intro k hk
    have hroom : k < stackLimit := Nat.lt_trans hk (by decide)
    rw [Machine.stepTimes_callingItself (Nat.le_of_lt hroom)]
    exact Machine.steady_callingItself hroom
  have hforms : Forms ((ofRate 60).owe tooLong).1 ((ofRate 60).owe tooLong).2.1
      (callingItself 0 (by decide)) 2 := forms_of_steady (by decide) (by decide) hsteady
  have hlarge : wordBound ≤ ((ofRate 60).owe tooLong).2.1 * 2 := by decide
  exact ⟨.start 60, hforms, hlarge, advance_overflows_iff.mpr ⟨2, hforms, hlarge⟩⟩

end Scheduler

end ChipVm
