/-
# Running is stepping

`Machine.runUntilStall` stops early when a step waits, stalls or fails.  Whoever goes on stepping
instead gets the same machine: a machine that waits or stalls is not changed by its step, and one
that has failed is halted (`Machine.step_idle`).  So the machine after a run of at most `limit`
steps is the machine after `limit` plain steps (`Machine.machine_runUntilStall`), and runs one
after the other make one long run.

What a run returns is settled by the first step that is not an ordinary one
(`Machine.result_runUntilStall`).
-/
import Mathlib.Tactic.Lemma
import ChipVm.Proofs.Machine.Stall
import ChipVm.Proofs.Machine.Steady

namespace ChipVm.Machine

variable {m : Machine} {fault : Fault} {limit count : Nat}

/-! ## Where a run stops -/

/-- The next step runs an instruction, and not a jump to itself. -/
def Proceeds (m : Machine) : Prop :=
  ∃ i, m.step.result = .ok (.executed i)

/-- The next step finds a register waiting, or a jump to itself. -/
def Rests (m : Machine) : Prop :=
  (∃ x, m.step.result = .ok (.waiting x)) ∨ m.step.result = .ok .stalled

/-- A step that succeeds proceeds or rests. -/
lemma rests_iff {outcome : StepOutcome} (h : m.step.result = .ok outcome) :
    m.Rests ↔ ¬m.Proceeds := by
  unfold Rests Proceeds
  rw [h]
  cases outcome <;> simp

lemma Proceeds.not_rests (h : m.Proceeds) : ¬m.Rests := by
  obtain ⟨i, hi⟩ := h
  rw [rests_iff hi, not_not]
  exact ⟨i, hi⟩

lemma not_proceeds_of_error (h : m.step.result = .error fault) : ¬m.Proceeds := by
  rintro ⟨i, hi⟩
  rw [h] at hi
  cases hi

lemma step_of_rests (h : m.Rests) : m.step.machine = m := by
  rcases h with ⟨x, hwaiting⟩ | hstalled
  · exact (step_of_waiting hwaiting).2.2
  · exact (stalled_of_step hstalled).step_eq.1

/-- After a step that did not proceed, steps change nothing any more. -/
lemma step_idle (h : ¬m.Proceeds) : m.step.machine.step.machine = m.step.machine := by
  cases hresult : m.step.result with
  | error fault =>
    have hhalted : m.step.machine.halted = some fault := by
      cases hrun : m.halted with
      | some problem =>
        rw [step_halted hrun] at hresult ⊢
        rw [hrun, Except.error.inj hresult]
      | none => rw [(step_error hrun hresult).1]
    rw [step_halted hhalted]
  | ok outcome =>
    have hsame := step_of_rests ((rests_iff hresult).mpr h)
    rw [hsame, hsame]

lemma stepTimes_succ' (m : Machine) (count : Nat) :
    m.stepTimes (count + 1) = m.step.machine.stepTimes count := by
  rw [Nat.add_comm, stepTimes_add]
  rfl

lemma stepTimes_of_idle (h : m.step.machine = m) (count : Nat) : m.stepTimes count = m := by
  induction count with
  | zero => rfl
  | succ count ih => rw [stepTimes, ih, h]

/-! ## The machine after a run -/

lemma machine_runFrom (m : Machine) (taken : Nat) (log : Array Log.Entry) (left : Nat) :
    (runFrom taken log m left).machine = m.stepTimes left := by
  induction left generalizing m taken log with
  | zero => rfl
  | succ left ih =>
    have hidle : ¬m.Proceeds → m.step.machine = m.step.machine.stepTimes left :=
      fun h => (stepTimes_of_idle (step_idle h) left).symm
    unfold Proceeds at hidle
    rw [stepTimes_succ', runFrom]
    rcases hreply : m.step with ⟨after, result, written⟩
    rw [hreply] at hidle
    -- only where the run stops is there something to show
    rcases result with fault | (i | x | _)
    · exact hidle (by simp)
    · exact ih after (taken + 1) (log ++ written)
    · exact hidle (by simp)
    · exact hidle (by simp)

lemma machine_runUntilStall (m : Machine) (limit : Nat) :
    (m.runUntilStall limit).machine = m.stepTimes limit :=
  machine_runFrom m 0 #[] limit

/-! ## What a run returns -/

/-- As long as steps proceed, they are counted and the run goes on. -/
lemma runFrom_of_proceeds (h : ∀ k < count, (m.stepTimes k).Proceeds) (left : Nat) :
    ∃ log, runFrom 0 #[] m (count + left) = runFrom count log (m.stepTimes count) left := by
  induction count generalizing left with
  | zero => exact ⟨#[], by rw [Nat.zero_add]; rfl⟩
  | succ count ih =>
    obtain ⟨log, hrun⟩ := ih (fun k hk => h k (Nat.lt_succ_of_lt hk)) (left + 1)
    obtain ⟨i, hi⟩ := h count (Nat.lt_succ_self count)
    rw [Nat.succ_add_eq_add_succ, hrun, runFrom, stepTimes]
    rcases hreply : (m.stepTimes count).step with ⟨after, result, written⟩
    rw [hreply] at hi
    obtain rfl : result = .ok (.executed i) := hi
    exact ⟨log ++ written, rfl⟩

lemma result_of_proceeds (h : ∀ k < limit, (m.stepTimes k).Proceeds) :
    (m.runUntilStall limit).result = .ok limit := by
  obtain ⟨log, hrun⟩ := runFrom_of_proceeds h 0
  rw [runUntilStall]
  exact congrArg Reply.result hrun

/-- The first step that does not proceed settles what the run returns: its own fault, or the
number of steps up to it. -/
lemma result_runUntilStall {k : Nat} (hk : k < limit) (hfirst : ∀ j < k, (m.stepTimes j).Proceeds)
    (hstop : ¬(m.stepTimes k).Proceeds) :
    (m.runUntilStall limit).result = (m.stepTimes k).step.result.map fun _ => k + 1 := by
  obtain ⟨left, rfl⟩ : ∃ left, limit = k + (left + 1) := ⟨limit - (k + 1), by omega⟩
  obtain ⟨log, hrun⟩ := runFrom_of_proceeds hfirst (left + 1)
  unfold Proceeds at hstop
  rw [runUntilStall, hrun, runFrom]
  rcases hreply : (m.stepTimes k).step with ⟨after, result, written⟩
  rw [hreply] at hstop
  rcases result with fault | (i | x | _)
  · rfl
  · exact absurd ⟨i, rfl⟩ hstop
  · rfl
  · rfl

/-- All steps of a run proceed, or there is a first one that does not. -/
lemma proceeds_cases (m : Machine) (limit : Nat) :
    (∀ k < limit, (m.stepTimes k).Proceeds) ∨
    ∃ k < limit, ¬(m.stepTimes k).Proceeds ∧ ∀ j < k, (m.stepTimes j).Proceeds := by
  induction limit with
  | zero => exact Or.inl nofun
  | succ limit ih =>
    rcases ih with hall | ⟨k, hk, hstop⟩
    · by_cases hlast : (m.stepTimes limit).Proceeds
      · exact Or.inl (Nat.forall_lt_succ_right.mpr ⟨hall, hlast⟩)
      · exact Or.inr ⟨limit, Nat.lt_succ_self limit, hlast, hall⟩
    · exact Or.inr ⟨k, Nat.lt_succ_of_lt hk, hstop⟩

/-- Steps before one that fails have all proceeded: once at rest, a machine stays so. -/
lemma proceeds_before_error {k : Nat} (herror : (m.stepTimes k).step.result = .error fault)
    (hbefore : ∀ j < k, ∃ outcome, (m.stepTimes j).step.result = .ok outcome) :
    ∀ j < k, (m.stepTimes j).Proceeds := by
  intro j hj
  by_contra hstop
  obtain ⟨outcome, houtcome⟩ := hbefore j hj
  have hrests := (rests_iff houtcome).mpr hstop
  have hsame : m.stepTimes k = m.stepTimes j := by
    rw [← Nat.add_sub_of_le (Nat.le_of_lt hj), stepTimes_add]
    exact stepTimes_of_idle (step_of_rests hrests) (k - j)
  rw [hsame, houtcome] at herror
  cases herror

/-- A run fails with the fault of the first step that fails. -/
lemma runUntilStall_fails_iff :
    (m.runUntilStall limit).result = .error fault ↔
      ∃ k < limit, (m.stepTimes k).step.result = .error fault ∧
        ∀ j < k, ∃ outcome, (m.stepTimes j).step.result = .ok outcome := by
  constructor
  · intro herror
    rcases m.proceeds_cases limit with hall | ⟨k, hk, hstop, hfirst⟩
    · rw [result_of_proceeds hall] at herror
      cases herror
    · rw [result_runUntilStall hk hfirst hstop] at herror
      refine ⟨k, hk, ?_, fun j hj => ?_⟩
      · cases hresult : (m.stepTimes k).step.result with
        | ok outcome =>
          rw [hresult] at herror
          cases herror
        | error problem =>
          rw [hresult] at herror
          rw [Except.error.inj herror]
      · obtain ⟨i, hi⟩ := hfirst j hj
        exact ⟨_, hi⟩
  · rintro ⟨k, hk, herror, hbefore⟩
    rw [result_runUntilStall hk (proceeds_before_error herror hbefore)
      (not_proceeds_of_error herror), herror]
    rfl

/-- A run that does not fail counts its steps up to the first that rests. -/
lemma runUntilStall_ok_cases
    (hok : ∀ k < limit, ∃ outcome, (m.stepTimes k).step.result = .ok outcome) :
    (∃ k < limit, (m.stepTimes k).Rests ∧ (∀ j < k, ¬(m.stepTimes j).Rests) ∧
      (m.runUntilStall limit).result = .ok (k + 1)) ∨
    ((∀ k < limit, ¬(m.stepTimes k).Rests) ∧ (m.runUntilStall limit).result = .ok limit) := by
  rcases m.proceeds_cases limit with hall | ⟨k, hk, hstop, hfirst⟩
  · exact Or.inr ⟨fun k hk => (hall k hk).not_rests, result_of_proceeds hall⟩
  · obtain ⟨outcome, houtcome⟩ := hok k hk
    refine Or.inl ⟨k, hk, (rests_iff houtcome).mpr hstop, fun j hj => (hfirst j hj).not_rests, ?_⟩
    rw [result_runUntilStall hk hfirst hstop, houtcome]
    rfl

/-! ## All of it -/

/-- A run leaves the machine that as many plain steps leave.  It fails where the first of them
fails; otherwise it returns the number of steps up to the first that rests, or its limit if none
does.  So two runs one after the other leave what one run leaves that may take as many steps as
both. -/
theorem run_is_plain_steps (m : Machine) (limit : Nat) :
    (m.runUntilStall limit).machine = m.stepTimes limit ∧
    (∀ fault, (m.runUntilStall limit).result = .error fault ↔
      ∃ k < limit, (m.stepTimes k).step.result = .error fault ∧
        ∀ j < k, ∃ outcome, (m.stepTimes j).step.result = .ok outcome) ∧
    ((∀ k < limit, ∃ outcome, (m.stepTimes k).step.result = .ok outcome) →
      (∃ k < limit, (m.stepTimes k).Rests ∧ (∀ j < k, ¬(m.stepTimes j).Rests) ∧
        (m.runUntilStall limit).result = .ok (k + 1)) ∨
      ((∀ k < limit, ¬(m.stepTimes k).Rests) ∧ (m.runUntilStall limit).result = .ok limit)) ∧
    ∀ more, ((m.runUntilStall limit).machine.runUntilStall more).machine
      = (m.runUntilStall (limit + more)).machine := by
  refine ⟨m.machine_runUntilStall limit, fun _ => runUntilStall_fails_iff,
    runUntilStall_ok_cases, fun more => ?_⟩
  rw [machine_runUntilStall, machine_runUntilStall, machine_runUntilStall, stepTimes_add]

/-- A program that waits for a key executes one instruction and rests with its second step; a run
that may take nine steps takes these two, and leaves the machine as nine steps leave it. -/
theorem run_is_plain_steps_keyWaiter :
    (∀ k < 9, ∃ outcome, (keyWaiter.stepTimes k).step.result = .ok outcome) ∧
    (keyWaiter.runUntilStall 9).result = .ok 2 ∧
    (keyWaiter.runUntilStall 9).machine = keyWaiter.stepTimes 9 := by
  obtain ⟨hmachine, -, hcount, -⟩ := run_is_plain_steps keyWaiter 9
  obtain ⟨hrun, hkey, hfetch⟩ := parts_keyWaiter
  have hsteady := steadyFor_awaitKey hrun hkey hfetch 9
  have hok : ∀ k < 9, ∃ outcome, (keyWaiter.stepTimes k).step.result = .ok outcome :=
    fun k hk => (hsteady k hk).ok
  have hfirst : (keyWaiter.stepTimes 0).Proceeds := ⟨_, step_keyWaiter⟩
  have hsecond : (keyWaiter.stepTimes 1).Rests := by
    refine Or.inl ⟨Register.v0, ?_⟩
    rw [stepTimes, stepTimes, (waiting_step hrun hkey hfetch).step_eq]
  refine ⟨hok, ?_, hmachine⟩
  rcases hcount hok with ⟨k, -, hrests, hbefore, hresult⟩ | ⟨hnone, -⟩
  · obtain rfl : k = 1 := by
      rcases Nat.lt_trichotomy k 1 with hzero | hone | hlater
      · obtain rfl : k = 0 := by omega
        exact absurd hrests hfirst.not_rests
      · exact hone
      · exact absurd hsecond (hbefore 1 hlater)
    exact hresult
  · exact absurd hsecond (hnone 1 (by decide))

end ChipVm.Machine
