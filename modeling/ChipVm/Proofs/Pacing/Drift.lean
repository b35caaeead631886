/-
# The scheduler does not drift

A scheduler pays out whole steps and ticks and carries the rest.  However the time is split into
calls, whatever machines the calls are made on and however they end, what all calls together owe
is what one call for the whole time would owe, and what is carried at the end is what that one
call would carry.

One call keeps the balance: what it owes, in nanoseconds times rate, and what it carries
afterwards make up what it found and what has passed (`Scheduler.drain_balance`).  Over a list of
calls the balances telescope (`Scheduler.telescope`).  Steps and ticks are two accounts of the
same kind, kept at different rates.

The only loss is in a call that owes more than a 64-bit word can count.
-/
import Mathlib.Algebra.Ring.Nat
import ChipVm.Pacing.Scheduler

namespace ChipVm.Scheduler

/-! ## Calls -/

/-- A call to let time pass: the scheduler as the call finds it, the machine, and the time. -/
structure Call where
  /-- The scheduler before the call. -/
  scheduler : Scheduler
  /-- The machine that the call is made on. -/
  machine : Machine
  /-- The time that has passed. -/
  elapsed : Duration

namespace Call

/-- The steps that the call owes. -/
def steps (call : Call) : Nat := (call.scheduler.owe call.elapsed).1

/-- The ticks that the call owes. -/
def ticks (call : Call) : Nat := (call.scheduler.owe call.elapsed).2.1

/-- What the call leaves behind. -/
def reply (call : Call) : Reply := call.scheduler.advance call.machine call.elapsed

/-- Neither the steps nor the ticks that the call owes are more than a 64-bit word can count. -/
def Countable (call : Call) : Prop :=
  (call.scheduler.stepCredit + call.elapsed.nanos * call.scheduler.rate.toNat) / nanosPerSecond
      < wordBound ∧
    (call.scheduler.tickCredit + call.elapsed.nanos * ticksPerSecond) / nanosPerSecond
      < wordBound

end Call

/-- The calls that are made one after the other on the given machines for the given times. -/
def calls (s : Scheduler) : List (Machine × Duration) → List Call
  | [] => []
  | (machine, elapsed) :: rest =>
    ⟨s, machine, elapsed⟩ :: calls (s.advance machine elapsed).scheduler rest

/-- The scheduler after these calls. -/
def after (s : Scheduler) : List (Machine × Duration) → Scheduler
  | [] => s
  | (machine, elapsed) :: rest => after (s.advance machine elapsed).scheduler rest

/-- The time that passes in all. -/
def totalNanos (given : List (Machine × Duration)) : Nat :=
  (given.map fun (_, elapsed) => elapsed.nanos).sum

/-! ## One call -/

/-- A call pays out before anything is run, and so pays out the same however the run ends. -/
lemma scheduler_advance (s : Scheduler) (machine : Machine) (elapsed : Duration) :
    (s.advance machine elapsed).scheduler = (s.owe elapsed).2.2 := by
  rw [advance]
  dsimp only
  split <;> rfl

lemma drain_balance {credit nanos rate : Nat}
    (h : (credit + nanos * rate) / nanosPerSecond < wordBound) :
    (drain credit nanos rate).1 * nanosPerSecond + (drain credit nanos rate).2
      = credit + nanos * rate := by
  have hall : min ((credit + nanos * rate) / nanosPerSecond) (wordBound - 1)
      = (credit + nanos * rate) / nanosPerSecond := Nat.min_eq_left (Nat.le_sub_one_of_lt h)
  rw [drain, hall]
  exact Nat.div_add_mod' _ _

lemma drain_lt (credit nanos rate : Nat) : (drain credit nanos rate).2 < nanosPerSecond :=
  Nat.mod_lt _ (by decide)

/-! ## Many calls -/

variable {s : Scheduler} {given : List (Machine × Duration)}

lemma rate_of_mem_calls {call : Call} (h : call ∈ s.calls given) :
    call.scheduler.rate = s.rate := by
  induction given generalizing s with
  | nil => exact absurd h List.not_mem_nil
  | cons first rest ih =>
    obtain ⟨machine, elapsed⟩ := first
    rcases List.mem_cons.mp h with rfl | hrest
    · rfl
    · rw [ih hrest, scheduler_advance]
      rfl

/-- An account that every call balances is balanced over all of them: what was found at first and
what has passed is what was owed in all and what is carried at last. -/
lemma telescope (owed : Call → Nat) (credit : Scheduler → Nat) {rate : Nat}
    (hcall : ∀ call ∈ s.calls given, owed call * nanosPerSecond + credit call.reply.scheduler
      = credit call.scheduler + call.elapsed.nanos * rate) :
    ((s.calls given).map owed).sum * nanosPerSecond + credit (s.after given)
      = credit s + totalNanos given * rate := by
  induction given generalizing s with
  | nil =>
    show 0 * nanosPerSecond + credit s = credit s + 0 * rate
    omega
  | cons first rest ih =>
    obtain ⟨machine, elapsed⟩ := first
    have hfirst : owed ⟨s, machine, elapsed⟩ * nanosPerSecond
        + credit (s.advance machine elapsed).scheduler = credit s + elapsed.nanos * rate :=
      hcall ⟨s, machine, elapsed⟩ List.mem_cons_self
    have hrest := ih fun call h => hcall call (List.mem_cons_of_mem _ h)
    have htotal : totalNanos ((machine, elapsed) :: rest) = elapsed.nanos + totalNanos rest := by
      rw [totalNanos, List.map_cons, List.sum_cons, totalNanos]
    rw [calls, after, List.map_cons, List.sum_cons, htotal, Nat.add_mul, Nat.add_mul,
      Nat.add_assoc, hrest, ← Nat.add_assoc, hfirst, Nat.add_assoc]

/-- An account that every call leaves below one unit is below one unit after all of them. -/
lemma credit_after_lt (credit : Scheduler → Nat)
    (hpaid : ∀ s elapsed, credit (owe s elapsed).2.2 < nanosPerSecond)
    (h : credit s < nanosPerSecond) : credit (s.after given) < nanosPerSecond := by
  induction given generalizing s with
  | nil => exact h
  | cons first rest ih =>
    obtain ⟨machine, elapsed⟩ := first
    refine ih ?_
    rw [scheduler_advance]
    exact hpaid s elapsed

lemma steps_balance {call : Call} (h : call.Countable) :
    call.steps * nanosPerSecond + call.reply.scheduler.stepCredit
      = call.scheduler.stepCredit + call.elapsed.nanos * call.scheduler.rate.toNat := by
  rw [Call.reply, scheduler_advance]
  exact drain_balance h.1

lemma ticks_balance {call : Call} (h : call.Countable) :
    call.ticks * nanosPerSecond + call.reply.scheduler.tickCredit
      = call.scheduler.tickCredit + call.elapsed.nanos * ticksPerSecond := by
  rw [Call.reply, scheduler_advance]
  exact drain_balance h.2

/-- An account that starts at nothing owes the whole units of what has passed and carries the
rest. -/
lemma eq_div_mod_of_balance {owed credit nanos rate : Nat}
    (h : owed * nanosPerSecond + credit = 0 + nanos * rate) (hlt : credit < nanosPerSecond) :
    owed = rate * nanos / nanosPerSecond ∧ credit = rate * nanos % nanosPerSecond := by
  have hunique := (Nat.div_mod_unique (a := rate * nanos) (b := nanosPerSecond) (c := credit)
    (d := owed) (by decide)).mpr ⟨?_, hlt⟩
  · exact ⟨hunique.1.symm, hunique.2.symm⟩
  · rw [Nat.mul_comm rate nanos, Nat.mul_comm nanosPerSecond owed]
    omega

/-! ## Ticks that are reported -/

lemma Progress.ticks_note (p : Progress) (machine : Machine) (written : Array Log.Entry)
    (outcome : Machine.StepOutcome) :
    (p.note machine written outcome).advance.ticks = p.advance.ticks := by
  cases outcome <;> rfl

lemma Progress.ticks_step (p : Progress) : p.step.1.advance.ticks = p.advance.ticks := by
  rw [Progress.step]
  split
  · rfl
  · split
    · rfl
    · exact p.ticks_note _ _ _

/-- While the steps are taken, no more ticks are applied than are owed. -/
lemma ticks_pace_le (steps : Nat) {ticks : Nat} {p : Progress} (h : p.advance.ticks ≤ ticks)
    (left : Nat) : (pace steps ticks p left).1.advance.ticks ≤ ticks := by
  induction left generalizing p with
  | zero => exact h
  | succ left ih =>
    have hstep := p.ticks_step
    rw [pace]
    rcases hturn : p.step with ⟨next, _ | fault⟩
    · rw [hturn] at hstep
      dsimp only
      split
      · refine ih (Nat.max_le.mpr ⟨?_, ?_⟩)
        · rw [hstep]
          exact h
        -- what is due after `steps - left` of the steps is at most what is due after all
        · refine Nat.div_le_of_le_mul ?_
          rw [Nat.mul_comm steps ticks]
          exact Nat.mul_le_mul_left ticks (Nat.sub_le steps left)
      · dsimp only at hstep ⊢
        rw [hstep]
        exact h
    · rw [hturn] at hstep
      dsimp only at hstep ⊢
      rw [hstep]
      exact h

/-- An advance that comes to its end has applied every tick that it owed. -/
lemma ticks_of_advance {machine : Machine} {elapsed : Duration} {advance : Advance}
    (h : (s.advance machine elapsed).result = .ok advance) :
    advance.ticks = (s.owe elapsed).2.1 := by
  rcases hpace : pace (s.owe elapsed).1 (s.owe elapsed).2.1 ⟨machine, Advance.zero, #[]⟩
    (s.owe elapsed).1 with ⟨p, _ | problem⟩
  · have hle : p.advance.ticks ≤ (s.owe elapsed).2.1 := by
      have hpaced := ticks_pace_le (s.owe elapsed).1 (p := ⟨machine, Advance.zero, #[]⟩)
        (Nat.zero_le (s.owe elapsed).2.1) (s.owe elapsed).1
      rw [hpace] at hpaced
      exact hpaced
    simp only [Scheduler.advance, hpace] at h
    obtain rfl := Except.ok.inj h
    exact Nat.max_eq_right hle
  · simp only [Scheduler.advance, hpace] at h
    cases h

/-! ## The whole run -/

/-- Whatever a scheduler may carry and however long the time, what is to be paid out of fits into
128 bits, at the rate of any machine and at that of the ticks. -/
lemma credit_add_lt {credit : Nat} (h : credit < nanosPerSecond) (elapsed : Duration) {rate : Nat}
    (hrate : rate < UInt32.size) : credit + elapsed.nanos * rate < 2 ^ 128 := by
  have hproduct : elapsed.nanos * rate ≤ (wordBound * nanosPerSecond) * UInt32.size :=
    Nat.mul_le_mul (Nat.le_of_lt elapsed.bounded) (Nat.le_of_lt hrate)
  have hroom : nanosPerSecond + (wordBound * nanosPerSecond) * UInt32.size < 2 ^ 128 := by decide
  calc credit + elapsed.nanos * rate
      ≤ nanosPerSecond + (wordBound * nanosPerSecond) * UInt32.size :=
        Nat.add_le_add (Nat.le_of_lt h) hproduct
    _ < 2 ^ 128 := hroom

/-- However time is split into calls, whatever they are made on and however they end: together
they owe exactly the whole steps and ticks of the whole time, and the rest is carried; every
call that comes to its end reports the ticks that it owed; and no sum on the way leaves its 128
bits. -/
theorem owed_exactly (rate : UInt32) (start : Scheduler)
    (hstart : start = ofRate rate ∨ ∃ s : Scheduler, s.rate = rate ∧ start = s.reset)
    (given : List (Machine × Duration)) (hcount : ∀ call ∈ start.calls given, call.Countable) :
    ((start.calls given).map Call.steps).sum
      = rate.toNat * totalNanos given / nanosPerSecond ∧
    ((start.calls given).map Call.ticks).sum
      = ticksPerSecond * totalNanos given / nanosPerSecond ∧
    (start.after given).stepCredit = rate.toNat * totalNanos given % nanosPerSecond ∧
    (start.after given).tickCredit = ticksPerSecond * totalNanos given % nanosPerSecond ∧
    (∀ call ∈ start.calls given, ∀ advance, call.reply.result = .ok advance →
      advance.ticks = call.ticks) ∧
    (∀ credit < nanosPerSecond, ∀ elapsed : Duration,
      credit + elapsed.nanos * rate.toNat < 2 ^ 128 ∧
      credit + elapsed.nanos * ticksPerSecond < 2 ^ 128) := by
  -- to drop what is carried is to start anew
  obtain rfl : start = ofRate rate := by
    rcases hstart with rfl | ⟨s, rfl, rfl⟩
    · rfl
    · rfl
  have hsteps := telescope Call.steps stepCredit fun call h => by
    have hbalance := steps_balance (hcount call h)
    rw [rate_of_mem_calls h] at hbalance
    exact hbalance
  have hticks := telescope Call.ticks tickCredit fun call h => ticks_balance (hcount call h)
  have hunit : 0 < nanosPerSecond := by decide
  have hstepCredit : ((ofRate rate).after given).stepCredit < nanosPerSecond :=
    credit_after_lt stepCredit (fun _ _ => drain_lt _ _ _) hunit
  have htickCredit : ((ofRate rate).after given).tickCredit < nanosPerSecond :=
    credit_after_lt tickCredit (fun _ _ => drain_lt _ _ _) hunit
  obtain ⟨hstepSum, hstepRest⟩ := eq_div_mod_of_balance hsteps hstepCredit
  obtain ⟨htickSum, htickRest⟩ := eq_div_mod_of_balance hticks htickCredit
  refine ⟨hstepSum, htickSum, hstepRest, htickRest, ?_, ?_⟩
  · intro call _ advance h
    exact ticks_of_advance h
  · intro credit hcredit elapsed
    exact ⟨credit_add_lt hcredit elapsed rate.toNat_lt, credit_add_lt hcredit elapsed (by decide)⟩

/-- A fresh machine for two stretches of time, neither of them a whole number of steps or
ticks. -/
def twoStretches : List (Machine × Duration) :=
  [(Machine.ofConfig Config.standard 0, ⟨16666667, by decide⟩),
    (Machine.ofConfig Config.standard 0, ⟨33333333, by decide⟩)]

/-- Together they are a twentieth of a second, which is 35 steps and 3 ticks. -/
theorem owed_exactly_twoStretches :
    (∀ call ∈ (ofRate 700).calls twoStretches, call.Countable) ∧
    (((ofRate 700).calls twoStretches).map Call.steps).sum = 35 ∧
    (((ofRate 700).calls twoStretches).map Call.ticks).sum = 3 ∧
    ((ofRate 700).after twoStretches).stepCredit = 0 ∧
    ((ofRate 700).after twoStretches).tickCredit = 0 := by
  have hcount : ∀ call ∈ (ofRate 700).calls twoStretches, call.Countable := by
    intro call h
    simp only [twoStretches, calls, scheduler_advance, List.mem_cons, List.not_mem_nil,
      or_false] at h
    rcases h with rfl | rfl
    · exact ⟨by decide, by decide⟩
    · exact ⟨by decide, by decide⟩
  obtain ⟨hsteps, hticks, hstepCredit, htickCredit, -, -⟩ :=
    owed_exactly 700 (ofRate 700) (Or.inl rfl) twoStretches hcount
  exact ⟨hcount, hsteps, hticks, hstepCredit, htickCredit⟩

end ChipVm.Scheduler
