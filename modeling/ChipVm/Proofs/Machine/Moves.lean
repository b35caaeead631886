/-
# Steps and ticks

Running until a stall and letting time pass are loops.  Whatever makes them go on or stop, all
that they do to a machine is to take steps and to tick its timers, and but for what came of it in
the end their journals hold nothing that these steps have not written.

`Machine.Moves` is a sequence of steps and ticks that leads from one machine to another, with the
list of them and the journal that they write.  Each loop is gone through once, to show that it is
such a sequence (`Machine.moves_runUntilStall`, `Scheduler.moves_advance`).  What is to be said of
both loops follows by induction on the sequence, first of all that they keep what steps and ticks
keep, however long they go on (`Machine.Moves.keeps`).
-/
import Mathlib.Tactic.Lemma
import ChipVm.Pacing.Scheduler

namespace ChipVm

/-- A single thing that happens to a machine. -/
inductive Event where
  /-- A program is put into memory. -/
  | load (program : List UInt8)
  /-- The machine starts over; without a seed, its random bytes come from `entropy`. -/
  | reset (entropy : UInt64)
  /-- A step is taken. -/
  | step
  /-- A key moves. -/
  | setKey (code : UInt8) (down : Bool)
  /-- Both timers tick. -/
  | tick
  /-- The frame is taken if it changed. -/
  | takeFrame
deriving DecidableEq

namespace Machine

/-- Steps and ticks that lead from one machine to another and write this journal. -/
inductive Moves : Machine → List Event → Array Log.Entry → Machine → Prop where
  | none (m : Machine) : Moves m [] #[] m
  | step {m after : Machine} {events : List Event} {log : Array Log.Entry}
      (h : Moves m.step.machine events log after) :
      Moves m (.step :: events) (m.step.log ++ log) after
  | tick {m after : Machine} {events : List Event} {log : Array Log.Entry}
      (h : Moves m.tickTimers events log after) : Moves m (.tick :: events) log after

variable {P : Machine → Prop}

namespace Moves

variable {m mid after : Machine} {events later : List Event} {log written : Array Log.Entry}

lemma trans (h : Moves m events log mid) (hlater : Moves mid later written after) :
    Moves m (events ++ later) (log ++ written) after := by
  induction h with
  | none m => simpa using hlater
  | step _ ih =>
    rw [Array.append_assoc]
    exact .step (ih hlater)
  | tick _ ih => exact .tick (ih hlater)

lemma one (m : Machine) : Moves m [.step] m.step.log m.step.machine := by
  simpa using Moves.step (Moves.none m.step.machine)

lemma tickTimes (m : Machine) (times : Nat) :
    Moves m (List.replicate times .tick) #[] (m.tickTimes times) := by
  induction times generalizing m with
  | zero => exact .none m
  | succ times ih => exact .tick (ih m.tickTimers)

/-- Ticks write nothing. -/
lemma ticked (h : Moves m events log mid) (times : Nat) :
    Moves m (events ++ List.replicate times .tick) log (mid.tickTimes times) := by
  simpa using h.trans (tickTimes mid times)

/-- What is kept by every tick, and by every step of which the journal says something, is kept
by a sequence of whose whole journal this can be said. -/
lemma keeps_unless {Q : Log.Entry → Prop}
    (hstep : ∀ m, P m → (∀ entry ∈ m.step.log, Q entry) → P m.step.machine)
    (htick : ∀ m, P m → P m.tickTimers) (h : Moves m events log after) (hm : P m)
    (hlog : ∀ entry ∈ log, Q entry) : P after := by
  induction h with
  | none m => exact hm
  | step _ ih =>
    refine ih (hstep _ hm fun entry hentry => hlog entry ?_) fun entry hentry => hlog entry ?_
    · exact Array.mem_append_left _ hentry
    · exact Array.mem_append_right _ hentry
  | tick _ ih => exact ih (htick _ hm) hlog

/-- What is kept by every step and every tick is kept by a sequence of them. -/
lemma keeps (hstep : ∀ m, P m → P m.step.machine) (htick : ∀ m, P m → P m.tickTimers)
    (h : Moves m events log after) (hm : P m) : P after :=
  h.keeps_unless (Q := fun _ => True) (fun m hm _ => hstep m hm) htick hm fun _ _ => trivial

end Moves

/-- Ticks alone keep what every tick keeps. -/
lemma tickTimes_keeps (htick : ∀ m, P m → P m.tickTimers) {m : Machine} (h : P m) (times : Nat) :
    P (m.tickTimes times) := by
  induction times generalizing m with
  | zero => exact h
  | succ times ih => exact ih (htick m h)

/-! ## Running until a stall -/

/-- The steps that are taken when a machine is run until it stalls. -/
def runEvents (m : Machine) : Nat → List Event
  | 0 => []
  | left + 1 =>
    match m.step.result with
    | .ok (.executed _) => .step :: m.step.machine.runEvents left
    | _ => [.step]

lemma moves_runFrom (m : Machine) (left taken : Nat) (log : Array Log.Entry) :
    ∃ written, (runFrom taken log m left).log = log ++ written ∧
      Moves m (m.runEvents left) written (runFrom taken log m left).machine := by
  induction left generalizing m taken log with
  | zero => exact ⟨#[], by simp [runFrom], .none m⟩
  | succ left ih =>
    have hone := Moves.one m
    rw [runFrom, runEvents]
    rcases hreply : m.step with ⟨after, result, written⟩
    rw [hreply] at hone
    -- only after an instruction that did not stall does the run go on
    rcases result with fault | (instruction | register | _)
    · exact ⟨written, rfl, hone⟩
    · obtain ⟨rest, hlog, hrest⟩ := ih after (taken + 1) (log ++ written)
      exact ⟨written ++ rest, by rw [hlog, Array.append_assoc], hone.trans hrest⟩
    · exact ⟨written, rfl, hone⟩
    · exact ⟨written, rfl, hone⟩

lemma moves_runUntilStall (m : Machine) (limit : Nat) :
    Moves m (m.runEvents limit) (m.runUntilStall limit).log (m.runUntilStall limit).machine := by
  obtain ⟨written, hlog, hmoves⟩ := moves_runFrom m limit 0 #[]
  rw [runUntilStall, hlog, Array.empty_append]
  exact hmoves

end Machine

/-! ## Letting time pass -/

namespace Scheduler

open Machine (Moves)

/-- The step of one turn of the pacing loop, which is left out once the machine has been found
waiting. -/
def Progress.turnEvents (p : Progress) : List Event :=
  match p.advance.waiting with
  | some _ => []
  | none => [.step]

/-- The ticks that are due after a turn. -/
def Progress.tickEvents (p : Progress) (due : Nat) : List Event :=
  List.replicate (due - p.advance.ticks) .tick

/-- The steps and ticks of the pacing loop. -/
def paceEvents (steps ticks : Nat) (p : Progress) : Nat → List Event
  | 0 => []
  | left + 1 =>
    p.turnEvents ++
      match p.step with
      | (_, some _) => []
      | (next, none) =>
        if ticks * (steps - left) < wordBound then
          next.tickEvents (ticks * (steps - left) / steps) ++
            paceEvents steps ticks (next.tickUntil (ticks * (steps - left) / steps)) left
        else
          []

/-- The steps and ticks that are taken when time is let pass. -/
def advanceEvents (s : Scheduler) (m : Machine) (elapsed : Duration) : List Event :=
  let (steps, ticks, _) := s.owe elapsed
  paceEvents steps ticks ⟨m, Advance.zero, #[]⟩ steps ++
    match pace steps ticks ⟨m, Advance.zero, #[]⟩ steps with
    | (_, some _) => []
    | (p, none) => p.tickEvents ticks

lemma Progress.moves_turn (p : Progress) :
    ∃ written, p.step.1.log = p.log ++ written ∧
      Moves p.machine p.turnEvents written p.step.1.machine := by
  rw [Progress.step, Progress.turnEvents]
  cases p.advance.waiting with
  | some register => exact ⟨#[], by simp, .none p.machine⟩
  | none =>
    have hone := Moves.one p.machine
    rcases hreply : p.machine.step with ⟨after, fault | (instruction | register | _), written⟩
      <;> rw [hreply] at hone <;> exact ⟨written, rfl, hone⟩

lemma moves_pace (steps ticks : Nat) (p : Progress) (left : Nat) :
    ∃ written, (pace steps ticks p left).1.log = p.log ++ written ∧
      Moves p.machine (paceEvents steps ticks p left) written
        (pace steps ticks p left).1.machine := by
  induction left generalizing p with
  | zero => exact ⟨#[], by simp [pace], .none p.machine⟩
  | succ left ih =>
    obtain ⟨written, hlog, hturn⟩ := p.moves_turn
    rw [pace, paceEvents]
    rcases hstep : p.step with ⟨next, _ | fault⟩
    · rw [hstep] at hlog hturn
      dsimp only at hlog hturn ⊢
      -- the ticks that are due come before the next turn, unless their number cannot be formed
      split
      · obtain ⟨rest, hrestLog, hrest⟩ := ih (next.tickUntil (ticks * (steps - left) / steps))
        have hticked := hturn.ticked (ticks * (steps - left) / steps - next.advance.ticks)
        refine ⟨written ++ rest, ?_, ?_⟩
        · rw [hrestLog, ← Array.append_assoc, ← hlog]
          rfl
        · rw [← List.append_assoc]
          exact hticked.trans hrest
      · rw [List.append_nil]
        exact ⟨written, hlog, hturn⟩
    · rw [hstep] at hlog hturn
      dsimp only at hlog hturn ⊢
      rw [List.append_nil]
      exact ⟨written, hlog, hturn⟩

/-- Letting time pass takes steps and ticks.  Beyond what these have written, the journal of the
whole tells at most what came of it. -/
lemma moves_advance (s : Scheduler) (m : Machine) (elapsed : Duration) :
    ∃ written, Moves m (s.advanceEvents m elapsed) written (s.advance m elapsed).machine ∧
      ((s.advance m elapsed).log = written ∨ ∃ steps ticks,
        (s.advance m elapsed).log = written.push (.advanced elapsed steps ticks)) := by
  obtain ⟨written, hlog, hmoves⟩ :=
    moves_pace (s.owe elapsed).1 (s.owe elapsed).2.1 ⟨m, Advance.zero, #[]⟩ (s.owe elapsed).1
  rw [Array.empty_append] at hlog
  subst hlog
  rw [advance, advanceEvents]
  dsimp only
  rcases hpace : pace (s.owe elapsed).1 (s.owe elapsed).2.1 ⟨m, Advance.zero, #[]⟩
    (s.owe elapsed).1 with ⟨p, _ | problem⟩
  · rw [hpace] at hmoves
    exact ⟨_, hmoves.ticked ((s.owe elapsed).2.1 - p.advance.ticks), Or.inr ⟨_, _, rfl⟩⟩
  · rw [hpace] at hmoves
    dsimp only at hmoves ⊢
    rw [List.append_nil]
    exact ⟨_, hmoves, Or.inl rfl⟩

end Scheduler

end ChipVm
