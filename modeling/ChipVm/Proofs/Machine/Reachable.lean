/-
# Reachable machines

A machine is reachable when some history of operations leads to it from a machine as it is
switched on.  Time may be let pass by any scheduler, with whatever it carries over, and not
always by the same one.

Running until a stall and letting time pass are made of steps and ticks, so they keep what steps
and ticks keep.  Hence whatever holds of a fresh machine and is kept by every single event holds
of every reachable machine (`Machine.Reachable.of_kept`).
-/
import Mathlib.Tactic.Lemma
import ChipVm.Proofs.Machine.Moves

namespace ChipVm.Machine

/-- The machines that histories of operations lead to. -/
inductive Reachable : Machine → Prop where
  | start (config : Config) (entropy : UInt64) : Reachable (ofConfig config entropy)
  | load {m : Machine} (h : Reachable m) (program : List UInt8) :
      Reachable (m.loadProgram program).machine
  | reset {m : Machine} (h : Reachable m) (entropy : UInt64) : Reachable (m.reset entropy).machine
  | step {m : Machine} (h : Reachable m) : Reachable m.step.machine
  | run {m : Machine} (h : Reachable m) (limit : Nat) : Reachable (m.runUntilStall limit).machine
  | setKey {m : Machine} (h : Reachable m) (code : UInt8) (down : Bool) :
      Reachable (m.setKey code down).machine
  | tick {m : Machine} (h : Reachable m) : Reachable m.tickTimers
  | takeFrame {m : Machine} (h : Reachable m) : Reachable m.takeFrame.2
  | advance {m : Machine} (h : Reachable m) (s : Scheduler) (elapsed : Duration) :
      Reachable (s.advance m elapsed).machine

/-- What holds of a fresh machine and is kept by each single operation holds of every reachable
machine. -/
lemma Reachable.of_kept {P : Machine → Prop}
    (hstart : ∀ config entropy, P (ofConfig config entropy))
    (hload : ∀ m program, P m → P (m.loadProgram program).machine)
    (hreset : ∀ m entropy, P m → P (m.reset entropy).machine)
    (hstep : ∀ m, P m → P m.step.machine)
    (hkey : ∀ m code down, P m → P (m.setKey code down).machine)
    (htick : ∀ m, P m → P m.tickTimers)
    (htake : ∀ m, P m → P m.takeFrame.2) {m : Machine} (h : m.Reachable) : P m := by
  induction h with
  | start config entropy => exact hstart config entropy
  | load _ program ih => exact hload _ program ih
  | reset _ entropy ih => exact hreset _ entropy ih
  | step _ ih => exact hstep _ ih
  | run _ limit ih => exact (moves_runUntilStall _ limit).keeps hstep htick ih
  | setKey _ code down ih => exact hkey _ code down ih
  | tick _ ih => exact htick _ ih
  | takeFrame _ ih => exact htake _ ih
  | advance _ s elapsed ih =>
    obtain ⟨_, hmoves, -⟩ := s.moves_advance _ elapsed
    exact hmoves.keeps hstep htick ih

end ChipVm.Machine
