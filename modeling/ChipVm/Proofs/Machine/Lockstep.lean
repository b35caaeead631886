/-
# Machines in lockstep

Two machines may differ in something that does not show in what they do.  They go in lockstep
when related machines look alike, take steps that come to the same, write the same into the
journal and leave related machines behind, and when ticks keep them related.  Running until a
stall and letting time pass are made of steps and ticks and decide by nothing but what steps come
to, so they come to the same on both machines as well (`Machine.Lockstep.runUntilStall`,
`Machine.Lockstep.advance`).  So does every operation (`Machine.Lockstep.perform`), and nothing
that is seen of a history tells the machines apart (`Machine.Lockstep.after`).  Nor does it
matter what entropy the resets in it are handed, where that does not show in related machines
(`Machine.Lockstep.after_of_same`).

As with what a history keeps, steps may be in lockstep only as long as the journal does not tell
of something; then the same holds of histories.
-/
import Mathlib.Data.List.Forall2
import Mathlib.Tactic.Lemma
import ChipVm.Proofs.Machine.History
import ChipVm.Proofs.Machine.Independence

namespace ChipVm

open Scheduler (Progress)

/-- Two advances under way have come to the same so far, with related machines. -/
structure Scheduler.Progress.Alike (R : Machine → Machine → Prop) (p q : Progress) : Prop where
  machine : R p.machine q.machine
  advance : p.advance = q.advance
  log : p.log = q.log

/-- Two replies come to the same, with related machines. -/
structure Console.Reply.Alike (R : Machine → Machine → Prop) (a b : Console.Reply) : Prop where
  machine : R a.console.machine b.console.machine
  result : a.result = b.result
  log : a.log = b.log

namespace Machine

/-- Two replies come to the same, with related machines. -/
structure Reply.Alike (R : Machine → Machine → Prop) {α : Type} (a b : Reply α) : Prop where
  machine : R a.machine b.machine
  result : a.result = b.result
  log : a.log = b.log

/-- A reply and the same reply with a change on top come to the same. -/
lemma Reply.alike_map {R : Machine → Machine → Prop} {α : Type} {change : Machine → Machine}
    (reply : Reply α) (h : R reply.machine (change reply.machine)) :
    reply.Alike R (reply.map change) :=
  ⟨h, rfl, rfl⟩

/-- Related machines look alike; they come to the same at every step of which the journal tells
nothing but `Q`, and stay related. -/
structure Lockstep (R : Machine → Machine → Prop) (Q : Log.Entry → Prop) : Prop where
  look : ∀ {a b}, R a b → a.screen.frame = b.screen.frame ∧ a.status = b.status
  step : ∀ {a b}, R a b → (∀ entry ∈ a.step.log, Q entry) → a.step.Alike R b.step
  tick : ∀ {a b}, R a b → R a.tickTimers b.tickTimers

/-- What is seen of a history: what each operation came to, and the frame and the status after
it. -/
def seen (m : Machine) : List Operation → List (Except AdvanceError Answer × Frame × Status)
  | [] => []
  | operation :: rest =>
    ((m.perform operation).result, (m.perform operation).console.machine.screen.frame,
        (m.perform operation).console.machine.status)
      :: (m.perform operation).console.machine.seen rest

end Machine

/-- That a command does the same to related machines, as far as this does not follow from what
steps and ticks do. -/
def Command.Respects (R : Machine → Machine → Prop) : Command → Prop
  | .load program => ∀ a b, R a b → (a.loadProgram program).Alike R (b.loadProgram program)
  | .reset entropy => ∀ a b, R a b → (a.reset entropy).Alike R (b.reset entropy)
  | .setKey code down => ∀ a b, R a b → (a.setKey code down).Alike R (b.setKey code down)
  | .takeFrame => ∀ a b, R a b → a.takeFrame.1 = b.takeFrame.1 ∧ R a.takeFrame.2 b.takeFrame.2
  | _ => True

/-- Two operations come to the same on related machines, as far as the journal tells nothing but
`Q`. -/
def Operation.Alike (R : Machine → Machine → Prop) (Q : Log.Entry → Prop)
    (operation operation' : Operation) : Prop :=
  ∀ a b, R a b → (∀ entry ∈ (a.perform operation).log, Q entry) →
    (a.perform operation).Alike R (b.perform operation')

/-- Two operations are the same, but for the entropy that a reset is handed. -/
inductive Operation.Same : Operation → Operation → Prop where
  | refl (operation : Operation) : Same operation operation
  | reset (scheduler : Scheduler) (entropy entropy' : UInt64) :
      Same ⟨.reset entropy, scheduler⟩ ⟨.reset entropy', scheduler⟩

/-! ## The journal of the first step is part of the whole -/

namespace Scheduler

lemma Progress.log_step {p : Progress} (h : p.advance.waiting = none) :
    p.step.1.log = p.log ++ p.machine.step.log := by
  rw [Progress.step, h]
  rcases p.machine.step with ⟨after, fault | (instruction | register | _), written⟩ <;> rfl

lemma mem_log_pace {steps ticks left : Nat} {p : Progress} {entry : Log.Entry}
    (h : entry ∈ p.step.1.log) : entry ∈ (pace steps ticks p (left + 1)).1.log := by
  rw [pace]
  rcases hturn : p.step with ⟨next, _ | fault⟩
  · rw [hturn] at h
    dsimp only
    split
    · obtain ⟨rest, hrest, -⟩ := moves_pace steps ticks
        (next.tickUntil (ticks * (steps - left) / steps)) left
      rw [hrest]
      exact Array.mem_append_left rest h
    · exact h
  · rw [hturn] at h
    exact h

lemma mem_log_advance {s : Scheduler} {m : Machine} {elapsed : Duration} {entry : Log.Entry}
    (h : entry ∈ (pace (s.owe elapsed).1 (s.owe elapsed).2.1 ⟨m, Advance.zero, #[]⟩
      (s.owe elapsed).1).1.log) : entry ∈ (s.advance m elapsed).log := by
  rw [advance]
  dsimp only
  split
  · rename_i p problem hpace
    rw [hpace] at h
    exact h
  · rename_i p hpace
    rw [hpace] at h
    exact Array.mem_push_of_mem _ h

end Scheduler

namespace Machine

/-- The journal of a run begins with that of its first step. -/
lemma mem_log_runFrom {m : Machine} {entry : Log.Entry} (h : entry ∈ m.step.log)
    (left taken : Nat) (log : Array Log.Entry) :
    entry ∈ (runFrom taken log m (left + 1)).log := by
  rw [runFrom]
  rcases hstep : m.step with ⟨after, result, written⟩
  rw [hstep] at h
  have hmem : entry ∈ log ++ written := Array.mem_append_right log h
  rcases result with fault | (instruction | register | _)
  · exact hmem
  · obtain ⟨rest, hrest, -⟩ := moves_runFrom after left (taken + 1) (log ++ written)
    show entry ∈ (runFrom (taken + 1) (log ++ written) after left).log
    rw [hrest]
    exact Array.mem_append_left rest hmem
  · exact hmem
  · exact hmem

namespace Lockstep

variable {R : Machine → Machine → Prop} {Q : Log.Entry → Prop} {a b : Machine} {p q : Progress}

/-! ## Running until a stall -/

lemma runFrom (h : Lockstep R Q) (hab : R a b) (left taken : Nat) (log : Array Log.Entry)
    (hlog : ∀ entry ∈ (runFrom taken log a left).log, Q entry) :
    (runFrom taken log a left).Alike R (runFrom taken log b left) := by
  induction left generalizing a b taken log with
  | zero => exact ⟨hab, rfl, rfl⟩
  | succ left ih =>
    have hstep := h.step hab fun entry hentry =>
      hlog entry (mem_log_runFrom hentry left taken log)
    rw [Machine.runFrom] at hlog
    rw [Machine.runFrom, Machine.runFrom]
    rcases ha : a.step with ⟨after, result, written⟩
    rcases hb : b.step with ⟨after', result', written'⟩
    rw [ha] at hlog
    rw [ha, hb] at hstep
    obtain ⟨hmachine, hresult, hwritten⟩ := hstep
    dsimp only at hmachine hresult hwritten
    subst hresult hwritten
    rcases result with fault | (instruction | register | _)
    · exact ⟨hmachine, rfl, rfl⟩
    · exact ih hmachine (taken + 1) (log ++ written) hlog
    · exact ⟨hmachine, rfl, rfl⟩
    · exact ⟨hmachine, rfl, rfl⟩

lemma runUntilStall (h : Lockstep R Q) (hab : R a b) (limit : Nat)
    (hlog : ∀ entry ∈ (a.runUntilStall limit).log, Q entry) :
    (a.runUntilStall limit).Alike R (b.runUntilStall limit) :=
  h.runFrom hab limit 0 #[] hlog

/-! ## Letting time pass -/

lemma tickTimes (h : Lockstep R Q) (hab : R a b) (times : Nat) :
    R (a.tickTimes times) (b.tickTimes times) := by
  induction times generalizing a b with
  | zero => exact hab
  | succ times ih => exact ih (h.tick hab)

lemma tickUntil (h : Lockstep R Q) (hpq : p.Alike R q) (due : Nat) :
    (p.tickUntil due).Alike R (q.tickUntil due) := by
  obtain ⟨hmachine, hadvance, hlog⟩ := hpq
  unfold Progress.tickUntil
  rw [← hadvance]
  exact ⟨h.tickTimes hmachine _, rfl, hlog⟩

/-- One turn of the pacing loop. -/
lemma progressStep (h : Lockstep R Q) (hpq : p.Alike R q)
    (hlog : ∀ entry ∈ p.step.1.log, Q entry) :
    p.step.1.Alike R q.step.1 ∧ p.step.2 = q.step.2 := by
  obtain ⟨hmachine, hadvance, hsame⟩ := hpq
  cases hwaiting : p.advance.waiting with
  | some register =>
    rw [Progress.step, Progress.step, ← hadvance, hwaiting]
    exact ⟨⟨hmachine, hadvance, hsame⟩, rfl⟩
  | none =>
    rw [Progress.log_step hwaiting] at hlog
    have hstep := h.step hmachine fun entry hentry =>
      hlog entry (Array.mem_append_right p.log hentry)
    rw [Progress.step, Progress.step, ← hadvance, hwaiting]
    rcases ha : p.machine.step with ⟨after, result, written⟩
    rcases hb : q.machine.step with ⟨after', result', written'⟩
    rw [ha, hb] at hstep
    obtain ⟨hafter, hresult, hwritten⟩ := hstep
    dsimp only at hafter hresult hwritten
    subst hresult hwritten
    rcases result with fault | outcome
    · dsimp only
      exact ⟨⟨hafter, rfl, congrArg (· ++ written) hsame⟩, rfl⟩
    · dsimp only
      refine ⟨?_, rfl⟩
      unfold Progress.note
      rw [← hadvance, ← hsame]
      cases outcome <;> exact ⟨hafter, rfl, rfl⟩

lemma pace (h : Lockstep R Q) (steps ticks : Nat) (hpq : p.Alike R q) (left : Nat)
    (hlog : ∀ entry ∈ (Scheduler.pace steps ticks p left).1.log, Q entry) :
    (Scheduler.pace steps ticks p left).1.Alike R (Scheduler.pace steps ticks q left).1 ∧
      (Scheduler.pace steps ticks p left).2 = (Scheduler.pace steps ticks q left).2 := by
  induction left generalizing p q with
  | zero => exact ⟨hpq, rfl⟩
  | succ left ih =>
    have hstep := h.progressStep hpq fun entry hentry =>
      hlog entry (Scheduler.mem_log_pace hentry)
    rw [Scheduler.pace] at hlog
    rw [Scheduler.pace, Scheduler.pace]
    rcases hp : p.step with ⟨next, problem⟩
    rcases hq : q.step with ⟨next', problem'⟩
    rw [hp] at hlog
    rw [hp, hq] at hstep
    obtain ⟨hnext, hproblem⟩ := hstep
    dsimp only at hnext hproblem
    subst hproblem
    rcases problem with _ | fault
    · dsimp only at hlog ⊢
      split
      · rename_i hfits
        rw [if_pos hfits] at hlog
        exact ih (h.tickUntil hnext _) hlog
      · exact ⟨hnext, rfl⟩
    · exact ⟨hnext, rfl⟩

/-- Letting time pass comes to the same on related machines. -/
lemma advance (h : Lockstep R Q) (hab : R a b) (s : Scheduler) (elapsed : Duration)
    (hlog : ∀ entry ∈ (s.advance a elapsed).log, Q entry) :
    R (s.advance a elapsed).machine (s.advance b elapsed).machine ∧
      (s.advance a elapsed).result = (s.advance b elapsed).result ∧
      (s.advance a elapsed).log = (s.advance b elapsed).log := by
  have hstart : (⟨a, Advance.zero, #[]⟩ : Progress).Alike R ⟨b, Advance.zero, #[]⟩ :=
    ⟨hab, rfl, rfl⟩
  have hpaced := h.pace (s.owe elapsed).1 (s.owe elapsed).2.1 hstart (s.owe elapsed).1
    fun entry hentry => hlog entry (Scheduler.mem_log_advance hentry)
  rw [Scheduler.advance, Scheduler.advance]
  dsimp only
  rcases hp : Scheduler.pace (s.owe elapsed).1 (s.owe elapsed).2.1 ⟨a, Advance.zero, #[]⟩
    (s.owe elapsed).1 with ⟨p, problem⟩
  rcases hq : Scheduler.pace (s.owe elapsed).1 (s.owe elapsed).2.1 ⟨b, Advance.zero, #[]⟩
    (s.owe elapsed).1 with ⟨q, problem'⟩
  rw [hp, hq] at hpaced
  obtain ⟨hpq, hproblem⟩ := hpaced
  dsimp only at hpq hproblem
  subst hproblem
  rcases problem with _ | error
  · obtain ⟨hmachine, hadvance, hsame⟩ := h.tickUntil hpq (s.owe elapsed).2.1
    refine ⟨hmachine, congrArg Except.ok hadvance, ?_⟩
    dsimp only
    rw [hadvance, hsame]
  · exact ⟨hpq.machine, rfl, hpq.log⟩

/-! ## Operations -/

/-- A command that concerns the machine alone comes to the same if its reply does. -/
lemma ofMachineReply {α : Type} {x y : Reply α} (hxy : x.Alike R y) (answer : α → Answer)
    (c d : Console) : (c.ofMachineReply answer x).Alike R (d.ofMachineReply answer y) := by
  obtain ⟨hmachine, hresult, hlog⟩ := hxy
  refine ⟨hmachine, ?_, hlog⟩
  rw [Console.ofMachineReply, Console.ofMachineReply, hresult]

/-- The step lemma: one operation on related machines. -/
lemma perform (h : Lockstep R Q) (hab : R a b) {operation : Operation}
    (hcommand : operation.command.Respects R)
    (hlog : ∀ entry ∈ (a.perform operation).log, Q entry) :
    (a.perform operation).Alike R (b.perform operation) := by
  obtain ⟨command, scheduler⟩ := operation
  cases command with
  | load program => exact ofMachineReply (hcommand a b hab) _ _ _
  | reset entropy =>
    exact ofMachineReply (hcommand a b hab) (fun _ => .done) ⟨a, scheduler⟩ ⟨b, scheduler⟩
  | step => exact ofMachineReply (h.step hab hlog) _ _ _
  | run limit => exact ofMachineReply (h.runUntilStall hab limit hlog) _ _ _
  | setKey code down => exact ofMachineReply (hcommand a b hab) _ _ _
  | tick times => exact ⟨h.tickTimes hab times, rfl, rfl⟩
  | takeFrame =>
    obtain ⟨hframe, hmachine⟩ := hcommand a b hab
    exact ⟨hmachine, congrArg (fun frame => Except.ok (Answer.frame frame)) hframe, rfl⟩
  | advance elapsed =>
    obtain ⟨hmachine, hresult, hwritten⟩ := h.advance hab scheduler elapsed hlog
    exact ⟨hmachine, congrArg (Except.map Answer.advanced) hresult, hwritten⟩
  | resetScheduler => exact ⟨hab, rfl, rfl⟩

/-- The run lemma: two histories whose operations come to the same one by one. -/
lemma after_of_alike (h : Lockstep R Q) (hab : R a b) {history history' : List Operation}
    (hhistory : List.Forall₂ (Operation.Alike R Q) history history')
    (hlog : ∀ entry ∈ a.journal history, Q entry) :
    R (a.after history) (b.after history') ∧ a.seen history = b.seen history' := by
  induction hhistory generalizing a b with
  | nil => exact ⟨hab, rfl⟩
  | cons hfirst _ ih =>
    obtain ⟨hmachine, hresult, -⟩ := hfirst a b hab fun entry hentry =>
      hlog entry (List.mem_append_left _ (Array.mem_toList_iff.mpr hentry))
    obtain ⟨hafter, hseen⟩ := ih hmachine fun entry hentry =>
      hlog entry (List.mem_append_right _ hentry)
    obtain ⟨hframe, hstatus⟩ := h.look hmachine
    refine ⟨hafter, ?_⟩
    rw [seen, seen, hresult, hframe, hstatus, hseen]

/-- A history of operations on related machines. -/
lemma after (h : Lockstep R Q) (hab : R a b) {history : List Operation}
    (hcommand : ∀ operation ∈ history, operation.command.Respects R)
    (hlog : ∀ entry ∈ a.journal history, Q entry) :
    R (a.after history) (b.after history) ∧ a.seen history = b.seen history :=
  h.after_of_alike hab (List.forall₂_same.mpr fun operation hmem _ _ hab' hlog' =>
    h.perform hab' (hcommand operation hmem) hlog') hlog

/-- Two histories that are the same but for the entropy of their resets, if the entropy of a reset
does not tell related machines apart. -/
lemma after_of_same (h : Lockstep R Q) (hab : R a b)
    (hcommand : ∀ command : Command, command.Respects R)
    (hreset : ∀ a b entropy entropy', R a b → (a.reset entropy).Alike R (b.reset entropy'))
    {history history' : List Operation}
    (hsame : List.Forall₂ Operation.Same history history')
    (hlog : ∀ entry ∈ a.journal history, Q entry) :
    R (a.after history) (b.after history') ∧ a.seen history = b.seen history' := by
  refine h.after_of_alike hab (hsame.imp ?_) hlog
  intro operation operation' hpair a b hab hlog
  cases hpair with
  | refl => exact h.perform hab (hcommand operation.command) hlog
  | reset scheduler entropy entropy' =>
    exact ofMachineReply (hreset a b entropy entropy' hab) (fun _ => .done) ⟨a, scheduler⟩
      ⟨b, scheduler⟩

end Lockstep

end Machine

end ChipVm
