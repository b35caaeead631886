/-
# The course of a history

Most operations are single events: a program is loaded, a key moves, a step is taken.  Running
until a stall and letting time pass are loops: they take steps, and ticks in between, until they
have reason to stop.  The course of a history is the list of single events that its operations
come to when these loops are unrolled (`Machine.events`).

It is an account of the history: the events lead to the same machine, and the instructions that
run in them are those of which the journal tells, in the same order (`Machine.accounts_events`).
So what is to be said of every step in a history, also of those within a loop, can be said of the
steps in a course.
-/
import Mathlib.Tactic.Lemma
import ChipVm.Proofs.Machine.History

namespace ChipVm

/-- The instruction of which an entry tells that it runs. -/
def Log.Entry.instruction? : Log.Entry → Option Instruction
  | .executing _ i _ => some i
  | _ => none

namespace Machine

variable {m mid after : Machine} {log : Array Log.Entry}

/-! ## Courses of events -/

/-- The machine after an event. -/
def undergo (m : Machine) : Event → Machine
  | .load program => (m.loadProgram program).machine
  | .reset entropy => (m.reset entropy).machine
  | .step => m.step.machine
  | .setKey code down => (m.setKey code down).machine
  | .tick => m.tickTimers
  | .takeFrame => m.takeFrame.2

/-- The machine after a course of events. -/
def course (m : Machine) : List Event → Machine
  | [] => m
  | event :: rest => (m.undergo event).course rest

/-- The instruction that runs in an event, if one does. -/
def runs (m : Machine) : Event → Option Instruction
  | .step => m.upcoming
  | _ => none

/-- The instructions that run in a course of events. -/
def ran (m : Machine) : List Event → List Instruction
  | [] => []
  | event :: rest => (m.runs event).toList ++ (m.undergo event).ran rest

lemma course_append (m : Machine) (first rest : List Event) :
    m.course (first ++ rest) = (m.course first).course rest := by
  induction first generalizing m with
  | nil => rfl
  | cons event first ih => exact ih (m.undergo event)

lemma ran_append (m : Machine) (first rest : List Event) :
    m.ran (first ++ rest) = m.ran first ++ (m.course first).ran rest := by
  induction first generalizing m with
  | nil => rfl
  | cons event first ih =>
    rw [List.cons_append, ran, ran, ih, List.append_assoc]
    rfl

/-- The events lead from one machine to another, and the instructions that run in them are those
of which the journal tells. -/
structure Accounts (m : Machine) (events : List Event) (log : Array Log.Entry)
    (after : Machine) : Prop where
  machine : m.course events = after
  ran : m.ran events = log.toList.filterMap Log.Entry.instruction?

namespace Accounts

variable {first rest : List Event} {written : Array Log.Entry}

lemma nil (m : Machine) : Accounts m [] #[] m := ⟨rfl, rfl⟩

lemma append (hfirst : Accounts m first log mid) (hrest : Accounts mid rest written after) :
    Accounts m (first ++ rest) (log ++ written) after := by
  obtain ⟨rfl, hran⟩ := hfirst
  obtain ⟨rfl, hran'⟩ := hrest
  refine ⟨course_append m first rest, ?_⟩
  rw [ran_append, hran, hran', Array.toList_append, List.filterMap_append]

/-- A journal that tells of no instruction accounts for an event that runs none. -/
lemma single {event : Event} (hruns : m.runs event = none)
    (hlog : ∀ entry ∈ log, entry.instruction? = none) :
    Accounts m [event] log (m.undergo event) := by
  refine ⟨rfl, ?_⟩
  have hnone : log.toList.filterMap Log.Entry.instruction? = [] :=
    List.filterMap_eq_nil_iff.mpr fun entry hentry => hlog entry (Array.mem_toList_iff.mp hentry)
  rw [hnone, Machine.ran, hruns]
  rfl

end Accounts

/-- The journal of a step tells of the instruction that it runs, once, and of no other. -/
lemma accounts_step (m : Machine) : Accounts m [.step] m.step.log m.step.machine := by
  refine ⟨rfl, ?_⟩
  suffices h : m.step.log.toList.filterMap Log.Entry.instruction? = m.upcoming.toList by
    rw [h]
    exact List.append_nil _
  cases hrun : m.halted with
  | some fault =>
    rw [step_halted hrun, upcoming, hrun]
    rfl
  | none =>
    cases hkey : m.keypad.awaiting with
    | some x =>
      rw [step_waiting hrun hkey, upcoming_waiting hkey]
      rfl
    | none =>
      rw [step_running hrun hkey, upcoming_running hrun hkey, cycle]
      cases hfetch : m.fetch with
      | error fault => rfl
      | ok found =>
        obtain ⟨op, i⟩ := found
        -- the entry about a wait that begins tells of no instruction
        have hepilogue : (epilogue i).toList.filterMap Log.Entry.instruction? = [] := by
          cases i <;> rfl
        cases hexecute : m.execute i with
        | error fault after => simp [hexecute, halt, Log.Entry.instruction?]
        | ok _ after => simp [hexecute, hepilogue, Log.Entry.instruction?]

/-- Steps and ticks are an account of what they lead to. -/
lemma Moves.accounts {events : List Event} (h : Moves m events log after) :
    Accounts m events log after := by
  induction h with
  | none m => exact .nil m
  | step _ ih => exact (accounts_step _).append ih
  | tick _ ih => exact ⟨ih.machine, ih.ran⟩

/-- What came of letting time pass is an entry about no instruction. -/
lemma accounts_advance (m : Machine) (s : Scheduler) (elapsed : Duration) :
    Accounts m (s.advanceEvents m elapsed) (s.advance m elapsed).log
      (s.advance m elapsed).machine := by
  obtain ⟨written, hmoves, hwritten⟩ := s.moves_advance m elapsed
  have haccounts := hmoves.accounts
  rcases hwritten with hsame | ⟨steps, ticks, hpushed⟩
  · rw [hsame]
    exact haccounts
  · refine ⟨haccounts.machine, ?_⟩
    rw [haccounts.ran, hpushed, Array.toList_push, List.filterMap_append]
    exact (List.append_nil _).symm

/-! ## Histories -/

/-- The single events that an operation comes to. -/
def unrolled (m : Machine) (operation : Operation) : List Event :=
  match operation.command with
  | .load program => [.load program]
  | .reset entropy => [.reset entropy]
  | .step => [.step]
  | .run limit => m.runEvents limit
  | .setKey code down => [.setKey code down]
  | .tick times => List.replicate times .tick
  | .takeFrame => [.takeFrame]
  | .advance elapsed => operation.scheduler.advanceEvents m elapsed
  | .resetScheduler => []

/-- The course of a history. -/
def events (m : Machine) : List Operation → List Event
  | [] => []
  | operation :: rest =>
    m.unrolled operation ++ (m.perform operation).console.machine.events rest

/-- The step lemma: the events of one operation are an account of it. -/
lemma accounts_unrolled (m : Machine) (operation : Operation) :
    Accounts m (m.unrolled operation) (m.perform operation).log
      (m.perform operation).console.machine := by
  obtain ⟨command, scheduler⟩ := operation
  cases command with
  | load program =>
    refine .single rfl fun entry hentry => ?_
    rw [mem_log_loadProgram hentry]
    rfl
  | reset entropy => exact ⟨rfl, rfl⟩
  | step => exact m.accounts_step
  | run limit => exact (m.moves_runUntilStall limit).accounts
  | setKey code down =>
    refine .single rfl fun entry hentry => ?_
    obtain ⟨register, rfl⟩ := mem_log_setKey hentry
    rfl
  | tick times => exact (Moves.tickTimes m times).accounts
  | takeFrame => exact ⟨rfl, rfl⟩
  | advance elapsed => exact m.accounts_advance scheduler elapsed
  | resetScheduler => exact .nil m

/-- The run lemma: the course of a history is an account of it. -/
lemma accounts_events (m : Machine) (history : List Operation) :
    Accounts m (m.events history) (m.journal history).toArray (m.after history) := by
  induction history generalizing m with
  | nil => exact .nil m
  | cons operation rest ih =>
    have hall := (m.accounts_unrolled operation).append
      (ih (m.perform operation).console.machine)
    refine ⟨hall.machine, ?_⟩
    rw [events, hall.ran, journal]
    simp

end Machine

end ChipVm
