/-
# Which keys are down

Whether a key is down is the business of whoever operates the keypad.  A program reads it, by
skipping an instruction if a key is down or if it is not, but nothing that a program does changes
it: not an instruction, not a key wait and its end, not a fault.

So a key is down exactly when the last thing that happened to it, since the machine was switched on
or last reset, is that it was pressed (`Event.Held`).  `Machine.isPressed_undergo` is the step
lemma, for a single event, and `Machine.isPressed_course` carries it over a course of events.
-/
import Mathlib.Tactic.Lemma
import Mathlib.Data.List.Induction
import ChipVm.Proofs.Machine.Course
import ChipVm.Proofs.Machine.KeyWait

namespace ChipVm

namespace Event

variable {code : UInt8} {events : List Event} {event : Event}

/-! ## The last thing that happened to a key -/

/-- The event says where the key is, whatever was before: the key moves, or the machine starts
over. -/
def Settles (code : UInt8) (event : Event) : Prop :=
  (∃ down, event = .setKey code down) ∨ ∃ entropy, event = .reset entropy

/-- The last event that says where the key is, is a press of it. -/
def LastPressed (code : UInt8) (events : List Event) : Prop :=
  ∃ earlier later, events = earlier ++ .setKey code true :: later ∧
    ∀ event ∈ later, ¬event.Settles code

/-- The key exists, and the last thing that happened to it is that it was pressed. -/
def Held (code : UInt8) (events : List Event) : Prop :=
  code.toNat < keyCount ∧ LastPressed code events

lemma not_lastPressed_nil : ¬LastPressed code [] := by
  rintro ⟨earlier, later, hsplit, -⟩
  exact List.append_ne_nil_of_right_ne_nil earlier (List.cons_ne_nil _ later) hsplit.symm

/-- One more event says where the key is, or leaves that to the events before it. -/
lemma lastPressed_concat :
    LastPressed code (events ++ [event]) ↔
      event = .setKey code true ∨ (¬event.Settles code ∧ LastPressed code events) := by
  constructor
  · rintro ⟨earlier, later, hsplit, hlater⟩
    rcases List.eq_nil_or_concat later with rfl | ⟨later, last, rfl⟩
    · exact Or.inl (List.append_singleton_inj.mp hsplit).2
    · rw [List.concat_eq_append] at hsplit hlater
      rw [← List.cons_append, ← List.append_assoc] at hsplit
      obtain ⟨hevents, rfl⟩ := List.append_singleton_inj.mp hsplit
      refine Or.inr ⟨hlater event (by simp), earlier, later, hevents, ?_⟩
      exact fun other hother => hlater other (List.mem_append_left _ hother)
  · rintro (rfl | ⟨hother, earlier, later, rfl, hlater⟩)
    · exact ⟨events, [], rfl, nofun⟩
    · refine ⟨earlier, later ++ [event], by simp, ?_⟩
      intro other hmem
      rcases List.mem_append.mp hmem with hbefore | hlast
      · exact hlater other hbefore
      · rw [List.mem_singleton.mp hlast]
        exact hother

/-! ## What is done from outside -/

/-- Whether the event is the move of a key or a reset. -/
def isInput : Event → Bool
  | .setKey _ _ => true
  | .reset _ => true
  | _ => false

/-- The move of a key, or the reset, that a command stands for. -/
def ofCommand? : Command → Option Event
  | .setKey code down => some (.setKey code down)
  | .reset entropy => some (.reset entropy)
  | _ => none

end Event

namespace Machine

open Event (Held)

variable {m : Machine} {code : UInt8} {event : Event}

/-- Steps and ticks move no key and reset nothing. -/
lemma Moves.filter_isInput {events : List Event} {log : Array Log.Entry} {after : Machine}
    (h : Moves m events log after) : events.filter Event.isInput = [] := by
  induction h with
  | none m => rfl
  | step _ ih => exact ih
  | tick _ ih => exact ih

/-- The loops within a history move no key and reset nothing: the moves and resets in its course
are the commands that were given. -/
lemma filter_isInput_events (m : Machine) (history : List Operation) :
    (m.events history).filter Event.isInput
      = history.filterMap fun operation => Event.ofCommand? operation.command := by
  induction history generalizing m with
  | nil => rfl
  | cons operation rest ih =>
    have hfirst : (m.unrolled operation).filter Event.isInput
        = (Event.ofCommand? operation.command).toList := by
      obtain ⟨command, scheduler⟩ := operation
      cases command with
      | run limit => exact (m.moves_runUntilStall limit).filter_isInput
      | advance elapsed =>
        obtain ⟨_, hmoves, -⟩ := scheduler.moves_advance m elapsed
        exact hmoves.filter_isInput
      | tick times => exact (Moves.tickTimes m times).filter_isInput
      | _ => rfl
    rw [events, List.filter_append, hfirst, ih, List.filterMap_cons]
    cases Event.ofCommand? operation.command <;> rfl

/-! ## What an event does to the keys -/

lemma keys_step (m : Machine) : m.step.machine.keypad.keys = m.keypad.keys := by
  rcases m.step_cases with ⟨halted, hstep⟩ | ⟨i, flow, mid, -, heffect, hstep⟩
  · rw [hstep]
  · rw [hstep, keypad_follow]
    rcases heffect.keypad with hsame | ⟨x, -, hwait⟩
    · rw [hsame]
    · rw [hwait]
      rfl

/-- A key that exists goes where it is moved, whether or not a register waits for it. -/
lemma keys_setKey (m : Machine) (hcode : code.toNat < keyCount) (down : Bool) :
    (m.setKey code down).machine.keypad.keys = m.keypad.keys.set code.toNat down hcode := by
  cases down with
  | false => rw [setKey_release m hcode]
  | true =>
    cases h : m.keypad.awaiting with
    | none => rw [setKey_press hcode h]
    | some x => rw [setKey_resume hcode h]

lemma isPressed_congr {keypad other : Keypad} (h : keypad.keys = other.keys) (code : UInt8) :
    keypad.isPressed code = other.isPressed code := by
  rw [Keypad.isPressed, Keypad.isPressed, h]

lemma lt_of_isPressed {keypad : Keypad} (h : keypad.isPressed code = true) :
    code.toNat < keyCount := by
  unfold Keypad.isPressed at h
  split at h
  · assumption
  · cases h

lemma isPressed_setKey_self (m : Machine) (hcode : code.toNat < keyCount) (down : Bool) :
    (m.setKey code down).machine.keypad.isPressed code = down := by
  rw [Keypad.isPressed, dif_pos hcode]
  simp only [m.keys_setKey hcode, Vector.getElem_set_self]

lemma isPressed_setKey_of_ne (m : Machine) {moved : UInt8} (h : moved ≠ code) (down : Bool) :
    (m.setKey moved down).machine.keypad.isPressed code = m.keypad.isPressed code := by
  rcases Nat.lt_or_ge moved.toNat keyCount with hmoved | hmoved
  · have hplaces : moved.toNat ≠ code.toNat := fun hsame => h (UInt8.toNat_inj.mp hsame)
    simp only [Keypad.isPressed, m.keys_setKey hmoved]
    split
    · rw [Vector.getElem_set_ne _ _ hplaces]
    · rfl
  · rw [setKey_absent m hmoved]

/-- The step lemma: an event that does not say where the key is leaves it there. -/
lemma isPressed_undergo (m : Machine) (h : ¬event.Settles code) :
    (m.undergo event).keypad.isPressed code = m.keypad.isPressed code := by
  cases event with
  | load program =>
    obtain ⟨memory, hload⟩ := m.loadProgram_machine program
    rw [undergo, hload]
  | reset entropy => exact absurd (Or.inr ⟨entropy, rfl⟩) h
  | step => exact isPressed_congr m.keys_step code
  | setKey moved down =>
    refine m.isPressed_setKey_of_ne ?_ down
    rintro rfl
    exact h (Or.inl ⟨down, rfl⟩)
  | tick => rfl
  | takeFrame => rfl

lemma isPressed_released (code : UInt8) : Keypad.released.isPressed code = false := by
  rw [Keypad.isPressed]
  split
  · exact Vector.getElem_replicate _
  · rfl

/-- The run lemma: a course of events from where all keys are up. -/
lemma isPressed_course (hup : m.keypad = .released) (events : List Event) :
    (m.course events).keypad.isPressed code = true ↔ Held code events := by
  rw [Held]
  induction events using List.reverseRecOn with
  | nil => simp [course, hup, isPressed_released, Event.not_lastPressed_nil]
  | append_singleton events event ih =>
    rw [course_append, course, course, Event.lastPressed_concat]
    by_cases hsettles : event.Settles code
    · rcases hsettles with ⟨down, rfl⟩ | ⟨entropy, rfl⟩
      · rcases Nat.lt_or_ge code.toNat keyCount with hcode | hcode
        · rw [undergo, isPressed_setKey_self _ hcode]
          simp [hcode, Event.Settles]
        -- a key that does not exist is not down after it was pressed either
        · have hnot : ¬code.toNat < keyCount := Nat.not_lt.mpr hcode
          simp only [hnot, false_and, iff_false]
          exact fun h => hnot (lt_of_isPressed h)
      · have hkeypad : ((m.course events).undergo (.reset entropy)).keypad = .released := rfl
        rw [hkeypad, isPressed_released]
        simp [Event.Settles]
    · rw [isPressed_undergo _ hsettles, ih]
      have hpress : event ≠ .setKey code true := by
        rintro rfl
        exact hsettles (Or.inl ⟨true, rfl⟩)
      simp [hsettles, hpress]

/-! ## Skips -/

/-- A skip always runs, and goes two instructions on if its condition is met. -/
lemma step_skip {condition : Condition} (h : m.upcoming = some (.skip condition)) :
    m.step.result = .ok (.executed (.skip condition)) ∧
      m.step.machine.registers.pc.toNat
        = m.registers.pc.toNat + if m.meets condition then 4 else 2 := by
  obtain ⟨hafter, hresult⟩ := step_of_execute h rfl
  obtain ⟨-, -, op, hfetch⟩ := upcoming_eq_some.mp h
  have hpc : m.registers.pc.toNat ≤ 0x10FE := Nat.le_trans (fetch_ok hfetch).1 (by decide)
  refine ⟨hresult, ?_⟩
  rw [hafter]
  split
  · exact m.registers.toNat_pc_skip hpc
  · exact m.registers.toNat_pc_advance hpc

/-- A skip on a key follows the last thing that happened to that key.  The history comes to a
course of single events, in which the instructions run of which the journal tells, and the keys
move and the machine is reset as was commanded; wherever a step of this course runs a skip on a
key, it skips if the key is held, or else if it is not.  Nothing but its own moves and a reset
changes whether a key is down. -/
theorem key_skips_follow_last_event (config : Config) (entropy : UInt64) (m : Machine)
    (hm : m = ofConfig config entropy) (history : List Operation) :
    m.course (m.events history) = m.after history ∧
    m.ran (m.events history) = (m.journal history).filterMap Log.Entry.instruction? ∧
    (m.events history).filter Event.isInput
      = history.filterMap (fun operation => Event.ofCommand? operation.command) ∧
    (∀ before rest x now code, m.events history = before ++ .step :: rest →
      now = m.course before → code = now.registers.get x →
      (now.upcoming = some (.skip (.pressed x)) →
        now.step.result = .ok (.executed (.skip (.pressed x))) ∧
        (Held code before →
          now.step.machine.registers.pc.toNat = now.registers.pc.toNat + 4) ∧
        (¬Held code before →
          now.step.machine.registers.pc.toNat = now.registers.pc.toNat + 2)) ∧
      (now.upcoming = some (.skip (.released x)) →
        now.step.result = .ok (.executed (.skip (.released x))) ∧
        (¬Held code before →
          now.step.machine.registers.pc.toNat = now.registers.pc.toNat + 4) ∧
        (Held code before →
          now.step.machine.registers.pc.toNat = now.registers.pc.toNat + 2))) ∧
    (∀ (now : Machine) (event : Event) (code : UInt8),
      (∀ entropy, event ≠ .reset entropy) →
      (∀ down, event = .setKey code down → keyCount ≤ code.toNat) →
      (now.undergo event).keypad.isPressed code = now.keypad.isPressed code) := by
  obtain ⟨hmachine, hran⟩ := m.accounts_events history
  refine ⟨hmachine, hran, m.filter_isInput_events history, ?_, ?_⟩
  · rintro before rest x now code - rfl rfl
    have hkeypad : m.keypad = .released := by rw [hm]; rfl
    have hheld : (m.course before).keypad.isPressed ((m.course before).registers.get x) = true ↔
        Held ((m.course before).registers.get x) before := isPressed_course hkeypad before
    constructor
    · intro hup
      obtain ⟨hresult, hpc⟩ := step_skip hup
      refine ⟨hresult, fun h => ?_, fun h => ?_⟩
      · rw [hpc, meets, hheld.mpr h]
        rfl
      · rw [hpc, meets, Bool.eq_false_iff.mpr fun hp => h (hheld.mp hp)]
        rfl
    · intro hup
      obtain ⟨hresult, hpc⟩ := step_skip hup
      refine ⟨hresult, fun h => ?_, fun h => ?_⟩
      · rw [hpc, meets, Bool.eq_false_iff.mpr fun hp => h (hheld.mp hp)]
        rfl
      · rw [hpc, meets, hheld.mpr h]
        rfl
  · intro now event code hreset hkey
    by_cases hsettles : event.Settles code
    · rcases hsettles with ⟨down, rfl⟩ | ⟨entropy, rfl⟩
      · rw [undergo, setKey_absent now (hkey down rfl)]
      · exact absurd rfl (hreset entropy)
    · exact now.isPressed_undergo hsettles

/-- A program that skips if the key named by V0 is down. -/
def skipOnKey : List UInt8 := [0xE0, 0x9E]

/-- Key 0 goes down, key 4 goes down and up, and there is no key 16. -/
def fingers : List Event :=
  [.load skipOnKey, .setKey 0 true, .setKey 4 true, .setKey 4 false, .setKey 16 false]

/-- Loads that program, moves these keys and takes a step. -/
def skipOverKeys : List Operation :=
  [⟨.load skipOnKey, Scheduler.ofRate 700⟩, ⟨.setKey 0 true, Scheduler.ofRate 700⟩,
    ⟨.setKey 4 true, Scheduler.ofRate 700⟩, ⟨.setKey 4 false, Scheduler.ofRate 700⟩,
    ⟨.setKey 16 false, Scheduler.ofRate 700⟩, ⟨.step, Scheduler.ofRate 700⟩]

/-- Key 0 is still held, so the step goes two instructions on. -/
theorem key_skips_follow_last_event_fingers :
    (ofConfig Config.standard 0).events skipOverKeys = fingers ++ .step :: [] ∧
    Held 0 fingers ∧
    ((ofConfig Config.standard 0).course fingers).upcoming
      = some (.skip (.pressed Register.v0)) ∧
    ((ofConfig Config.standard 0).course fingers).step.machine.registers.pc.toNat = 0x204 := by
  have hevents : (ofConfig Config.standard 0).events skipOverKeys = fingers ++ .step :: [] := rfl
  have hheld : Held 0 fingers := by
    refine ⟨by decide, [.load skipOnKey], _, rfl, ?_⟩
    simp [Event.Settles]
  obtain ⟨memory, heq, hread⟩ := loadProgram_word Config.standard 0 0xE0 0x9E
  have hparts : ((ofConfig Config.standard 0).course fingers).upcoming
        = some (.skip (.pressed Register.v0)) ∧
      ((ofConfig Config.standard 0).course fingers).registers = .initial := by
    rw [fingers, course, undergo, skipOnKey, heq]
    exact ⟨upcoming_eq_some.mpr ⟨rfl, rfl, 0xE09E, fetch_of_read16 hread rfl⟩, rfl⟩
  obtain ⟨hup, hregisters⟩ := hparts
  obtain ⟨-, -, -, hskips, -⟩ :=
    key_skips_follow_last_event Config.standard 0 _ rfl skipOverKeys
  have hcode : (0 : UInt8)
      = ((ofConfig Config.standard 0).course fingers).registers.get Register.v0 := by
    rw [hregisters]
    rfl
  have hpc := ((hskips fingers [] Register.v0 _ 0 hevents rfl hcode).1 hup).2.1 hheld
  refine ⟨hevents, hheld, hup, ?_⟩
  rw [hpc, hregisters]
  rfl

end Machine

end ChipVm
