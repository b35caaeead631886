/-
# Events that commute with a step

Between two steps the timers tick, keys move and frames are taken.  Each of these concerns one
part of the machine that few instructions have to do with, so it makes no difference whether it
happens before or after a step, unless the step runs one of those instructions.  This holds also
of steps that fail, and of those that do nothing because the machine is halted or waits.

A tick, a key that nobody waits for and a frame that is taken are changes that are aside, so that
they commute with a step by `Machine.step_change`.  What remains is that the event itself comes to
the same after the step: the keypad still has nobody waiting on it, and the screen is as it was.
-/
import Mathlib.Tactic.Lemma
import ChipVm.Proofs.Machine.Independence
import ChipVm.Proofs.Machine.KeyWait
import ChipVm.Proofs.Machine.Reset

namespace ChipVm.Machine

variable {m : Machine} {i : Instruction}

/-! ## Keys -/

/-- Moving a key while nobody waits changes this key and nothing else. -/
lemma setKey_eq_adjust {code : UInt8} (hcode : code.toNat < keyCount)
    (h : m.keypad.awaiting = none) (down : Bool) :
    m.setKey code down
      = ⟨m.adjust id id fun keys => keys.set code.toNat down hcode, .ok (), #[]⟩ := by
  cases down with
  | false =>
    rw [setKey_release m hcode]
    rfl
  | true =>
    rw [setKey_press hcode h, ← h]
    rfl

lemma step_setKey {code : UInt8} (hcode : code.toNat < keyCount)
    (hkey : m.keypad.awaiting = none)
    (hkeys : ∀ i, m.upcoming = some i → i.usesKeys = false)
    (hwait : ∀ x, m.upcoming ≠ some (.awaitKey x)) (down : Bool) :
    (m.setKey code down).machine.step.result = m.step.result ∧
      (m.setKey code down).machine.step.machine = (m.step.machine.setKey code down).machine ∧
      (m.step.machine.setKey code down).result = (m.setKey code down).result := by
  -- the step did not make anybody wait, so the key does the same after it
  have hstill : m.step.machine.keypad.awaiting = none := by
    rw [keypad_step hwait]
    exact hkey
  have hstep := step_change (m := m)
    (aside_adjust id id fun keys => keys.set code.toNat down hcode)
    fun i hi => ignores_adjust (Or.inl rfl) (Or.inl rfl) (Or.inr (hkeys i hi))
  rw [setKey_eq_adjust hcode hkey, setKey_eq_adjust hcode hstill, hstep]
  exact ⟨rfl, rfl, rfl⟩

/-! ## Frames -/

lemma ignores_marked (h : i.usesScreen = false) (dirty : Bool) : Ignores i (marked · dirty) := by
  have hmark : Ignores i (adjust id (fun screen => { screen with dirty }) id) :=
    ignores_adjust (Or.inl rfl) (Or.inr h) (Or.inl rfl)
  exact hmark

/-- A step that runs no instruction of the screen leaves the screen as it is. -/
lemma screen_step_of_unused (h : ∀ i, m.upcoming = some i → i.usesScreen = false) :
    m.step.machine.screen = m.screen := by
  -- to put the screen in its own place changes nothing before the step, hence nothing after it
  have hfixed := step_fixed (m := m) (aside_adjust id (fun _ => m.screen) id)
    (fun i hi => ignores_adjust (Or.inl rfl) (Or.inr (h i hi)) (Or.inl rfl)) rfl
  rw [← hfixed]
  rfl

lemma step_takeFrame (h : ∀ i, m.upcoming = some i → i.usesScreen = false) :
    m.takeFrame.2.step.result = m.step.result ∧
      m.takeFrame.2.step.machine = m.step.machine.takeFrame.2 ∧
      m.takeFrame.1 = m.step.machine.takeFrame.1 := by
  have hstep := step_change (aside_marked false) fun i hi => ignores_marked (h i hi) false
  have hframe : m.takeFrame.1 = m.step.machine.takeFrame.1 :=
    congrArg (fun screen => screen.takeFrame.1) (screen_step_of_unused h).symm
  rw [takeFrame_snd, takeFrame_snd, hstep]
  exact ⟨rfl, rfl, hframe⟩

/-! ## All three -/

/-- A tick, a key that nobody waits for and the taking of a frame come to the same before a step
as after it, and so does the step, unless it runs an instruction that has to do with what they
concern. -/
theorem events_commute_with_step (m : Machine) :
    ((∀ i, m.upcoming = some i → i.usesTimers = false) →
      m.tickTimers.step.result = m.step.result ∧
      m.tickTimers.step.machine = m.step.machine.tickTimers) ∧
    (∀ (code : UInt8) (down : Bool), code.toNat < keyCount → m.keypad.awaiting = none →
      (∀ i, m.upcoming = some i → i.usesKeys = false) →
      (∀ x, m.upcoming ≠ some (.awaitKey x)) →
      (m.setKey code down).machine.step.result = m.step.result ∧
      (m.setKey code down).machine.step.machine = (m.step.machine.setKey code down).machine ∧
      (m.step.machine.setKey code down).result = (m.setKey code down).result) ∧
    ((∀ i, m.upcoming = some i → i.usesScreen = false) →
      m.takeFrame.2.step.result = m.step.result ∧
      m.takeFrame.2.step.machine = m.step.machine.takeFrame.2 ∧
      m.takeFrame.1 = m.step.machine.takeFrame.1) := by
  refine ⟨?_, ?_, step_takeFrame⟩
  · intro htimers
    have hstep := step_change aside_tickTimers fun i hi => ignores_tickTimers (htimers i hi)
    rw [hstep]
    exact ⟨rfl, rfl⟩
  · intro code down hcode hkey hkeys hwait
    exact step_setKey hcode hkey hkeys hwait down

/-- A machine that is about to load a register while its timers run and its screen is marked. -/
def loading : Machine :=
  { ((ofConfig Config.standard 0).loadProgram [0x60, 0x05]).machine with
    timers := ⟨1, 9⟩
    screen := ⟨Frame.blank, true⟩ }

lemma upcoming_loading : loading.upcoming = some (.loadByte Register.v0 5) := by
  obtain ⟨memory, heq, hread⟩ := loadProgram_word Config.standard 0 0x60 0x05
  rw [loading, heq]
  exact upcoming_eq_some.mpr ⟨rfl, rfl, 0x6005, fetch_of_read16 hread rfl⟩

/-- Neither its timers nor its keys nor its frame show whether they changed before the register
was loaded or after. -/
theorem events_commute_with_step_loading :
    loading.upcoming = some (.loadByte Register.v0 5) ∧
    loading.tickTimers.step.machine = loading.step.machine.tickTimers ∧
    (loading.setKey 0xF true).machine.step.machine
      = (loading.step.machine.setKey 0xF true).machine ∧
    loading.takeFrame.2.step.machine = loading.step.machine.takeFrame.2 ∧
    loading.takeFrame.1 = some Frame.blank ∧
    loading.step.machine.takeFrame.1 = some Frame.blank := by
  obtain ⟨htick, hkey, htake⟩ := events_commute_with_step loading
  have hup : ∀ i, loading.upcoming = some i → i = .loadByte Register.v0 5 := by
    intro i hi
    rw [upcoming_loading] at hi
    exact (Option.some.inj hi).symm
  have hnobody : loading.keypad.awaiting = none := by
    obtain ⟨memory, heq, -⟩ := loadProgram_word Config.standard 0 0x60 0x05
    rw [loading, heq]
    rfl
  obtain ⟨-, hframe, hsame⟩ := htake fun i hi => by rw [hup i hi]; rfl
  have htaken : loading.takeFrame.1 = some Frame.blank := rfl
  refine ⟨upcoming_loading, (htick fun i hi => by rw [hup i hi]; rfl).2,
    (hkey 0xF true (by decide) hnobody (fun i hi => by rw [hup i hi]; rfl) ?_).2.1, hframe, htaken,
    hsame ▸ htaken⟩
  intro x hx
  cases hup _ hx

end ChipVm.Machine
