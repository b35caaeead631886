/-
# What a renderer shows

A renderer keeps a copy of the frame.  It starts out blank, and whenever the machine hands out a
frame, that frame is its new copy.  The machine hands out a frame only if the screen is marked as
changed, so what the renderer shows is right only if every change leaves the mark.

It does: an instruction that clears or draws marks the screen, and so does a reset, which wipes
it; nothing else touches the pixels, and nothing but taking the frame removes the mark
(`Machine.screen_step`).  So the copy is up to date whenever the screen is not marked
(`Machine.Current`), however the machine got there, and always after the frame was taken.
-/
import Mathlib.Tactic.Lemma
import ChipVm.Proofs.Machine.History

namespace ChipVm

/-- The copy that a renderer has once it has seen an answer: the frame, if it was handed one. -/
def Frame.renewed (copy : Frame) : Except AdvanceError Answer → Frame
  | .ok (.frame (some frame)) => frame
  | _ => copy

namespace Machine

variable {m : Machine} {copy : Frame}

/-- The copy that a renderer has after a history of operations. -/
def shown (m : Machine) (copy : Frame) : List Operation → Frame
  | [] => copy
  | operation :: rest =>
    (m.perform operation).console.machine.shown (copy.renewed (m.perform operation).result) rest

/-- The copy of the frame is up to date unless the screen is marked as changed. -/
def Current (copy : Frame) (m : Machine) : Prop :=
  m.screen.dirty = false → copy = m.screen.frame

/-! ## The mark -/

/-- A step leaves the screen alone or marks it as changed. -/
lemma screen_step (m : Machine) :
    m.step.machine.screen = m.screen ∨ m.step.machine.screen.dirty = true := by
  rcases m.step_cases with ⟨halted, hafter⟩ | ⟨i, flow, mid, -, heffect, hafter⟩
  · rw [hafter]
    exact Or.inl rfl
  · rw [hafter, screen_follow]
    rcases heffect.screen with hsame | hclear | ⟨x, y, rows, hdraw⟩
    · exact Or.inl hsame
    · rw [hclear]
      exact Or.inr rfl
    · rw [hdraw]
      exact Or.inr rfl

lemma screen_loadProgram (m : Machine) (program : List UInt8) :
    (m.loadProgram program).machine.screen = m.screen := by
  obtain ⟨memory, hload⟩ := m.loadProgram_machine program
  rw [hload]

lemma screen_setKey (m : Machine) (code : UInt8) (down : Bool) :
    (m.setKey code down).machine.screen = m.screen := by
  obtain ⟨keypad, registers, hkey⟩ := m.setKey_machine code down
  rw [hkey]

lemma screen_takeFrame (m : Machine) : m.takeFrame.2.screen = ⟨m.screen.frame, false⟩ := by
  rw [takeFrame, Screen.takeFrame]
  cases hdirty : m.screen.dirty with
  | true => rfl
  | false =>
    show m.screen = ⟨m.screen.frame, false⟩
    rw [← hdirty]

lemma result_takeFrame (m : Machine) (scheduler : Scheduler) :
    (m.perform ⟨.takeFrame, scheduler⟩).result = .ok (.frame m.takeFrame.1) := rfl

lemma takeFrame_of_clean (h : m.screen.dirty = false) : m.takeFrame.1 = none := by
  rw [takeFrame, Screen.takeFrame, h]
  rfl

/-! ## The copy -/

namespace Current

lemma of_dirty (h : m.screen.dirty = true) : Current copy m := by
  intro hclean
  rw [h] at hclean
  cases hclean

lemma of_screen {later : Machine} (h : Current copy m) (hscreen : later.screen = m.screen) :
    Current copy later := by
  rw [Current, hscreen]
  exact h

lemma step (h : Current copy m) : Current copy m.step.machine := by
  rcases m.screen_step with hsame | hmarked
  · exact h.of_screen hsame
  · exact of_dirty hmarked

end Current

/-- A frame that is taken brings the copy up to date. -/
lemma renewed_takeFrame (h : Current copy m) :
    copy.renewed (.ok (.frame m.takeFrame.1)) = m.screen.frame := by
  rw [takeFrame, Screen.takeFrame]
  cases hdirty : m.screen.dirty with
  | true => rfl
  | false => exact h hdirty

/-- No command that concerns the machine alone hands out a frame. -/
lemma renewed_ofMachineReply {α : Type} (copy : Frame) (console : Console) {answer : α → Answer}
    (h : ∀ value frame, answer value ≠ .frame frame) (reply : Reply α) :
    copy.renewed (console.ofMachineReply answer reply).result = copy := by
  rw [Console.ofMachineReply]
  cases reply.result with
  | error fault => rfl
  | ok value =>
    dsimp only
    cases hanswer : answer value with
    | frame frame => exact absurd hanswer (h value frame)
    | _ => rfl

lemma renewed_perform (m : Machine) (copy : Frame) {operation : Operation}
    (h : operation.command ≠ .takeFrame) :
    copy.renewed (m.perform operation).result = copy := by
  obtain ⟨command, scheduler⟩ := operation
  cases command with
  | load | reset | step | run | setKey =>
    refine renewed_ofMachineReply copy _ ?_ _
    exact nofun
  | tick | resetScheduler => rfl
  | takeFrame => exact absurd rfl h
  | advance elapsed =>
    show copy.renewed ((scheduler.advance m elapsed).result.map .advanced) = copy
    cases (scheduler.advance m elapsed).result <;> rfl

/-- The step lemma: one operation, after which the renderer has seen its answer. -/
lemma Current.perform (h : Current copy m) (operation : Operation) :
    Current (copy.renewed (m.perform operation).result)
      (m.perform operation).console.machine := by
  by_cases htake : operation.command = .takeFrame
  · obtain ⟨command, scheduler⟩ := operation
    cases htake
    intro _
    show copy.renewed (.ok (.frame m.takeFrame.1)) = m.takeFrame.2.screen.frame
    rw [renewed_takeFrame h, screen_takeFrame]
  · rw [renewed_perform m copy htake]
    refine perform_keeps_unless (Q := fun _ => True) (fun _ hm _ => hm.step) (fun _ hm => hm) ?_ h
      fun _ _ => trivial
    obtain ⟨command, scheduler⟩ := operation
    cases command with
    | load program => exact fun m hm => hm.of_screen (m.screen_loadProgram program)
    | reset entropy => exact fun _ _ => of_dirty rfl
    | setKey code down => exact fun m hm => hm.of_screen (m.screen_setKey code down)
    | takeFrame => exact absurd rfl htake
    | _ => trivial

/-- The run lemma. -/
lemma Current.after (h : Current copy m) (history : List Operation) :
    Current (m.shown copy history) (m.after history) := by
  induction history generalizing m copy with
  | nil => exact h
  | cons first rest ih => exact ih (h.perform first)

/-- A renderer that starts out blank and takes every frame it is handed never shows a frame of the
past: at any point its copy is the frame, unless the screen is marked as changed; right after the
frame was taken it is the frame in any case, and there is nothing more to take. -/
theorem renderer_never_stale (config : Config) (entropy : UInt64) (history : List Operation) :
    (((ofConfig config entropy).after history).screen.dirty = false →
      (ofConfig config entropy).shown Frame.blank history
        = ((ofConfig config entropy).after history).screen.frame) ∧
    ∀ scheduler,
      (ofConfig config entropy).shown Frame.blank (history ++ [⟨.takeFrame, scheduler⟩])
        = ((ofConfig config entropy).after (history ++ [⟨.takeFrame, scheduler⟩])).screen.frame ∧
      (((ofConfig config entropy).after (history ++ [⟨.takeFrame, scheduler⟩])).perform
        ⟨.takeFrame, scheduler⟩).result = .ok (.frame none) := by
  have hstart : Current Frame.blank (ofConfig config entropy) := fun _ => rfl
  have hclean : ∀ scheduler,
      ((ofConfig config entropy).after (history ++ [⟨.takeFrame, scheduler⟩])).screen.dirty
        = false := by
    intro scheduler
    rw [after_append]
    exact congrArg Screen.dirty (screen_takeFrame _)
  refine ⟨hstart.after history, fun scheduler => ⟨hstart.after _ (hclean scheduler), ?_⟩⟩
  rw [result_takeFrame, takeFrame_of_clean (hclean scheduler)]

end Machine

end ChipVm
