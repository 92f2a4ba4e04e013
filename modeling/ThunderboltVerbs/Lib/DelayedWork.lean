import Mathlib.Logic.Basic

/-!
# A work item and the flag for its next run

`queued` says that the item is on its timer or in its queue, where it is at most once. A run begins when it is
taken from there, and the flag is cleared only when the run enters. `π` is what a run knows on its way; the
predicate `sees` says which runs still look at what has been noted.
-/

namespace ThunderboltVerbs.Lib

inductive WorkRun (π : Type)
  | idle
  | begun
  | inside (pass : π)

structure DelayedWork (π : Type) where
  queued : Bool := false
  armed : Bool := false
  run : WorkRun π := .idle

namespace DelayedWork

variable {π : Type}

def rearm (work : DelayedWork π) : DelayedWork π := { work with queued := true, armed := true }

/-- Does nothing if the flag is set, unless it shall `replace` the time of the run. -/
def arm (work : DelayedWork π) (replace : Bool) : DelayedWork π :=
  if work.armed && !replace then work else work.rearm

def start (work : DelayedWork π) : Option (DelayedWork π) :=
  match work.run with
  | .idle => if work.queued then some { work with queued := false, run := .begun } else none
  | .begun | .inside _ => none

def enter (work : DelayedWork π) (pass : π) : Option (DelayedWork π) :=
  match work.run with
  | .begun => some { work with armed := false, run := .inside pass }
  | .idle | .inside _ => none

def setPass (work : DelayedWork π) (pass : π) : DelayedWork π := { work with run := .inside pass }

def leave (work : DelayedWork π) : DelayedWork π := { work with run := .idle }

/-- The run is waited for. -/
def cancel (work : DelayedWork π) : Option (DelayedWork π) :=
  match work.run with
  | .idle => some { work with queued := false, armed := false }
  | .begun | .inside _ => none

def Idle (work : DelayedWork π) : Prop := work.run = .idle

/-- A run is still to come that has not entered. -/
def Due (work : DelayedWork π) : Prop := work.queued = true ∨ work.run = .begun

/-- The flag is only set while a run is due. -/
def Sound (work : DelayedWork π) : Prop := work.armed = true → work.Due

/-- A run is due, or one is inside that sees what has been noted. -/
inductive Covers (work : DelayedWork π) (sees : π → Prop) : Prop
  | due (due : work.Due)
  | inside (pass : π) (run : work.run = .inside pass) (sees : sees pass)

variable {work work' : DelayedWork π} {sees sees' : π → Prop} {pass pass' : π}

/-! ## Arming -/

@[simp] theorem run_rearm : work.rearm.run = work.run := rfl

theorem due_rearm : work.rearm.Due := .inl rfl

theorem sound_rearm : work.rearm.Sound := fun _ => due_rearm

@[simp] theorem run_arm (replace : Bool) : (work.arm replace).run = work.run := by
  unfold arm
  split
  · rfl
  · rfl

theorem Sound.due_arm (sound : work.Sound) (replace : Bool) : (work.arm replace).Due := by
  unfold arm
  split
  · rename_i set
    exact sound (Bool.and_eq_true_iff.mp set).1
  · exact due_rearm

theorem Sound.arm (sound : work.Sound) (replace : Bool) : (work.arm replace).Sound :=
  fun _ => sound.due_arm replace

/-! ## Runs -/

theorem Sound.start (started : work.start = some work') : work'.Sound := by
  unfold DelayedWork.start at started
  split at started
  · split at started
    · cases started
      exact fun _ => .inr rfl
    · cases started
  · cases started
  · cases started

theorem due_start (started : work.start = some work') : work'.Due := by
  unfold DelayedWork.start at started
  split at started
  · split at started
    · cases started
      exact .inr rfl
    · cases started
  · cases started
  · cases started

theorem sound_enter (entered : work.enter pass = some work') : work'.Sound := by
  unfold DelayedWork.enter at entered
  split at entered
  · cases entered
    intro set
    cases set
  · cases entered
  · cases entered

theorem run_enter (entered : work.enter pass = some work') : work'.run = .inside pass := by
  unfold DelayedWork.enter at entered
  split at entered
  · cases entered
    rfl
  · cases entered
  · cases entered

theorem Sound.inside (sound : work.Sound) (run : work.run = .inside pass) (set : work.armed = true) :
    work.queued = true := by
  rcases sound set with queued | begun
  · exact queued
  · rw [run] at begun
    cases begun

theorem Sound.setPass (sound : work.Sound) (run : work.run = .inside pass) : (work.setPass pass').Sound :=
  fun set => .inl (sound.inside run set)

theorem Sound.leave (sound : work.Sound) (run : work.run = .inside pass) : work.leave.Sound :=
  fun set => .inl (sound.inside run set)

theorem sound_cancel (cancelled : work.cancel = some work') : work'.Sound := by
  unfold DelayedWork.cancel at cancelled
  split at cancelled
  · cases cancelled
    intro set
    cases set
  · cases cancelled
  · cases cancelled

/-! ## What a run covers -/

theorem Covers.setPass (covers : work.Covers sees) (run : work.run = .inside pass)
    (kept : sees pass → sees' pass') : (work.setPass pass').Covers sees' := by
  rcases covers with due | ⟨own, same, seen⟩
  · rcases due with queued | begun
    · exact .due (.inl queued)
    · rw [run] at begun
      cases begun
  · obtain rfl : own = pass := WorkRun.inside.inj (same.symm.trans run)
    exact .inside pass' rfl (kept seen)

theorem covers_setPass (seen : sees pass) : (work.setPass pass).Covers sees := .inside pass rfl seen

/-- A run that leaves without having seen it has another one queued behind it. -/
theorem Covers.leave (covers : work.Covers sees) (run : work.run = .inside pass) (unseen : ¬sees pass) :
    work.leave.Covers sees' := by
  rcases covers with due | ⟨own, same, seen⟩
  · rcases due with queued | begun
    · exact .due (.inl queued)
    · rw [run] at begun
      cases begun
  · obtain rfl : own = pass := WorkRun.inside.inj (same.symm.trans run)
    exact absurd seen unseen

/-- When no run is on its way, the item is queued. -/
theorem Covers.queued (covers : work.Covers sees) (idle : work.Idle) : work.queued = true := by
  rcases covers with due | ⟨own, same, -⟩
  · rcases due with queued | begun
    · exact queued
    · rw [idle] at begun
      cases begun
  · rw [idle] at same
    cases same

end DelayedWork

end ThunderboltVerbs.Lib
