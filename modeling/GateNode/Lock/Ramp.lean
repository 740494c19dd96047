/-
What an iteration of `lock_task` can do. A movement runs through a fixed
list of ramp positions (speed and increment); `LockOk` says a reachable
state rests or stands at a position of the movement under way, and
`lockTask_step` names the five things an iteration then does. What is proved
of whole runs goes by these cases and never unfolds `lockTask`.
-/
import Mathlib.Data.List.Induction
import GateNode.Lock.Task

namespace GateNode.Lock

/-- A point of the ramp: the speed last set and the increment to come. -/
abbrev Position := UInt8 × Int

/-- The positions of a movement, from its start to its last driven speed. -/
def Request.profile : Request → List Position
  | .motorOpen => [(20, 20), (40, 20), (60, -10), (50, -10), (40, -10), (30, -10), (20, -10), (10, -10)]
  | .motorClose => [(20, 20), (40, 20), (60, -20), (40, -20), (20, -20)]

/-- The status a movement leaves is its own once it began, at rest the last
movement's. -/
inductive LockOk (s : LockState) : Prop
  | rest (r : Request) (status : s.status = r.rest) (command : s.currentCommand = r.command)
  | moving (r : Request) (status : s.status = r.moving) (command : s.currentCommand = r.command)
      (direction : s.currentDirection = r.direction) (position : (s.speed, s.speedIncrement) ∈ r.profile)

theorem LockOk.boot (hold : UInt32) : LockOk (.boot hold) := .rest .motorClose rfl rfl

/-- The state in which a movement begins. -/
def LockState.begin (s : LockState) (r : Request) : LockState where
  unlockHoldDuration := s.unlockHoldDuration
  status := r.moving
  currentCommand := r.command
  currentDirection := r.direction
  speed := 20
  speedIncrement := 20

theorem LockState.not_atRest_begin (s : LockState) (r : Request) : ¬ (s.begin r).AtRest :=
  not_atRest_of_moving (r := r) rfl

/-- The hold before the last driven speed of an opening. -/
def holdCalls (s : LockState) (r : Request) (p : Position) : List TaskCall :=
  match r with
  | .motorOpen => if p.1 ≤ 10 then [.vTaskDelay (pdMsToTicks s.unlockHoldDuration)] else []
  | .motorClose => []

def driveCalls (d : LockDriveState) (direction : Direction) (speed : UInt8) : List TaskCall :=
  (lockDrive d direction speed).map .ledc

/-- The things an iteration does in a state that is `LockOk`. -/
inductive LockStep (d : LockDriveState) (s : LockState) : MotorCommand → LockState → List TaskCall → Prop
  /-- A command that is neither an opening nor a closing. -/
  | ignore (hc : ∀ r : Request, c ≠ r.command) : LockStep d s c s []
  /-- From rest, with the first drive. -/
  | start (r : Request) (hs : s.AtRest) :
      LockStep d s r.command (s.begin r) (driveCalls d r.direction 20 ++ [.xTimerStart])
  /-- Against the movement under way; the first drive is the next tick's. -/
  | reverse (r : Request) (hs : s.status = r.opposite.moving) :
      LockStep d s r.command (s.begin r) (idleCalls d ++ [.xTimerStart])
  /-- Along the movement, to the next position. -/
  | advance (r : Request) (q : Position) (hs : s.status = r.moving)
      (hq : [(s.speed, s.speedIncrement), q] <:+: r.profile) :
      LockStep d s r.command { s with speed := q.1, speedIncrement := q.2 }
        (holdCalls s r q ++ driveCalls d r.direction q.1 ++ [.xTimerStart])
  /-- Along the movement, past its last position. No timer is stopped. -/
  | finish (r : Request) (hs : s.status = r.moving)
      (hq : r.profile.getLast? = some (s.speed, s.speedIncrement)) :
      LockStep d s r.command { s with status := r.rest, speed := 20 } (idleCalls d)

/-- The increment past the peak. -/
def Request.deceleration : Request → Int
  | .motorOpen => -10
  | .motorClose => -20

/-- The ramp arithmetic: from a position of the profile the next speed is the
next position's, and past the last it is exactly zero. -/
theorem profile_next (r : Request) : ∀ p ∈ r.profile,
    (r.profile.getLast? = some p ∧ addSpeed p.1 p.2 = 0) ∨
      ∃ q ∈ r.profile, [p, q] <:+: r.profile ∧ addSpeed p.1 p.2 = q.1 ∧ 0 < q.1 ∧
        q.2 = if q.1 > 50 then r.deceleration else p.2 := by
  cases r <;> decide

theorem addSpeed_last {r : Request} {p : Position} (h : r.profile.getLast? = some p) :
    addSpeed p.1 p.2 = 0 := by
  cases r <;> cases h <;> rfl

theorem lockTask_finish {d : LockDriveState} {s : LockState} {r : Request} (hs : s.status = r.moving)
    (h0 : addSpeed s.speed s.speedIncrement = 0) :
    lockTask d s r.command = ({ s with status := r.rest, speed := 20 }, idleCalls d) := by
  cases r <;> simp [lockTask, closingCase, openingCase, hs, Request.command, Request.moving, Request.rest, h0]

theorem lockTask_advance {d : LockDriveState} {s : LockState} {r : Request} {q : Position}
    (hs : s.status = r.moving) (hd : s.currentDirection = r.direction)
    (ha : addSpeed s.speed s.speedIncrement = q.1) (hpos : 0 < q.1)
    (hi : q.2 = if q.1 > 50 then r.deceleration else s.speedIncrement) :
    lockTask d s r.command = ({ s with speed := q.1, speedIncrement := q.2 },
      holdCalls s r q ++ driveCalls d r.direction q.1 ++ [.xTimerStart]) := by
  have hne : ¬ q.1 ≤ 0 := UInt8.not_le.mpr hpos
  by_cases hpeak : q.1 > 50
  · have hlow : ¬ q.1 ≤ 10 := UInt8.not_le.mpr (UInt8.lt_trans (by decide) hpeak)
    rw [if_pos hpeak] at hi
    cases r <;>
      simp [lockTask, closingCase, openingCase, hs, hd, ha, hi, hpeak, hlow, Request.command, Request.moving,
        Request.direction, Request.deceleration, holdCalls, driveAndStart, driveCalls]
  · rw [if_neg hpeak] at hi
    cases r with
    | motorOpen =>
      by_cases hlow : q.1 ≤ 10 <;>
        simp [lockTask, openingCase, hs, hd, ha, hi, hpeak, hne, hlow, Request.command, Request.moving,
          Request.direction, holdCalls, driveAndStart, driveCalls]
    | motorClose =>
      simp [lockTask, closingCase, hs, hd, ha, hi, hpeak, hne, Request.command, Request.moving, Request.direction,
        holdCalls, driveAndStart, driveCalls]

/-- A command along the movement under way: the next position or the end. -/
theorem lockTask_along {d : LockDriveState} {s : LockState} {r : Request} (hs : s.status = r.moving)
    (hd : s.currentDirection = r.direction) (hp : (s.speed, s.speedIncrement) ∈ r.profile) :
    LockStep d s r.command (lockTask d s r.command).1 (lockTask d s r.command).2 := by
  rcases profile_next r _ hp with ⟨hl, h0⟩ | ⟨q, _, hq, ha, hpos, hi⟩
  · rw [lockTask_finish hs h0]
    exact .finish r hs hl
  · rw [lockTask_advance hs hd ha hpos hi]
    exact .advance r q hs hq

theorem lockTask_start {d : LockDriveState} {s : LockState} (hs : s.AtRest) (r : Request) :
    lockTask d s r.command = (s.begin r, driveCalls d r.direction 20 ++ [.xTimerStart]) := by
  rcases hs with hs | hs <;> cases r <;> simp only [lockTask, restCase, hs, Request.command] <;> rfl

theorem lockTask_reverse {d : LockDriveState} {s : LockState} {r : Request}
    (hs : s.status = r.opposite.moving) :
    lockTask d s r.command = (s.begin r, idleCalls d ++ [.xTimerStart]) := by
  cases r <;>
    simp only [lockTask, closingCase, openingCase, hs, Request.command, Request.opposite, Request.moving] <;>
    rfl

theorem LockState.begins_iff {s : LockState} {r : Request} :
    s.Begins r.command ↔ s.AtRest ∨ s.status = r.opposite.moving := by
  cases r <;> simp [Begins, AtRest, Request.command, Request.opposite, Request.moving, or_assoc]

theorem lockTask_begins {d : LockDriveState} {s : LockState} {r : Request} (h : s.Begins r.command) :
    (lockTask d s r.command).1 = s.begin r := by
  rcases LockState.begins_iff.mp h with hs | hs
  · rw [lockTask_start hs]
  · rw [lockTask_reverse hs]

theorem lockTask_ignore {d : LockDriveState} {s : LockState} {c : MotorCommand}
    (hc : ∀ r : Request, c ≠ r.command) : lockTask d s c = (s, []) := by
  have ho := hc .motorOpen
  have hcl := hc .motorClose
  cases c with
  | closeMotor => exact absurd rfl hcl
  | openMotor => exact absurd rfl ho
  | idleMotor => simp only [lockTask]; split <;> rfl
  | lockStatus => simp only [lockTask]; split <;> rfl

/-- A command is a request's or no request's. -/
theorem command_cases (c : MotorCommand) : (∃ r : Request, c = r.command) ∨ ∀ r : Request, c ≠ r.command := by
  cases c with
  | closeMotor => exact .inl ⟨.motorClose, rfl⟩
  | openMotor => exact .inl ⟨.motorOpen, rfl⟩
  | idleMotor => exact .inr fun r => by cases r <;> decide
  | lockStatus => exact .inr fun r => by cases r <;> decide

/-- **What an iteration does.** -/
theorem lockTask_step {d : LockDriveState} {s : LockState} (h : LockOk s) (c : MotorCommand) :
    LockStep d s c (lockTask d s c).1 (lockTask d s c).2 := by
  rcases command_cases c with ⟨r, rfl⟩ | hc
  · cases h with
    | rest m status _ =>
      have hs : s.AtRest := LockState.atRest_iff.mpr ⟨m, status⟩
      rw [lockTask_start hs]
      exact .start r hs
    | moving m status _ direction position =>
      rcases r.eq_or_eq_opposite m with rfl | rfl
      · exact lockTask_along status direction position
      · rw [lockTask_reverse status]
        exact .reverse r status
  · rw [lockTask_ignore hc]
    exact .ignore hc

/-! ## What every iteration keeps -/

theorem Request.first_mem_profile (r : Request) : (20, 20) ∈ r.profile := by cases r <;> decide

theorem LockOk.begin (s : LockState) (r : Request) : LockOk (s.begin r) :=
  .moving r rfl rfl rfl r.first_mem_profile

theorem LockOk.of_moving {s : LockState} (h : LockOk s) {r : Request} (hs : s.status = r.moving) :
    s.currentCommand = r.command ∧ s.currentDirection = r.direction ∧
      (s.speed, s.speedIncrement) ∈ r.profile := by
  cases h with
  | rest m status _ => exact absurd (hs.symm.trans status) (r.moving_ne_rest m)
  | moving m status command direction position =>
    obtain rfl := Request.moving_injective (status.symm.trans hs)
    exact ⟨command, direction, position⟩

theorem LockStep.lockOk {d : LockDriveState} {s t : LockState} {c : MotorCommand} {calls : List TaskCall}
    (h : LockStep d s c t calls) (hs : LockOk s) : LockOk t := by
  cases h with
  | ignore => exact hs
  | start r => exact .begin s r
  | reverse r => exact .begin s r
  | advance r q status hq =>
    obtain ⟨command, direction, _⟩ := hs.of_moving status
    exact .moving r status command direction (hq.subset (by simp))
  | finish r status =>
    exact .rest r rfl (hs.of_moving status).1

end GateNode.Lock
