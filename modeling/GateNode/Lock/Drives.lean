/-
`lock_task` by the calls it makes of the driver, before the driver turns them
into LEDC calls: the speeds passed to `lock_drive` stand in them.
`lockTask_calls` says that the LEDC calls of an iteration are these.
-/
import GateNode.Lib.Since
import GateNode.Lock.Motor

namespace GateNode.Lock

/-- A call `lock_task` makes. -/
inductive LockCall
  | lockDriveIdle
  | lockDrive (direction : Direction) (speed : UInt8)
  | vTaskDelay (ticks : UInt32)
  | xTimerStart
deriving DecidableEq, Repr

/-- What the call comes to at the LEDC peripheral and the kernel. -/
def LockCall.calls (d : LockDriveState) : LockCall → List TaskCall
  | .lockDriveIdle => idleCalls d
  | .lockDrive direction speed => driveCalls d direction speed
  | .vTaskDelay ticks => [.vTaskDelay ticks]
  | .xTimerStart => [.xTimerStart]

/-- `case LOCK_STATUS_CLOSING`. -/
def closingCalls (s : LockState) : MotorCommand → List LockCall
  | .openMotor => [.lockDriveIdle, .xTimerStart]
  | .closeMotor =>
    let speed := addSpeed s.speed s.speedIncrement
    if speed > 50 then
      [.lockDrive s.currentDirection speed, .xTimerStart]
    else if speed ≤ 0 then
      [.lockDriveIdle]
    else
      [.lockDrive s.currentDirection speed, .xTimerStart]
  | _ => []

/-- `case LOCK_STATUS_OPENING`. -/
def openingCalls (s : LockState) : MotorCommand → List LockCall
  | .closeMotor => [.lockDriveIdle, .xTimerStart]
  | .openMotor =>
    let speed := addSpeed s.speed s.speedIncrement
    if speed > 50 then
      [.lockDrive s.currentDirection speed, .xTimerStart]
    else if speed ≤ 0 then
      [.lockDriveIdle]
    else if speed ≤ 10 then
      [.vTaskDelay (pdMsToTicks s.unlockHoldDuration), .lockDrive s.currentDirection speed, .xTimerStart]
    else
      [.lockDrive s.currentDirection speed, .xTimerStart]
  | _ => []

/-- `case LOCK_STATUS_OPENED` and `case LOCK_STATUS_CLOSED`. -/
def restCalls : MotorCommand → List LockCall
  | .openMotor => [.lockDrive .forward 20, .xTimerStart]
  | .closeMotor => [.lockDrive .reverse 20, .xTimerStart]
  | _ => []

/-- One iteration of `lock_task`. -/
def lockTaskCalls (s : LockState) (command : MotorCommand) : List LockCall :=
  match s.status with
  | .closing => closingCalls s command
  | .opening => openingCalls s command
  | .opened | .closed => restCalls command
  | _ => []

/-- The calls of `lock_task` over the commands it receives. -/
def lockTaskLoopCalls (d : LockDriveState) : LockState → List MotorCommand → List LockCall
  | _, [] => []
  | s, c :: cs => lockTaskCalls s c ++ lockTaskLoopCalls d (lockTask d s c).1 cs

/-- **The two ways to see an iteration agree.** -/
theorem lockTask_calls (d : LockDriveState) (s : LockState) (c : MotorCommand) :
    (lockTask d s c).2 = (lockTaskCalls s c).flatMap (·.calls d) := by
  cases hstatus : s.status with
  | closing =>
    cases c <;> simp only [lockTask, lockTaskCalls, hstatus, closingCase, closingCalls]
    · by_cases hpeak : addSpeed s.speed s.speedIncrement > 50
      · simp [hpeak, LockCall.calls, driveAndStart, driveCalls]
      · by_cases hend : addSpeed s.speed s.speedIncrement ≤ 0 <;>
          simp [hpeak, hend, LockCall.calls, driveAndStart, driveCalls]
    all_goals simp [LockCall.calls]
  | opening =>
    cases c <;> simp only [lockTask, lockTaskCalls, hstatus, openingCase, openingCalls]
    case openMotor =>
      by_cases hpeak : addSpeed s.speed s.speedIncrement > 50
      · simp [hpeak, LockCall.calls, driveAndStart, driveCalls]
      · by_cases hend : addSpeed s.speed s.speedIncrement ≤ 0
        · simp [hpeak, hend, LockCall.calls]
        · by_cases hlow : addSpeed s.speed s.speedIncrement ≤ 10 <;>
            simp [hpeak, hend, hlow, LockCall.calls, driveAndStart, driveCalls]
    all_goals simp [LockCall.calls]
  | opened | closed =>
    cases c <;> simp [lockTask, lockTaskCalls, hstatus, restCase, restCalls, LockCall.calls, driveAndStart, driveCalls]
  | closedIdle | openedIdle | idle => simp [lockTask, lockTaskCalls, hstatus]

/-! ## What an iteration can call -/

/-- The calls that drive the next position. -/
def advanceCalls (hold : UInt32) (r : Request) (q : Position) : List LockCall :=
  (match r with
    | .motorOpen => if q.1 ≤ 10 then [.vTaskDelay (pdMsToTicks hold)] else []
    | .motorClose => []) ++ [.lockDrive r.direction q.1, .xTimerStart]

/-- The things an iteration does in a state that is `LockOk`, with its calls of the driver. -/
inductive DriveStep (s : LockState) : MotorCommand → LockState → List LockCall → Prop
  | ignore (hc : ∀ r : Request, c ≠ r.command) : DriveStep s c s []
  | start (r : Request) (hs : s.AtRest) :
      DriveStep s r.command (s.begin r) [.lockDrive r.direction 20, .xTimerStart]
  | reverse (r : Request) (hs : s.status = r.opposite.moving) :
      DriveStep s r.command (s.begin r) [.lockDriveIdle, .xTimerStart]
  | advance (r : Request) (q : Position) (hs : s.status = r.moving)
      (hq : [(s.speed, s.speedIncrement), q] <:+: r.profile) :
      DriveStep s r.command { s with speed := q.1, speedIncrement := q.2 } (advanceCalls s.unlockHoldDuration r q)
  | finish (r : Request) (hs : s.status = r.moving)
      (hq : r.profile.getLast? = some (s.speed, s.speedIncrement)) :
      DriveStep s r.command { s with status := r.rest, speed := 20 } [.lockDriveIdle]

variable {d : LockDriveState} {s t : LockState} {c : MotorCommand} {cs : List MotorCommand} {calls : List LockCall}

theorem lockTaskCalls_ignore (hc : ∀ r : Request, c ≠ r.command) : lockTaskCalls s c = [] := by
  have ho := hc .motorOpen
  have hcl := hc .motorClose
  cases c with
  | closeMotor => exact absurd rfl hcl
  | openMotor => exact absurd rfl ho
  | idleMotor | lockStatus =>
    unfold lockTaskCalls
    split <;> rfl

theorem lockTaskCalls_start (hs : s.AtRest) (r : Request) :
    lockTaskCalls s r.command = [.lockDrive r.direction 20, .xTimerStart] := by
  rcases hs with hs | hs <;> cases r <;> simp [lockTaskCalls, hs] <;> rfl

theorem lockTaskCalls_reverse {r : Request} (hs : s.status = r.opposite.moving) :
    lockTaskCalls s r.command = [.lockDriveIdle, .xTimerStart] := by
  cases r <;> simp [lockTaskCalls, hs, Request.opposite, Request.moving] <;> rfl

theorem lockTaskCalls_finish {r : Request} (hs : s.status = r.moving) (h0 : addSpeed s.speed s.speedIncrement = 0) :
    lockTaskCalls s r.command = [.lockDriveIdle] := by
  cases r <;> simp [lockTaskCalls, closingCalls, openingCalls, hs, Request.command, Request.moving, h0]

theorem lockTaskCalls_advance {r : Request} {q : Position} (hs : s.status = r.moving)
    (hd : s.currentDirection = r.direction) (ha : addSpeed s.speed s.speedIncrement = q.1) (hpos : 0 < q.1) :
    lockTaskCalls s r.command = advanceCalls s.unlockHoldDuration r q := by
  have hne : ¬ q.1 ≤ 0 := UInt8.not_le.mpr hpos
  cases r with
  | motorOpen =>
    by_cases hpeak : q.1 > 50
    · have hlow : ¬ q.1 ≤ 10 := UInt8.not_le.mpr (UInt8.lt_trans (by decide) hpeak)
      simp [lockTaskCalls, openingCalls, advanceCalls, hs, hd, ha, hpeak, hlow, Request.command, Request.moving]
    · by_cases hlow : q.1 ≤ 10 <;>
        simp [lockTaskCalls, openingCalls, advanceCalls, hs, hd, ha, hpeak, hne, hlow, Request.command,
          Request.moving]
  | motorClose =>
    by_cases hpeak : q.1 > 50 <;>
      simp [lockTaskCalls, closingCalls, advanceCalls, hs, hd, ha, hpeak, hne, Request.command, Request.moving]

/-- The ramp arithmetic between two neighbours of the profile. -/
theorem addSpeed_next (r : Request) : ∀ p ∈ r.profile, ∀ q ∈ r.profile, [p, q] <:+: r.profile →
    addSpeed p.1 p.2 = q.1 ∧ 0 < q.1 ∧ q.2 = if q.1 > 50 then r.deceleration else p.2 := by
  cases r <;> decide

theorem addSpeed_of_infix {r : Request} {p q : Position} (h : [p, q] <:+: r.profile) :
    addSpeed p.1 p.2 = q.1 ∧ 0 < q.1 ∧ q.2 = if q.1 > 50 then r.deceleration else p.2 :=
  addSpeed_next r p (h.subset (by simp)) q (h.subset (by simp)) h

/-- **What an iteration does**, by its calls of the driver. -/
theorem lockTask_driveStep (d : LockDriveState) (h : LockOk s) (c : MotorCommand) :
    DriveStep s c (lockTask d s c).1 (lockTaskCalls s c) := by
  have hstep := lockTask_step (d := d) h c
  generalize (lockTask d s c).1 = t at hstep
  generalize (lockTask d s c).2 = calls at hstep
  cases hstep with
  | ignore hc =>
    rw [lockTaskCalls_ignore hc]
    exact .ignore hc
  | start r hs =>
    rw [lockTaskCalls_start hs]
    exact .start r hs
  | reverse r hs =>
    rw [lockTaskCalls_reverse hs]
    exact .reverse r hs
  | advance r q hs hq =>
    obtain ⟨ha, hpos, -⟩ := addSpeed_of_infix hq
    rw [lockTaskCalls_advance hs (h.of_moving hs).2.1 ha hpos]
    exact .advance r q hs hq
  | finish r hs hq =>
    rw [lockTaskCalls_finish hs (addSpeed_last hq)]
    exact .finish r hs hq

/-! ## Runs -/

theorem lockTaskLoop_append (d : LockDriveState) (s : LockState) (as bs : List MotorCommand) :
    (lockTaskLoop d s (as ++ bs)).1 = (lockTaskLoop d (lockTaskLoop d s as).1 bs).1 := by
  induction bs using List.reverseRecOn with
  | nil => rw [List.append_nil, lockTaskLoop_nil]
  | append_singleton bs b ih => rw [← List.append_assoc, lockTaskLoop_snoc, lockTaskLoop_snoc, ih]

theorem lockTaskLoop_cons (d : LockDriveState) (s : LockState) (c : MotorCommand) (cs : List MotorCommand) :
    (lockTaskLoop d s (c :: cs)).1 = (lockTaskLoop d (lockTask d s c).1 cs).1 :=
  lockTaskLoop_append d s [c] cs

theorem lockTaskLoopCalls_append (d : LockDriveState) (s : LockState) (as bs : List MotorCommand) :
    lockTaskLoopCalls d s (as ++ bs) =
      lockTaskLoopCalls d s as ++ lockTaskLoopCalls d (lockTaskLoop d s as).1 bs := by
  induction as generalizing s with
  | nil => rfl
  | cons a as ih => rw [List.cons_append, lockTaskLoopCalls, ih, lockTaskLoopCalls, lockTaskLoop_cons, List.append_assoc]

theorem lockTaskLoopCalls_snoc (d : LockDriveState) (s : LockState) (cs : List MotorCommand) (c : MotorCommand) :
    lockTaskLoopCalls d s (cs ++ [c]) = lockTaskLoopCalls d s cs ++ lockTaskCalls (lockTaskLoop d s cs).1 c := by
  rw [lockTaskLoopCalls_append, lockTaskLoopCalls, lockTaskLoopCalls, List.append_nil]

/-- The two ways to see a run agree. -/
theorem lockTaskLoop_calls (d : LockDriveState) (s : LockState) (cs : List MotorCommand) :
    (lockTaskLoop d s cs).2 = (lockTaskLoopCalls d s cs).flatMap (·.calls d) := by
  induction cs using List.reverseRecOn with
  | nil => rfl
  | append_singleton cs c ih =>
    rw [lockTaskLoop_snoc, lockTaskLoopCalls_snoc, List.flatMap_append, ← ih, lockTask_calls]

theorem LockOk.loop (h : LockOk s) (cs : List MotorCommand) : LockOk (lockTaskLoop d s cs).1 := by
  induction cs using List.reverseRecOn with
  | nil => exact h
  | append_singleton cs c ih =>
    rw [lockTaskLoop_snoc]
    exact (lockTask_step ih c).lockOk ih

theorem run_driveStep (d : LockDriveState) (hold : UInt32) (cs : List MotorCommand) (c : MotorCommand) :
    DriveStep (lockTaskLoop d (.boot hold) cs).1 c (lockTask d (lockTaskLoop d (.boot hold) cs).1 c).1
      (lockTaskCalls (lockTaskLoop d (.boot hold) cs).1 c) :=
  lockTask_driveStep d ((LockOk.boot hold).loop cs) c

/-! ## What is put out -/

/-- The speed driven since the motor was last idle, after a call. -/
def LockCall.drives (speed : Option UInt8) : LockCall → Option UInt8
  | .lockDriveIdle => none
  | .lockDrive _ speed => some speed
  | .vTaskDelay _ | .xTimerStart => speed

def speedDriven (calls : List LockCall) : Option UInt8 := calls.foldl LockCall.drives none

/-- The channels after the calls. -/
def channels (d : LockDriveState) (calls : List LockCall) : Ledc := runCalls {} (calls.flatMap (·.calls d))

/-- Both channels are off. -/
def Off (d : LockDriveState) (l : Ledc) : Prop := ¬ l.On d.channelForward ∧ ¬ l.On d.channelReverse

instance (l : Ledc) : Decidable (Off d l) := by unfold Off; infer_instance

@[simp] theorem speedDriven_append (as bs : List LockCall) :
    speedDriven (as ++ bs) = bs.foldl LockCall.drives (speedDriven as) := List.foldl_append

theorem channels_append (d : LockDriveState) (as bs : List LockCall) :
    channels d (as ++ bs) = runCalls (channels d as) (bs.flatMap (·.calls d)) := by
  rw [channels, List.flatMap_append, runCalls_append, channels]

/-- The channels are off exactly while no speed has been driven since the last idle. -/
theorem off_iff (d : LockDriveState) (calls : List LockCall) : Off d (channels d calls) ↔ speedDriven calls = none := by
  induction calls using List.reverseRecOn with
  | nil => exact iff_of_true ⟨Ledc.off_boot _, Ledc.off_boot _⟩ rfl
  | append_singleton calls c ih =>
    rw [channels_append, speedDriven_append, List.flatMap_singleton]
    cases c with
    | lockDriveIdle => exact iff_of_true ⟨off_idle d _ .forward, off_idle d _ .reverse⟩ rfl
    | lockDrive direction speed =>
      refine iff_of_false (fun h => ?_) (Option.some_ne_none speed)
      have hon := (on_drive d (channels d calls) direction speed _).mpr (.inl rfl)
      cases direction with
      | forward => exact h.1 hon
      | reverse => exact h.2 hon
    | vTaskDelay _ | xTimerStart => exact ih

theorem output_drive (d : LockDriveState) (l : Ledc) (direction : Direction) (speed : UInt8) :
    ((runCalls l (driveCalls d direction speed)).get (d.channel direction)).output = some (speedToDuty speed) := by
  simp [driveCalls, lockDrive_eq, TaskCall.apply, Ledc.apply, Ledc.get_set]

/-- Between iterations: at rest no speed is driven, and in a movement the speed last set is, but right
behind a reversal. -/
structure Driven (d : LockDriveState) (s : LockState) (trace : List LockCall) : Prop where
  rest : s.AtRest → speedDriven trace = none
  moving : ∀ r : Request, s.status = r.moving →
    speedDriven trace = none ∧ (s.speed, s.speedIncrement) = (20, 20) ∨
      speedDriven trace = some s.speed ∧
        ((channels d trace).get (d.channel r.direction)).output = some (speedToDuty s.speed)

theorem Driven.boot (d : LockDriveState) (hold : UInt32) : Driven d (.boot hold) [] where
  rest _ := rfl
  moving r h := by cases r <;> cases h

theorem runCalls_advance (l : Ledc) (hold : UInt32) (r : Request) (q : Position) :
    runCalls l ((advanceCalls hold r q).flatMap (·.calls d)) = runCalls l (driveCalls d r.direction q.1) := by
  have htimer (l : Ledc) : runCalls l [.xTimerStart] = l := rfl
  have hdelay (l : Ledc) (ticks : UInt32) : runCalls l [.vTaskDelay ticks] = l := rfl
  cases r with
  | motorOpen =>
    by_cases hlow : q.1 ≤ 10 <;>
      simp [advanceCalls, hlow, LockCall.calls, runCalls_append, htimer, TaskCall.apply]
  | motorClose => simp [advanceCalls, LockCall.calls, runCalls_append, htimer]

theorem foldl_drives_advance (speed : Option UInt8) (hold : UInt32) (r : Request) (q : Position) :
    (advanceCalls hold r q).foldl LockCall.drives speed = some q.1 := by
  cases r with
  | motorOpen => by_cases hlow : q.1 ≤ 10 <;> simp [advanceCalls, hlow, LockCall.drives]
  | motorClose => rfl

/-- From rest a movement begins with its drive. -/
theorem DriveStep.starts {r : Request} (h : DriveStep s c t calls) (hs : s.AtRest) (ht : t.status = r.moving) :
    t = s.begin r ∧ calls = [.lockDrive r.direction 20, .xTimerStart] := by
  cases h with
  | ignore => exact absurd hs (LockState.not_atRest_of_moving ht)
  | start r' =>
    obtain rfl := Request.moving_injective ht
    exact ⟨rfl, rfl⟩
  | reverse r' hm | advance r' _ hm | finish r' hm => exact absurd hs (LockState.not_atRest_of_moving hm)

theorem DriveStep.driven {trace : List LockCall} (h : DriveStep s c t calls) (hs : Driven d s trace) :
    Driven d t (trace ++ calls) := by
  cases h with
  | ignore =>
    rw [List.append_nil]
    exact hs
  | start r _ =>
    refine ⟨fun ht => absurd ht (LockState.not_atRest_begin s r), fun r' hr' => .inr ⟨?_, ?_⟩⟩
    · simp [LockCall.drives, LockState.begin]
    · obtain rfl := Request.moving_injective hr'
      rw [channels_append, List.flatMap_cons, runCalls_append]
      exact output_drive d (channels d trace) r.direction 20
  | reverse r _ =>
    refine ⟨fun ht => absurd ht (LockState.not_atRest_begin s r), fun r' hr' => .inl ⟨?_, rfl⟩⟩
    simp [LockCall.drives]
  | advance r q hm _ =>
    refine ⟨fun ht => absurd ht (LockState.not_atRest_of_moving hm), fun r' hr' => .inr ⟨?_, ?_⟩⟩
    · rw [speedDriven_append, foldl_drives_advance]
    · obtain rfl := Request.moving_injective (hm.symm.trans hr')
      rw [channels_append, runCalls_advance]
      exact output_drive d _ r.direction q.1
  | finish r _ _ =>
    refine ⟨fun _ => ?_, fun r' hr' => absurd hr'.symm (r'.moving_ne_rest r)⟩
    simp [LockCall.drives]

theorem driven (d : LockDriveState) (hold : UInt32) (cs : List MotorCommand) :
    Driven d (lockTaskLoop d (.boot hold) cs).1 (lockTaskLoopCalls d (.boot hold) cs) := by
  induction cs using List.reverseRecOn with
  | nil => exact .boot d hold
  | append_singleton cs c ih =>
    rw [lockTaskLoop_snoc, lockTaskLoopCalls_snoc]
    exact (run_driveStep d hold cs c).driven ih

end GateNode.Lock
