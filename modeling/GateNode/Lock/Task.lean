/-
`linear_actuator.c`: the lock's state and `lock_task`, one iteration at a
time. An iteration takes the command it received and answers the state it
leaves and the calls it makes, in order. Where among the calls it makes its
assignments is not said here: no call of the iteration reads them, and what
the other tasks read of them is for the models with those tasks to place.
-/
import GateNode.Lock.Drive

namespace GateNode.Lock

/-- `motor_command_t`. -/
inductive MotorCommand
  | closeMotor
  | openMotor
  | idleMotor
  | lockStatus
deriving DecidableEq, Repr

/-- `lock_internal_state_t`. -/
inductive LockStatus
  | closed
  | opened
  | closedIdle
  | openedIdle
  | closing
  | opening
  | idle
deriving DecidableEq, Repr

/-- `lock_state`, less its handles. -/
structure LockState where
  unlockHoldDuration : UInt32
  status : LockStatus := .closed
  currentCommand : MotorCommand := .closeMotor
  currentDirection : Direction := .forward
  speed : UInt8 := 0
  speedIncrement : Int := 0
deriving DecidableEq, Repr

/-- The zeroed state, with the hold duration `linear_lock_create` stores. -/
def LockState.boot (hold : UInt32) : LockState where
  unlockHoldDuration := hold

/-- The calls of an iteration that others see. -/
inductive TaskCall
  | ledc (call : LedcCall)
  | vTaskDelay (ticks : UInt32)
  | xTimerStart
deriving DecidableEq, Repr

def configTickRateHz : UInt32 := 100

/-- `pdMS_TO_TICKS`. -/
def pdMsToTicks (ms : UInt32) : UInt32 := ms * configTickRateHz / 1000

/-- `speed+speed_increment`, an `int` stored back into a byte. -/
def addSpeed (speed : UInt8) (increment : Int) : UInt8 := UInt8.ofInt (speed.toNat + increment)

/-- Drive at the new speed and ask for the next tick. -/
def driveAndStart (d : LockDriveState) (s : LockState) : List TaskCall :=
  (lockDrive d s.currentDirection s.speed).map .ledc ++ [.xTimerStart]

def idleCalls (d : LockDriveState) : List TaskCall := (lockDriveIdle d).map .ledc

/-- `case LOCK_STATUS_CLOSING`. -/
def closingCase (d : LockDriveState) (s : LockState) : MotorCommand → LockState × List TaskCall
  | .openMotor =>
    ({ s with
        status := .opening
        speed := 20
        speedIncrement := 20
        currentDirection := .forward
        currentCommand := .openMotor },
      idleCalls d ++ [.xTimerStart])
  | .closeMotor =>
    let t := { s with speed := addSpeed s.speed s.speedIncrement }
    if t.speed > 50 then
      let u := { t with speedIncrement := -20 }
      (u, driveAndStart d u)
    else if t.speed ≤ 0 then
      ({ t with status := .closed, speed := 20 }, idleCalls d)
    else
      (t, driveAndStart d t)
  | _ => (s, [])

/-- `case LOCK_STATUS_OPENING`. -/
def openingCase (d : LockDriveState) (s : LockState) : MotorCommand → LockState × List TaskCall
  | .closeMotor =>
    ({ s with
        status := .closing
        speed := 20
        speedIncrement := 20
        currentDirection := .reverse
        currentCommand := .closeMotor },
      idleCalls d ++ [.xTimerStart])
  | .openMotor =>
    let t := { s with speed := addSpeed s.speed s.speedIncrement }
    if t.speed > 50 then
      let u := { t with speedIncrement := -10 }
      (u, driveAndStart d u)
    else if t.speed ≤ 0 then
      ({ t with status := .opened, speed := 20 }, idleCalls d)
    else if t.speed ≤ 10 then
      -- The hold: the channel keeps its last duty while the task sleeps.
      (t, .vTaskDelay (pdMsToTicks t.unlockHoldDuration) :: driveAndStart d t)
    else
      (t, driveAndStart d t)
  | _ => (s, [])

/-- `case LOCK_STATUS_OPENED` and `case LOCK_STATUS_CLOSED`. -/
def restCase (d : LockDriveState) (s : LockState) : MotorCommand → LockState × List TaskCall
  | .openMotor =>
    let t := { s with
      currentDirection := .forward
      currentCommand := .openMotor
      speed := 20
      speedIncrement := 20 }
    ({ t with status := .opening }, driveAndStart d t)
  | .closeMotor =>
    let t := { s with
      currentDirection := .reverse
      currentCommand := .closeMotor
      speed := 20
      speedIncrement := 20 }
    ({ t with status := .closing }, driveAndStart d t)
  | _ => (s, [])

/-- One iteration of `lock_task`. -/
def lockTask (d : LockDriveState) (s : LockState) (command : MotorCommand) : LockState × List TaskCall :=
  match s.status with
  | .closing => closingCase d s command
  | .opening => openingCase d s command
  | .opened | .closed => restCase d s command
  | _ => (s, [])

/-- The command takes a branch that begins a movement: from rest, or against the one under way. -/
def LockState.Begins (s : LockState) (command : MotorCommand) : Prop :=
  command = .openMotor ∧ s.status ∈ [.opened, .closed, .closing] ∨
    command = .closeMotor ∧ s.status ∈ [.opened, .closed, .opening]

instance (s : LockState) (c : MotorCommand) : Decidable (s.Begins c) := by
  unfold LockState.Begins; infer_instance

/-- `lock_system_lock_status_t`. -/
inductive LockInterfaceStatus
  | statusOpen
  | statusClose
  | statusUndefined
deriving DecidableEq, Repr

def getLockStatus (s : LockState) : LockInterfaceStatus :=
  match s.status with
  | .closed => .statusClose
  | .opened => .statusOpen
  | _ => .statusUndefined

/-- `lock_task` over the commands it receives: the state between iterations
and every call made so far. -/
def lockTaskLoop (d : LockDriveState) (s : LockState) (commands : List MotorCommand) :
    LockState × List TaskCall :=
  commands.foldl (fun r c =>
    let (t, calls) := lockTask d r.1 c
    (t, r.2 ++ calls)) (s, [])

@[simp] theorem lockTaskLoop_nil (d : LockDriveState) (s : LockState) : lockTaskLoop d s [] = (s, []) := rfl

theorem lockTaskLoop_snoc (d : LockDriveState) (s : LockState) (cs : List MotorCommand) (c : MotorCommand) :
    lockTaskLoop d s (cs ++ [c]) =
      ((lockTask d (lockTaskLoop d s cs).1 c).1,
        (lockTaskLoop d s cs).2 ++ (lockTask d (lockTaskLoop d s cs).1 c).2) := by
  simp [lockTaskLoop, List.foldl_append]

/-! ## Requests -/

/-- What a user asks of the lock, and what a movement is towards. -/
inductive Request
  | motorOpen
  | motorClose
deriving DecidableEq, Repr

namespace Request

def command : Request → MotorCommand
  | .motorOpen => .openMotor
  | .motorClose => .closeMotor

def direction : Request → Direction
  | .motorOpen => .forward
  | .motorClose => .reverse

/-- The status while the movement lasts. -/
def moving : Request → LockStatus
  | .motorOpen => .opening
  | .motorClose => .closing

/-- The status the movement ends in. -/
def rest : Request → LockStatus
  | .motorOpen => .opened
  | .motorClose => .closed

def opposite : Request → Request
  | .motorOpen => .motorClose
  | .motorClose => .motorOpen

theorem command_injective {r r' : Request} (h : r.command = r'.command) : r = r' := by
  cases r <;> cases r' <;> first | rfl | cases h

theorem moving_injective {r r' : Request} (h : r.moving = r'.moving) : r = r' := by
  cases r <;> cases r' <;> first | rfl | cases h

theorem rest_injective {r r' : Request} (h : r.rest = r'.rest) : r = r' := by
  cases r <;> cases r' <;> first | rfl | cases h

theorem eq_or_eq_opposite (r r' : Request) : r' = r ∨ r' = r.opposite := by
  cases r <;> cases r' <;> simp [opposite]

theorem opposite_opposite (r : Request) : r.opposite.opposite = r := by cases r <;> rfl

@[simp] theorem moving_ne_rest (r r' : Request) : r.moving ≠ r'.rest := by
  cases r <;> cases r' <;> decide

theorem opposite_moving_ne (r : Request) : r.opposite.moving ≠ r.moving := by cases r <;> decide

theorem opposite_command_ne (r : Request) : r.opposite.command ≠ r.command := by cases r <;> decide

end Request

namespace LockState

def AtRest (s : LockState) : Prop := s.status = .opened ∨ s.status = .closed

def Moving (s : LockState) : Prop := s.status = .opening ∨ s.status = .closing

instance (s : LockState) : Decidable s.AtRest := by unfold AtRest; infer_instance
instance (s : LockState) : Decidable s.Moving := by unfold Moving; infer_instance

theorem atRest_iff {s : LockState} : s.AtRest ↔ ∃ r : Request, s.status = r.rest := by
  constructor
  · rintro (h | h)
    · exact ⟨.motorOpen, h⟩
    · exact ⟨.motorClose, h⟩
  · rintro ⟨r | r, h⟩
    · exact .inl h
    · exact .inr h

theorem moving_iff {s : LockState} : s.Moving ↔ ∃ r : Request, s.status = r.moving := by
  constructor
  · rintro (h | h)
    · exact ⟨.motorOpen, h⟩
    · exact ⟨.motorClose, h⟩
  · rintro ⟨r | r, h⟩
    · exact .inl h
    · exact .inr h

theorem not_atRest_of_moving {s : LockState} {r : Request} (h : s.status = r.moving) : ¬ s.AtRest := by
  intro hr
  obtain ⟨r', hr⟩ := atRest_iff.mp hr
  exact r.moving_ne_rest r' (h.symm.trans hr)

theorem Moving.not_atRest {s : LockState} (h : s.Moving) : ¬ s.AtRest := by
  obtain ⟨r, hm⟩ := moving_iff.mp h
  exact not_atRest_of_moving hm

end LockState

end GateNode.Lock
