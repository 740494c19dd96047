/-
`lock_drive.c`: the motor driver's two PWM channels. A driver function is the
list of LEDC calls it makes; `Ledc` is what the calls do to the channels.
-/

namespace GateNode.Lock

/-- `lock_direction_t`. -/
inductive Direction
  | forward
  | reverse
deriving DecidableEq, Repr

inductive LedcChannel
  | channel0
  | channel1
deriving DecidableEq, Repr

/-- `lock_drive_state`, all zero (`LEDC_CHANNEL_0` twice) before `lock_drive_init`. -/
structure LockDriveState where
  channelForward : LedcChannel := .channel0
  channelReverse : LedcChannel := .channel0

/-- What `lock_drive_init` leaves where it succeeds. -/
def lockDriveInit : LockDriveState where
  channelForward := .channel0
  channelReverse := .channel1

def LockDriveState.channel (d : LockDriveState) : Direction → LedcChannel
  | .forward => d.channelForward
  | .reverse => d.channelReverse

inductive LedcCall
  | ledcSetDuty (channel : LedcChannel) (duty : Nat)
  | ledcUpdateDuty (channel : LedcChannel)
  | ledcStop (channel : LedcChannel) (idleLevel : Nat)
deriving DecidableEq, Repr

/-- Percent to the duty register's 13 bits. -/
def speedToDuty (speed : UInt8) : Nat :=
  let speed := if speed > 100 then 100 else speed
  speed.toNat * 8191 / 100

def lockDriveIdle (d : LockDriveState) : List LedcCall :=
  [.ledcStop d.channelForward 0, .ledcStop d.channelReverse 0]

def lockDrive (d : LockDriveState) (direction : Direction) (speed : UInt8) : List LedcCall :=
  match direction with
  | .forward =>
    [.ledcSetDuty d.channelForward (speedToDuty speed), .ledcUpdateDuty d.channelForward]
  | .reverse =>
    [.ledcSetDuty d.channelReverse (speedToDuty speed), .ledcUpdateDuty d.channelReverse]

theorem lockDrive_eq (d : LockDriveState) (direction : Direction) (speed : UInt8) :
    lockDrive d direction speed =
      [.ledcSetDuty (d.channel direction) (speedToDuty speed), .ledcUpdateDuty (d.channel direction)] := by
  cases direction <;> rfl

/-! ## The channels -/

/-- A channel's duty register, and the duty it puts out while it is on. -/
structure ChannelState where
  duty : Nat := 0
  output : Option Nat := none
deriving DecidableEq, Repr

/-- The LEDC peripheral, both channels off after their configuration. -/
structure Ledc where
  channel0 : ChannelState := {}
  channel1 : ChannelState := {}
deriving DecidableEq, Repr

namespace Ledc

def get (l : Ledc) : LedcChannel → ChannelState
  | .channel0 => l.channel0
  | .channel1 => l.channel1

def set (l : Ledc) : LedcChannel → ChannelState → Ledc
  | .channel0, c => { l with channel0 := c }
  | .channel1, c => { l with channel1 := c }

/-- A set duty waits in the register until an update puts it out; a stop
turns the channel off. -/
def apply (l : Ledc) : LedcCall → Ledc
  | .ledcSetDuty ch duty => l.set ch { l.get ch with duty := duty }
  | .ledcUpdateDuty ch => l.set ch { l.get ch with output := some (l.get ch).duty }
  | .ledcStop ch _ => l.set ch { l.get ch with output := none }

def On (l : Ledc) (ch : LedcChannel) : Prop := (l.get ch).output.isSome

instance (l : Ledc) (ch : LedcChannel) : Decidable (l.On ch) := by unfold On; infer_instance

theorem get_set (l : Ledc) (ch ch' : LedcChannel) (c : ChannelState) :
    (l.set ch c).get ch' = if ch' = ch then c else l.get ch' := by
  cases ch <;> cases ch' <;> rfl

@[simp] theorem off_boot (ch : LedcChannel) : ¬ ({} : Ledc).On ch := by cases ch <;> simp [On, get]

@[simp] theorem on_setDuty (l : Ledc) (ch ch' : LedcChannel) (duty : Nat) :
    (l.apply (.ledcSetDuty ch duty)).On ch' ↔ l.On ch' := by
  simp only [apply, On, get_set]
  split
  · next h => rw [h]
  · rfl

@[simp] theorem on_updateDuty (l : Ledc) (ch ch' : LedcChannel) :
    (l.apply (.ledcUpdateDuty ch)).On ch' ↔ ch' = ch ∨ l.On ch' := by
  simp only [apply, On, get_set]
  split <;> simp_all

@[simp] theorem on_stop (l : Ledc) (ch ch' : LedcChannel) (idle : Nat) :
    (l.apply (.ledcStop ch idle)).On ch' ↔ ch' ≠ ch ∧ l.On ch' := by
  simp only [apply, On, get_set]
  split <;> simp_all

end Ledc

/-- The channel a call drives: the one an update puts a duty out on. -/
def LedcCall.driven : LedcCall → Option LedcChannel
  | .ledcUpdateDuty ch => some ch
  | _ => none

end GateNode.Lock
