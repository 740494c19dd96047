/-
The gate as the home node meets it: its messages wait in the event loop, the
handler takes them one by one and has the lock move or answers with its
status, while `lock_task` and the timer go on. A send on a full command
queue waits, and the event loop with it.

`lock_task` assigns the status of a rest behind `lock_drive_idle`, and that of
a movement from rest behind `lock_drive`, which is when an answer sees it.
-/
import GateNode.Lib.Part
import GateNode.Lock.Bound
import GateNode.Boot.System

namespace GateNode.Gate

open GateNode.Boot (MessageEvent LockFunction routineMessageCodecEventsHandler)

abbrev Mac := Vector UInt8 6

def homeNodeMac : Mac := #v[0x64, 0xe8, 0x33, 0x88, 0x22, 0x38]

/-- An event of MESSAGE_CODEC, with the address its data points to. -/
structure Message where
  event : MessageEvent
  mac : Mac
deriving DecidableEq

/-- What `message_codec_send_status` is given. -/
structure Answer where
  mac : Mac
  status : Lock.LockInterfaceStatus
deriving DecidableEq

/-- The movement a message asks for. -/
def Message.request (m : Message) : Option Lock.Request :=
  (routineMessageCodecEventsHandler m.event).bind LockFunction.request

/-- The message asks for the status. -/
def Message.asks (m : Message) : Bool := routineMessageCodecEventsHandler m.event = some .getLockStatus

structure System where
  /-- The event loop, the oldest first. -/
  messages : List Message := []
  lock : Lock.System
  /-- `lock_state.status` as others read it. -/
  status : Lock.LockStatus := .closed

def System.boot (hold : UInt32) : System where
  lock := .boot hold

inductive Event
  | arrive (m : Message)
  /-- The handler takes the oldest message and returns. -/
  | handle
  /-- A step of `lock_task` or of its timer. -/
  | lock (e : Lock.Event)
deriving DecidableEq

/-- A call of `lock_drive` or `lock_drive_idle`. -/
def isDrive : Lock.TaskCall → Bool
  | .ledc _ => true
  | _ => false

/-- The lock has made a step; the status follows once the iteration's drive calls are made. -/
def System.moved (s : System) (l : Lock.System) : System :=
  { s with lock := l, status := if l.calls.any isDrive then s.status else l.lock.status }

/-- One step. -/
def System.step (d : Lock.LockDriveState) (s : System) : Event → Option System
  | .arrive m => some { s with messages := s.messages ++ [m] }
  | .handle =>
    match s.messages with
    | [] => none
    | m :: rest =>
      match m.request with
      | some r => (s.lock.step d (.userSend r)).map fun l => { s with messages := rest, lock := l }
      | none => some { s with messages := rest }
  | .lock (.userSend _) => none
  | .lock e => (s.lock.step d e).map s.moved

theorem System.step_lock {d : Lock.LockDriveState} {s : System} {e : Lock.Event} (he : Lock.Unasked e) :
    s.step d (.lock e) = (s.lock.step d e).map s.moved := by
  cases e with
  | userSend r => exact absurd rfl (he r)
  | timerExpire | callbackSend | taskReceive | taskAssign | taskCall => rfl

/-- What is answered in a step. -/
def System.answer (s : System) : Event → List Answer
  | .handle => (s.messages.head?.toList.filter Message.asks).map fun m =>
      ⟨m.mac, Lock.getLockStatus { s.lock.lock with status := s.status }⟩
  | _ => []

/-- What a step can do. -/
inductive System.Step (d : Lock.LockDriveState) (s : System) : Event → System → Prop
  | arrive (m : Message) : Step d s (.arrive m) { s with messages := s.messages ++ [m] }
  | command (m : Message) (rest : List Message) (hm : s.messages = m :: rest) (r : Lock.Request)
      (hr : m.request = some r) (l : Lock.System) (hl : s.lock.step d (.userSend r) = some l) :
      Step d s .handle { s with messages := rest, lock := l }
  | other (m : Message) (rest : List Message) (hm : s.messages = m :: rest) (hr : m.request = none) :
      Step d s .handle { s with messages := rest }
  | lock (e : Lock.Event) (he : Lock.Unasked e) (l : Lock.System) (hl : s.lock.step d e = some l) :
      Step d s (.lock e) (s.moved l)

theorem System.step_cases {d : Lock.LockDriveState} {s t : System} {e : Event} (h : s.step d e = some t) :
    Step d s e t := by
  cases e with
  | arrive m =>
    cases h
    exact .arrive m
  | handle =>
    simp only [step] at h
    split at h
    · cases h
    · next m rest hm =>
      split at h
      · next r hr =>
        obtain ⟨l, hl, rfl⟩ := Option.map_eq_some_iff.mp h
        exact .command m rest hm r hr l hl
      · next hr =>
        cases h
        exact .other m rest hm hr
  | lock e =>
    cases e with
    | userSend r => cases h
    | timerExpire | callbackSend | taskReceive | taskAssign | taskCall =>
      obtain ⟨l, hl, rfl⟩ := Option.map_eq_some_iff.mp h
      refine .lock _ (fun r he => ?_) l hl
      cases he

/-- The steps of a run from boot. -/
abbrev run (d : Lock.LockDriveState) (hold : UInt32) (es : List Event) : Option System :=
  Lts.exec (System.step d) (.boot hold) es

/-! ## The lock in it -/

/-- What a step is to the lock. -/
def System.lockEvents (s : System) : Event → List Lock.Event
  | .arrive _ => []
  | .handle => (s.messages.head?.bind Message.request).toList.map .userSend
  | .lock e => [e]

variable {d : Lock.LockDriveState} {hold : UInt32} {s t : System} {e : Event} {es : List Event}

theorem System.Step.lock_exec (h : Step d s e t) :
    Lts.exec (Lock.System.step d) s.lock (s.lockEvents e) = some t.lock := by
  cases h with
  | arrive => rfl
  | command m rest hm r hr l hl => simp [lockEvents, hm, hr, Lts.exec, hl]
  | other m rest hm hr => simp [lockEvents, hm, hr]
  | lock e he l hl => simp [lockEvents, Lts.exec, hl, moved]

/-- **The lock in the gate is the lock**: a run of the gate is one of the lock, whose users are the messages. -/
theorem run_lock (h : run d hold es = some s) :
    Lock.run d hold (Lts.collect (System.step d) System.lockEvents (.boot hold) es) = some s.lock :=
  Lts.exec_part System.lock h fun _ _ _ hstep => (System.step_cases hstep).lock_exec

theorem run_ok (h : run d hold es = some s) : s.lock.Ok := Lock.run_ok (run_lock h)

/-- Between the drive calls of an iteration the status is still the one before. -/
theorem run_status (h : run d hold es = some s) : s.lock.calls.any isDrive ∨ s.status = s.lock.lock.status := by
  refine Lts.exec_invariant (I := fun s => s.lock.calls.any isDrive ∨ s.status = s.lock.lock.status) h (.inr rfl) ?_
  intro s e t hs hstep
  cases System.step_cases hstep with
  | arrive | other => exact hs
  | command m rest hm r hr l hl =>
    cases Lock.System.step_cases hl
    exact hs
  | lock e he l hl =>
    by_cases hd : l.calls.any isDrive
    · exact .inl hd
    · exact .inr (if_neg hd)

end GateNode.Gate
