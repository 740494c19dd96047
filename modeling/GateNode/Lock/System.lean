/-
The lock as the tasks around it see it: users send on the command queue, the
timer service runs the callback of the one-shot timer, and `lock_task`
receives. Every order of their steps is a run. A user's command and a tick
are the same value on the queue; `Source` is known to the proofs only, no
step reads it.

An iteration of `lock_task` begins with the receive and then makes its calls
one by one, so others move between any two of them, and throughout the hold.
Where it begins a movement, it assigns `current_command` in a step of its
own: before its calls, or, against a movement under way, behind those of
`lock_drive_idle`. What else an iteration assigns none of these tasks reads
but `lock_task`, and it is assigned with the receive.
-/
import GateNode.Lib.Lts
import GateNode.Lib.Fifo
import GateNode.Lock.Motor

namespace GateNode.Lock

/-- Who sent a command. -/
inductive Source
  | user
  | timer
deriving DecidableEq, Repr

structure QueuedCommand where
  command : MotorCommand
  source : Source
deriving DecidableEq, Repr

def queueSize : Nat := 10

structure System where
  lock : LockState
  ledc : Ledc := {}
  commandQueue : Fifo QueuedCommand queueSize := .empty
  /-- The one-shot timer is running. -/
  timerArmed : Bool := false
  /-- A callback has read `current_command` and not yet sent it. -/
  callback : Option MotorCommand := none
  /-- The calls left of the iteration; none while `lock_task` waits to receive. -/
  calls : List TaskCall := []
  /-- The command received, until the assignments of the movement it begins are made. -/
  beginning : Option QueuedCommand := none
deriving DecidableEq

def System.boot (hold : UInt32) : System where
  lock := .boot hold

inductive Event
  /-- `set_motor_open` or `set_motor_close` gets its command onto the queue. -/
  | userSend (r : Request)
  /-- The timer expires and the callback reads the current command. -/
  | timerExpire
  | callbackSend
  | taskReceive
  /-- The assignments with which a movement begins. -/
  | taskAssign
  /-- The next call of the iteration; of `vTaskDelay`, its return. -/
  | taskCall
deriving DecidableEq, Repr

/-- A call of `lock_drive_idle`. -/
def TaskCall.idles : TaskCall → Bool
  | .ledc (.ledcStop _ _) => true
  | _ => false

/-- One step; sends block, so one that finds the queue full is not enabled. -/
def System.step (d : LockDriveState) (s : System) : Event → Option System
  | .userSend r =>
    (s.commandQueue.send ⟨r.command, .user⟩).map fun q => { s with commandQueue := q }
  | .timerExpire =>
    -- The service task runs one callback at a time.
    if s.timerArmed ∧ s.callback = none then
      some { s with timerArmed := false, callback := some s.lock.currentCommand }
    else
      none
  | .callbackSend =>
    s.callback.bind fun c =>
      (s.commandQueue.send ⟨c, .timer⟩).map fun q => { s with commandQueue := q, callback := none }
  | .taskReceive =>
    if s.calls = [] then
      s.commandQueue.receive.map fun (m, q) =>
        if s.lock.Begins m.command then
          { s with calls := (lockTask d s.lock m.command).2, commandQueue := q, beginning := some m }
        else
          { s with
            lock := (lockTask d s.lock m.command).1
            calls := (lockTask d s.lock m.command).2
            commandQueue := q }
    else
      none
  | .taskAssign =>
    s.beginning.bind fun m =>
      if s.calls.head?.any TaskCall.idles then
        none
      else
        some { s with lock := (lockTask d s.lock m.command).1, beginning := none }
  | .taskCall =>
    match s.calls with
    | [] => none
    | c :: cs =>
      if s.beginning = none ∨ c.idles then
        some { s with
          calls := cs
          ledc := c.apply s.ledc
          timerArmed := s.timerArmed || c = .xTimerStart }
      else
        none

/-- What a step can do. -/
inductive System.Step (d : LockDriveState) (s : System) : Event → System → Prop
  | userSend (r : Request) (q : Fifo QueuedCommand queueSize)
      (hq : q.items = s.commandQueue.items ++ [⟨r.command, .user⟩]) :
      Step d s (.userSend r) { s with commandQueue := q }
  | timerExpire (ha : s.timerArmed = true) (hc : s.callback = none) :
      Step d s .timerExpire { s with timerArmed := false, callback := some s.lock.currentCommand }
  | callbackSend (c : MotorCommand) (hc : s.callback = some c) (q : Fifo QueuedCommand queueSize)
      (hq : q.items = s.commandQueue.items ++ [⟨c, .timer⟩]) :
      Step d s .callbackSend { s with commandQueue := q, callback := none }
  /-- Of a command that begins a movement. -/
  | taskBegin (m : QueuedCommand) (q : Fifo QueuedCommand queueSize) (hcalls : s.calls = [])
      (hq : s.commandQueue.items = m :: q.items) (hb : s.lock.Begins m.command) :
      Step d s .taskReceive
        { s with calls := (lockTask d s.lock m.command).2, commandQueue := q, beginning := some m }
  /-- Of any other. -/
  | taskReceive (m : QueuedCommand) (q : Fifo QueuedCommand queueSize) (hcalls : s.calls = [])
      (hq : s.commandQueue.items = m :: q.items) (hb : ¬ s.lock.Begins m.command) :
      Step d s .taskReceive
        { s with
          lock := (lockTask d s.lock m.command).1
          calls := (lockTask d s.lock m.command).2
          commandQueue := q }
  | taskAssign (m : QueuedCommand) (hm : s.beginning = some m) :
      Step d s .taskAssign { s with lock := (lockTask d s.lock m.command).1, beginning := none }
  | taskCall (c : TaskCall) (cs : List TaskCall) (hcalls : s.calls = c :: cs)
      (hb : s.beginning = none ∨ c.idles = true) :
      Step d s .taskCall
        { s with calls := cs, ledc := c.apply s.ledc, timerArmed := s.timerArmed || c = .xTimerStart }

theorem System.step_cases {d : LockDriveState} {s t : System} {e : Event} (h : s.step d e = some t) :
    Step d s e t := by
  cases e with
  | userSend r =>
    obtain ⟨q, hq, rfl⟩ := Option.map_eq_some_iff.mp h
    exact .userSend r q (Fifo.send_eq_some.mp hq).2
  | timerExpire =>
    simp only [step] at h
    split at h
    · next hc =>
      cases h
      exact .timerExpire hc.1 hc.2
    · cases h
  | callbackSend =>
    obtain ⟨c, hc, h⟩ := Option.bind_eq_some_iff.mp h
    obtain ⟨q, hq, rfl⟩ := Option.map_eq_some_iff.mp h
    exact .callbackSend c hc q (Fifo.send_eq_some.mp hq).2
  | taskReceive =>
    simp only [step] at h
    split at h
    · next hcalls =>
      obtain ⟨⟨m, q⟩, hq, rfl⟩ := Option.map_eq_some_iff.mp h
      have hq := Fifo.receive_eq_some.mp hq
      by_cases hb : s.lock.Begins m.command
      · simp only [hb, if_true]
        exact .taskBegin m q hcalls hq hb
      · simp only [hb, if_false]
        exact .taskReceive m q hcalls hq hb
    · cases h
  | taskAssign =>
    obtain ⟨m, hm, h⟩ := Option.bind_eq_some_iff.mp h
    split at h
    · cases h
    · cases h
      exact .taskAssign m hm
  | taskCall =>
    simp only [step] at h
    split at h
    · cases h
    · next c cs hcalls =>
      split at h
      · next hb =>
        cases h
        exact .taskCall c cs hcalls hb
      · cases h

/-- The steps of a run from boot. -/
abbrev run (d : LockDriveState) (hold : UInt32) (es : List Event) : Option System :=
  Lts.exec (System.step d) (.boot hold) es

/-! ## What every run keeps -/

/-- The lock is `LockOk`, every command about is a request's, and a movement
under way has its next tick to come: the timer is armed or about to be, or
its tick is on the way. An iteration that ends a movement starts no timer. -/
structure System.Ok (s : System) : Prop where
  lockOk : LockOk s.lock
  queued : ∀ m ∈ s.commandQueue.items, ∃ r : Request, m.command = r.command
  read : ∀ c, s.callback = some c → ∃ r : Request, c = r.command
  begun : ∀ m, s.beginning = some m →
    TaskCall.xTimerStart ∈ s.calls ∧ ∃ r : Request, m.command = r.command ∧ s.lock.Begins r.command
  ticks : s.lock.Moving → s.timerArmed ∨ s.callback.isSome ∨ TaskCall.xTimerStart ∈ s.calls ∨
    ∃ m ∈ s.commandQueue.items, m.source = .timer
  restCalls : s.lock.AtRest → s.beginning = none → TaskCall.xTimerStart ∉ s.calls

theorem LockOk.currentCommand {s : LockState} (h : LockOk s) : ∃ r : Request, s.currentCommand = r.command := by
  cases h with
  | rest r _ command => exact ⟨r, command⟩
  | moving r _ command => exact ⟨r, command⟩

/-- An iteration that leaves the lock moving either starts the timer or did
nothing. -/
theorem LockStep.starts {d : LockDriveState} {s t : LockState} {r : Request} {calls : List TaskCall}
    (h : LockStep d s r.command t calls) (ht : t.Moving) : TaskCall.xTimerStart ∈ calls := by
  generalize hc : r.command = c at h
  cases h with
  | ignore hn => exact absurd hc.symm (hn r)
  | start | reverse | advance => simp
  | finish r' => exact absurd (LockState.atRest_iff.mpr ⟨r', rfl⟩) ht.not_atRest

/-- And one that leaves it at rest is the movement's last. -/
theorem LockStep.finished {d : LockDriveState} {s t : LockState} {r : Request} {calls : List TaskCall}
    (h : LockStep d s r.command t calls) (ht : t.AtRest) :
    s.status = r.moving ∧ r.profile.getLast? = some (s.speed, s.speedIncrement) ∧ calls = idleCalls d := by
  generalize hc : r.command = c at h
  cases h with
  | ignore hn => exact absurd hc.symm (hn r)
  | start r' | reverse r' => exact absurd ht (LockState.not_atRest_begin _ r')
  | advance r' q hs => exact absurd ht (LockState.not_atRest_of_moving hs)
  | finish r' hs hq =>
    obtain rfl := Request.command_injective hc
    exact ⟨hs, hq, rfl⟩

/-- Between iterations no assignments are left. -/
theorem System.Ok.settled {s : System} (h : s.Ok) (hcalls : s.calls = []) : s.beginning = none := by
  cases hb : s.beginning with
  | none => rfl
  | some m =>
    have hmem := (h.begun m hb).1
    rw [hcalls] at hmem
    cases hmem

/-- A movement begins with the assignments of its first command. -/
theorem System.Ok.assigned {s : System} (h : s.Ok) (d : LockDriveState) {m : QueuedCommand}
    (hm : s.beginning = some m) :
    ∃ r : Request, m.command = r.command ∧ (lockTask d s.lock m.command).1 = s.lock.begin r := by
  obtain ⟨-, r, hr, hb⟩ := h.begun m hm
  exact ⟨r, hr, by rw [hr, lockTask_begins hb]⟩

theorem System.Ok.boot (hold : UInt32) : (System.boot hold).Ok where
  lockOk := .boot hold
  queued := by simp [System.boot]
  read := by simp [System.boot]
  begun := by simp [System.boot]
  ticks h := by simp [LockState.Moving, System.boot, LockState.boot] at h
  restCalls _ _ := by simp [System.boot]

theorem System.Ok.step {d : LockDriveState} {s t : System} {e : Event} (h : s.Ok) (hs : Step d s e t) :
    t.Ok := by
  cases hs with
  | userSend r q hq =>
    refine ⟨h.lockOk, fun m hm => ?_, h.read, h.begun, fun hmv => ?_, h.restCalls⟩
    · rw [hq, List.mem_append, List.mem_singleton] at hm
      rcases hm with hm | rfl
      · exact h.queued m hm
      · exact ⟨r, rfl⟩
    · rcases h.ticks hmv with ha | hc | hx | ⟨m, hm, ht⟩
      · exact .inl ha
      · exact .inr (.inl hc)
      · exact .inr (.inr (.inl hx))
      · exact .inr (.inr (.inr ⟨m, by rw [hq]; exact List.mem_append_left _ hm, ht⟩))
  | timerExpire =>
    refine ⟨h.lockOk, h.queued, fun c hc => ?_, h.begun, fun _ => .inr (.inl rfl), h.restCalls⟩
    cases hc
    exact h.lockOk.currentCommand
  | callbackSend c hc q hq =>
    refine ⟨h.lockOk, fun m hm => ?_, fun c' hc' => ?_, h.begun,
      fun _ => .inr (.inr (.inr ⟨⟨c, .timer⟩, ?_, rfl⟩)), h.restCalls⟩
    · rw [hq, List.mem_append, List.mem_singleton] at hm
      rcases hm with hm | rfl
      · exact h.queued m hm
      · exact h.read c hc
    · cases hc'
    · rw [hq]
      exact List.mem_append_right _ (List.mem_singleton.mpr rfl)
  | taskBegin m q hcalls hq hb =>
    obtain ⟨r, hr⟩ := h.queued m (by rw [hq]; exact List.mem_cons_self)
    have hstep := lockTask_step (d := d) h.lockOk m.command
    rw [hr] at hstep hb
    have hx : TaskCall.xTimerStart ∈ (lockTask d s.lock m.command).2 := by
      rw [hr]
      refine hstep.starts ?_
      rw [lockTask_begins hb]
      exact LockState.moving_iff.mpr ⟨r, rfl⟩
    refine ⟨h.lockOk, fun m' hm' => h.queued m' (by rw [hq]; exact List.mem_cons_of_mem _ hm'), h.read,
      fun m' hm' => ?_, fun _ => .inr (.inr (.inl hx)), fun _ hn => by cases hn⟩
    cases hm'
    exact ⟨hx, r, hr, hb⟩
  | taskReceive m q hcalls hq hb =>
    obtain ⟨r, hr⟩ := h.queued m (by rw [hq]; exact List.mem_cons_self)
    have hsettled := h.settled hcalls
    have hstep := lockTask_step (d := d) h.lockOk m.command
    rw [hr] at hstep
    refine ⟨hr ▸ hstep.lockOk h.lockOk, fun m' hm' => h.queued m' (by rw [hq]; exact List.mem_cons_of_mem _ hm'),
      h.read, fun m' hm' => ?_, fun hmv => .inr (.inr (.inl ?_)), fun ht _ => ?_⟩
    · rw [show s.beginning = some m' from hm'] at hsettled
      cases hsettled
    · simp only [hr] at hmv ⊢
      exact hstep.starts hmv
    · simp only [hr] at ht ⊢
      rw [(hstep.finished ht).2.2]
      simp [idleCalls]
  | taskAssign m hm =>
    obtain ⟨r, hr, hbegin⟩ := h.assigned d hm
    refine ⟨?_, h.queued, h.read, fun m' hm' => ?_, fun _ => .inr (.inr (.inl (h.begun m hm).1)), fun ht _ => ?_⟩
    · rw [hbegin]
      exact .begin s.lock r
    · cases hm'
    · rw [hbegin] at ht
      exact absurd ht (LockState.not_atRest_begin s.lock r)
  | taskCall c cs hcalls hb =>
    refine ⟨h.lockOk, h.queued, h.read, fun m hm => ?_, fun hmv => ?_, fun ht hn hx => ?_⟩
    · obtain ⟨hx, hr⟩ := h.begun m hm
      have hidles : c.idles = true := hb.resolve_left fun hn => by rw [hm] at hn; cases hn
      rw [hcalls, List.mem_cons] at hx
      rcases hx with rfl | hx
      · cases hidles
      · exact ⟨hx, hr⟩
    · rcases h.ticks hmv with ha | hc | hx | hm
      · exact .inl (by simp [ha])
      · exact .inr (.inl hc)
      · rw [hcalls, List.mem_cons] at hx
        rcases hx with hx | hx
        · exact .inl (by simp [← hx])
        · exact .inr (.inr (.inl hx))
      · exact .inr (.inr (.inr hm))
    · exact h.restCalls ht hn (by rw [hcalls]; exact List.mem_cons_of_mem _ hx)

theorem run_ok {d : LockDriveState} {hold : UInt32} {es : List Event} {s : System}
    (h : run d hold es = some s) : s.Ok :=
  Lts.exec_invariant h (.boot hold) fun _ _ _ hs hl => hs.step (System.step_cases hl)

end GateNode.Lock
