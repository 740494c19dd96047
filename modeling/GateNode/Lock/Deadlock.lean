/-
The deadlock between `lock_task` and the timer service task: one waits to
start the timer, the other, inside the callback, to send. A run is free of it
exactly when none of its steps closes the cycle. Every trigger in the system
goes back to a user's command, so it takes as many as all the places together
hold, and with as many it can happen, whatever the capacities.
-/
import GateNode.Lock.TimerService

namespace GateNode.Lock.TimerSystem

variable {T : Nat}

/-- With this step, each of the two waits for the other. -/
def ClosesCycle (s : TimerSystem T) : TimerEvent → Prop
  /- A user takes the last place of the command queue, before the callback that is in flight. -/
  | .lock (.userSend _) => s.WaitsToStart ∧ s.callback.isSome = true ∧ s.commandQueue.items.length + 1 = queueSize
  /- The service task enters the callback rather than take a timer command. -/
  | .lock .timerExpire => s.WaitsToStart ∧ s.timerArmed = true ∧ queueSize ≤ s.commandQueue.items.length
  /- `lock_task` comes to its `xTimerStart`, by the assignments or the call before it. -/
  | .lock .taskAssign =>
    s.beginning.isSome = true ∧ s.calls.head? = some .xTimerStart ∧ T ≤ s.timerQueue.items.length ∧ s.WaitsToSend
  | .lock .taskCall =>
    s.beginning = none ∧ s.calls.tail.head? = some .xTimerStart ∧ T ≤ s.timerQueue.items.length ∧ s.WaitsToSend
  | _ => False

instance (s : TimerSystem T) : ∀ e, Decidable (s.ClosesCycle e)
  | .lock (.userSend _) | .lock .timerExpire | .lock .taskAssign | .lock .taskCall => by
    unfold ClosesCycle; infer_instance
  | .lock .callbackSend | .lock .taskReceive | .timerCommand => isFalse id

/-! ## An iteration starts the timer once -/

theorem count_driveAndStart (d : LockDriveState) (s : LockState) :
    (driveAndStart d s).count .xTimerStart = 1 := by
  simp [driveAndStart, lockDrive_eq]

theorem count_idleCalls (d : LockDriveState) : (idleCalls d).count .xTimerStart = 0 := by
  simp [idleCalls, lockDriveIdle]

theorem count_closingCase (d : LockDriveState) (s : LockState) (c : MotorCommand) :
    (closingCase d s c).2.count .xTimerStart ≤ 1 := by
  cases c with
  | openMotor => simp [closingCase, count_idleCalls]
  | closeMotor =>
    simp only [closingCase]
    split_ifs <;> simp [count_driveAndStart, count_idleCalls]
  | _ => exact Nat.zero_le 1

theorem count_openingCase (d : LockDriveState) (s : LockState) (c : MotorCommand) :
    (openingCase d s c).2.count .xTimerStart ≤ 1 := by
  cases c with
  | closeMotor => simp [openingCase, count_idleCalls]
  | openMotor =>
    simp only [openingCase]
    split_ifs <;> simp [count_driveAndStart, count_idleCalls]
  | _ => exact Nat.zero_le 1

theorem count_restCase (d : LockDriveState) (s : LockState) (c : MotorCommand) :
    (restCase d s c).2.count .xTimerStart ≤ 1 := by
  cases c with
  | openMotor | closeMotor => exact Nat.le_of_eq (count_driveAndStart d _)
  | _ => exact Nat.zero_le 1

theorem count_lockTask (d : LockDriveState) (s : LockState) (c : MotorCommand) :
    (lockTask d s c).2.count .xTimerStart ≤ 1 := by
  unfold lockTask
  split
  · exact count_closingCase d s c
  · exact count_openingCase d s c
  · exact count_restCase d s c
  · exact count_restCase d s c
  · exact Nat.zero_le 1

/-- What is left of an iteration starts the timer once at most. -/
theorem Step.startsOnce {d : LockDriveState} {s t : TimerSystem T} {e : TimerEvent} (h : Step d s e t)
    (hs : s.calls.count .xTimerStart ≤ 1) : t.calls.count .xTimerStart ≤ 1 := by
  cases h with
  | timerCommand => exact hs
  | timerStart q hstart => exact Nat.le_trans ((List.tail_sublist s.calls).count_le _) hs
  | lock e t hstep =>
    cases hstep with
    | userSend | timerExpire | callbackSend | taskAssign => exact hs
    | taskBegin m | taskReceive m => exact count_lockTask d s.lock m.command
    | taskCall c cs hcalls =>
      show cs.count .xTimerStart ≤ 1
      rw [hcalls, List.count_cons] at hs
      omega

/-! ## Closing the cycle -/

/-- A step into a deadlock closes the cycle. -/
theorem Step.closesCycle {d : LockDriveState} {s t : TimerSystem T} {e : TimerEvent} (h : Step d s e t)
    (hstarts : s.calls.count .xTimerStart ≤ 1) (hdead : t.Deadlocked) : s.ClosesCycle e := by
  obtain ⟨⟨⟨hnone, hhead⟩, hfull⟩, hcallback, hroom⟩ := hdead
  cases h with
  | timerCommand q hc hq =>
    have hcallback : s.callback.isSome = true := hcallback
    rw [hc] at hcallback
    cases hcallback
  | timerStart q hstart hq =>
    -- The timer is started once, so no start is left.
    obtain ⟨cs, hcalls⟩ := List.head?_eq_some_iff.mp hstart.2
    have hhead : s.calls.tail.head? = some .xTimerStart := hhead
    rw [hcalls, List.tail_cons] at hhead
    have hpos := List.count_pos_iff.mpr (List.mem_of_mem_head? hhead)
    rw [hcalls, List.count_cons_self] at hstarts
    omega
  | lock e t hstep hne =>
    cases hstep with
    | userSend r q hq =>
      have hlen : q.items.length = s.commandQueue.items.length + 1 := by rw [hq, List.length_append]; rfl
      have hbound : q.items.length ≤ queueSize := q.bound
      have hroom : queueSize ≤ q.items.length := hroom
      exact ⟨⟨⟨hnone, hhead⟩, hfull⟩, hcallback, by omega⟩
    | timerExpire ha hc => exact ⟨⟨⟨hnone, hhead⟩, hfull⟩, ha, hroom⟩
    | callbackSend => cases hcallback
    | taskBegin m q hcalls hq | taskReceive m q hcalls hq =>
      have hbound := s.commandQueue.bound
      have hroom : queueSize ≤ q.items.length := hroom
      rw [hq, List.length_cons] at hbound
      omega
    | taskAssign m hm => exact ⟨by rw [hm]; rfl, hhead, hfull, hcallback, hroom⟩
    | taskCall c cs hcalls => exact ⟨hnone, by rw [hcalls, List.tail_cons]; exact hhead, hfull, hcallback, hroom⟩

/-- And one that closes the cycle can be taken and leads there. -/
theorem ClosesCycle.deadlock {d : LockDriveState} {s : TimerSystem T} {e : TimerEvent} (h : s.ClosesCycle e)
    (hstarts : s.calls.count .xTimerStart ≤ 1) (hs : ¬ s.Deadlocked) : ∃ t, s.step d e = some t ∧ t.Deadlocked := by
  cases e with
  | timerCommand => exact h.elim
  | lock e =>
    cases e with
    | callbackSend | taskReceive => exact h.elim
    | userSend r =>
      obtain ⟨hstart, hcallback, hlen⟩ := h
      have hlt : s.commandQueue.items.length < queueSize := by omega
      obtain ⟨q, hq⟩ : ∃ q, s.commandQueue.send ⟨r.command, .user⟩ = some q := ⟨_, dif_pos hlt⟩
      have hitems := (Fifo.send_eq_some.mp hq).2
      refine ⟨{ s with commandQueue := q }, by simp [step, System.step, hq], hstart, hcallback, ?_⟩
      show queueSize ≤ q.items.length
      rw [hitems, List.length_append, List.length_singleton]
      omega
    | timerExpire =>
      obtain ⟨hstart, ha, hroom⟩ := h
      have hc : s.callback = none := by
        by_contra hsome
        exact hs ⟨hstart, Option.isSome_iff_ne_none.mpr hsome, hroom⟩
      refine ⟨{ s with timerArmed := false, callback := some s.lock.currentCommand }, ?_, hstart, rfl, hroom⟩
      simp [step, System.step, ha, hc]
    | taskAssign =>
      obtain ⟨hsome, hhead, hfull, hsend⟩ := h
      obtain ⟨m, hm⟩ := Option.isSome_iff_exists.mp hsome
      refine ⟨{ s with lock := (lockTask d s.lock m.command).1, beginning := none }, ?_, ⟨⟨rfl, hhead⟩, hfull⟩, hsend⟩
      simp [step, System.step, hm, hhead, TaskCall.idles]
    | taskCall =>
      obtain ⟨hnone, htail, hfull, hsend⟩ := h
      cases hcalls : s.calls with
      | nil => rw [hcalls] at htail; cases htail
      | cons c cs =>
        rw [hcalls, List.tail_cons] at htail
        -- The timer is started once, so the call before is another.
        have hne : c ≠ .xTimerStart := by
          rintro rfl
          have hpos := List.count_pos_iff.mpr (List.mem_of_mem_head? htail)
          rw [hcalls, List.count_cons_self] at hstarts
          omega
        have hat : ¬ s.AtStart := by
          rintro ⟨-, hhead⟩
          rw [hcalls, List.head?_cons, Option.some.injEq] at hhead
          exact hne hhead
        refine ⟨{ s with calls := cs, ledc := c.apply s.ledc }, ?_, ⟨⟨hnone, htail⟩, hfull⟩, hsend⟩
        simp [step, System.step, hat, hcalls, hnone, hne]

/-- From outside a deadlock, the steps into one are those that close the cycle. -/
theorem not_closesCycle_iff {d : LockDriveState} {s : TimerSystem T} (hstarts : s.calls.count .xTimerStart ≤ 1)
    (hs : ¬ s.Deadlocked) (e : TimerEvent) :
    ¬ s.ClosesCycle e ↔ ∀ t, s.step d e = some t → ¬ t.Deadlocked := by
  constructor
  · intro hopen t ht hdead
    exact hopen ((step_cases ht).closesCycle hstarts hdead)
  · intro h hclose
    obtain ⟨t, ht, hdead⟩ := hclose.deadlock (d := d) hstarts hs
    exact h t ht hdead

/-- A run is free of the deadlock exactly when no step of it closes the cycle. -/
theorem never_deadlocked (T : Nat) (d : LockDriveState) (hold : UInt32) (es : List TimerEvent) :
    (∀ pre s, pre <+: es → run T d hold pre = some s → ¬ s.Deadlocked) ↔
      Lts.Along (step d) (fun s e => ¬ s.ClosesCycle e) (boot T hold) es := by
  refine (Lts.along_iff_never (I := fun s => s.calls.count .xTimerStart ≤ 1) (Nat.zero_le 1) ?_ ?_ ?_).symm
  · intro h
    cases h.1.1.2
  · intro t e u ht hstep
    exact (step_cases hstep).startsOnce ht
  · intro t e ht hb
    exact not_closesCycle_iff ht hb e

/-! ## How many commands it takes -/

/-- What is about to trigger an iteration of `lock_task`, in every place it can be: a command
received, on its way, or to come when the timer expires. -/
def triggers (s : TimerSystem T) : Nat :=
  s.commandQueue.items.length + s.callback.isSome.toNat + s.timerArmed.toNat + s.timerQueue.items.length +
    s.calls.count .xTimerStart

def isSend : TimerEvent → Bool
  | .lock (.userSend _) => true
  | _ => false

/-- A trigger comes from a user or replaces one that is used up. -/
theorem Step.triggers_le {d : LockDriveState} {s t : TimerSystem T} {e : TimerEvent} (h : Step d s e t) :
    t.triggers ≤ s.triggers + (isSend e).toNat := by
  unfold triggers
  cases h with
  | timerCommand q hc hq =>
    have hlen : s.timerQueue.items.length = q.items.length + 1 := by rw [hq, List.length_cons]
    simp only [isSend, Bool.toNat_true, Bool.toNat_false]
    omega
  | timerStart q hstart hq =>
    obtain ⟨cs, hcalls⟩ := List.head?_eq_some_iff.mp hstart.2
    have hlen : q.items.length = s.timerQueue.items.length + 1 := by rw [hq, List.length_append]; rfl
    simp only [hcalls, List.tail_cons, List.count_cons_self, isSend, Bool.toNat_false]
    omega
  | lock e t hstep hne =>
    cases hstep with
    | userSend r q hq =>
      have hlen : q.items.length = s.commandQueue.items.length + 1 := by rw [hq, List.length_append]; rfl
      simp only [isSend, Bool.toNat_true]
      omega
    | timerExpire ha hc =>
      simp only [ha, hc, isSend, Option.isSome_some, Option.isSome_none, Bool.toNat_true, Bool.toNat_false]
      omega
    | callbackSend c hc q hq =>
      have hlen : q.items.length = s.commandQueue.items.length + 1 := by rw [hq, List.length_append]; rfl
      simp only [hc, isSend, Option.isSome_some, Option.isSome_none, Bool.toNat_true, Bool.toNat_false]
      omega
    | taskBegin m q hcalls hq | taskReceive m q hcalls hq =>
      have hlen : s.commandQueue.items.length = q.items.length + 1 := by rw [hq, List.length_cons]
      have hcount := count_lockTask d s.lock m.command
      simp only [hcalls, List.count_nil, isSend, Bool.toNat_false]
      omega
    | taskAssign => exact Nat.le_refl _
    | taskCall c cs hcalls hb =>
      have hne : c ≠ .xTimerStart := by
        rintro rfl
        exact hne rfl ⟨hb.resolve_right nofun, by rw [hcalls, List.head?_cons]⟩
      simp only [hcalls, List.count_cons_of_ne hne, hne, decide_false, Bool.or_false, isSend, Bool.toNat_false]
      omega

theorem triggers_le_sends {d : LockDriveState} {hold : UInt32} {es : List TimerEvent} {s : TimerSystem T}
    (h : run T d hold es = some s) : s.triggers ≤ es.countP isSend := by
  refine Lts.exec_history (I := fun es s => triggers s ≤ es.countP isSend) h (Nat.le_refl 0) ?_
  intro es t e u _ ht hstep
  have hle := (step_cases hstep).triggers_le
  rw [List.countP_append, List.countP_singleton]
  cases he : isSend e <;> simp [he] at hle ⊢ <;> omega

/-- A deadlock takes a trigger in every place but the timer itself. -/
theorem Deadlocked.triggers {s : TimerSystem T} (h : s.Deadlocked) : T + queueSize + 2 ≤ s.triggers := by
  obtain ⟨⟨⟨-, hhead⟩, hfull⟩, hcallback, hroom⟩ := h
  have hpos := List.count_pos_iff.mpr (List.mem_of_mem_head? hhead)
  unfold TimerSystem.triggers
  rw [hcallback, Bool.toNat_true]
  omega

/-- No deadlock before the users have sent two commands more than both queues hold. -/
theorem not_deadlocked_of_few_sends {d : LockDriveState} {hold : UInt32} {es : List TimerEvent}
    {s : TimerSystem T} (h : run T d hold es = some s) (hfew : es.countP isSend < T + queueSize + 2) :
    ¬ s.Deadlocked := by
  intro hdead
  have hmany := hdead.triggers
  have hle := triggers_le_sends h
  omega

/-! ## It can happen -/

/-- A command queue full of users' commands each against the one before. -/
def alternating (r : Request) : Fifo QueuedCommand queueSize where
  items := (List.replicate 5 [⟨r.command, .user⟩, ⟨r.opposite.command, .user⟩]).flatten
  bound := by cases r <;> decide

/-- The callback waits, the lock moves against the next command, and `k` starts of the timer are queued. -/
structure Filling (r : Request) (k : Nat) (s : TimerSystem T) : Prop where
  calls : s.calls = []
  beginning : s.beginning = none
  status : s.lock.status = r.opposite.moving
  commandQueue : s.commandQueue = alternating r
  callback : s.callback.isSome = true
  timerQueue : s.timerQueue.items.length = k

/-- `lock_task` reverses and comes to its `xTimerStart`; a user takes the place it made first. -/
theorem Filling.reverse {d : LockDriveState} {r : Request} {k : Nat} {s : TimerSystem T} (h : Filling r k s) :
    ∃ t, Lts.exec (step d) s
        ([.taskReceive, .taskCall, .taskCall, .taskAssign, .userSend r].map TimerEvent.lock) = some t ∧
      t.calls = [.xTimerStart] ∧ t.beginning = none ∧ t.lock.status = r.moving ∧
      t.commandQueue = alternating r.opposite ∧ t.callback = s.callback ∧ t.timerQueue = s.timerQueue := by
  obtain ⟨⟨lock, ledc, commandQueue, armed, callback, calls, beginning⟩, timerQueue⟩ := s
  obtain ⟨rfl, rfl, hstatus, rfl, -, -⟩ := h
  obtain ⟨q, hreceive, hsend⟩ : ∃ q, (alternating r).receive = some (⟨r.command, .user⟩, q) ∧
      q.send ⟨r.command, .user⟩ = some (alternating r.opposite) := by
    cases r <;> exact ⟨_, rfl, rfl⟩
  have htask : lockTask d lock r.command = (lock.begin r, idleCalls d ++ [.xTimerStart]) :=
    lockTask_reverse hstatus
  have hbegins : lock.Begins r.command := LockState.begins_iff.mpr (.inr hstatus)
  refine ⟨⟨⟨lock.begin r, runCalls ledc (idleCalls d), alternating r.opposite, armed, callback, [.xTimerStart], none⟩,
    timerQueue⟩, ?_, rfl, rfl, rfl, rfl, rfl, rfl⟩
  simp [Lts.exec, step, System.step, System.AtStart, TaskCall.idles, hreceive, hbegins, htask, idleCalls,
    lockDriveIdle, hsend]

theorem Filling.next {d : LockDriveState} {r : Request} {k : Nat} {s : TimerSystem T} (h : Filling r k s)
    (hk : k < T) : ∃ es t, Lts.exec (step d) s es = some t ∧ es.countP isSend = 1 ∧
      Filling r.opposite (k + 1) t := by
  obtain ⟨t, ht, hcalls, hnone, hstatus, hqueue, hcallback, htimer⟩ := h.reverse (d := d)
  have hlt : t.timerQueue.items.length < T := by rw [htimer, h.timerQueue]; exact hk
  obtain ⟨q, hq⟩ : ∃ q, t.timerQueue.send .start = some q := ⟨_, dif_pos hlt⟩
  have hstart : t.AtStart := ⟨hnone, by rw [hcalls]; rfl⟩
  have hstep : t.step d (.lock .taskCall) = some { t with calls := t.calls.tail, timerQueue := q } := by
    simp only [step, hstart, and_self, if_true, hq, Option.map_some]
  refine ⟨_, _, Lts.exec_snoc.mpr ⟨t, ht, hstep⟩, rfl, by rw [hcalls]; rfl, hnone, ?_, hqueue, ?_, ?_⟩
  · rw [r.opposite_opposite]
    exact hstatus
  · rw [← h.callback, ← hcallback]
  · show q.items.length = k + 1
    rw [(Fifo.send_eq_some.mp hq).2, List.length_append, htimer, h.timerQueue]
    rfl

theorem Filling.deadlock {d : LockDriveState} {n k : Nat} {r : Request} {s : TimerSystem T} (h : Filling r k s)
    (hn : k + n = T) : ∃ es t, Lts.exec (step d) s es = some t ∧ es.countP isSend = n + 1 ∧ t.Deadlocked := by
  induction n generalizing r k s with
  | zero =>
    obtain ⟨t, ht, hcalls, hnone, -, hqueue, hcallback, htimer⟩ := h.reverse (d := d)
    refine ⟨_, t, ht, rfl, ⟨⟨hnone, ?_⟩, ?_⟩, ?_, ?_⟩
    · rw [hcalls, List.head?_cons]
    · rw [htimer, h.timerQueue]
      omega
    · rw [hcallback, h.callback]
    · rw [hqueue]
      cases r <;> decide
  | succ n ih =>
    obtain ⟨es, t, ht, hsends, hnext⟩ := h.next (d := d) (by omega)
    obtain ⟨fs, u, hu, hmore, hdead⟩ := ih hnext (by omega)
    refine ⟨es ++ fs, u, Lts.exec_append_eq_some.mpr ⟨t, ht, hu⟩, ?_, hdead⟩
    rw [List.countP_append, hsends, hmore]
    omega

/-- An opening is under way and its callback has read the command; ten users fill the queue before it. -/
def fill : List TimerEvent :=
  [.userSend .motorOpen, .taskReceive, .taskAssign, .taskCall, .taskCall, .taskCall].map .lock ++
    [.timerCommand, .lock .timerExpire] ++
    (List.replicate 5 [.lock (.userSend .motorClose), .lock (.userSend .motorOpen)]).flatten

theorem run_fill (T : Nat) (d : LockDriveState) (hold : UInt32) :
    ∃ s, run (T + 1) d hold fill = some s ∧ Filling .motorClose 0 s := by
  have hrun : (run (T + 1) d hold fill).map (fun s =>
      (s.calls, s.beginning, s.lock.status, s.commandQueue, s.callback.isSome, s.timerQueue.items.length)) =
      some ([], none, .opening, alternating .motorClose, true, 0) := rfl
  obtain ⟨s, hs, heq⟩ := Option.map_eq_some_iff.mp hrun
  simp only [Prod.mk.injEq] at heq
  obtain ⟨hcalls, hbeginning, hstatus, hqueue, hcallback, htimer⟩ := heq
  exact ⟨s, hs, hcalls, hbeginning, hstatus, hqueue, hcallback, htimer⟩

/-- Whatever the timer-command queue holds, the deadlock can be reached, with no more commands
than `not_deadlocked_of_few_sends` says it takes. -/
theorem deadlock_reachable (d : LockDriveState) (hold : UInt32) (hT : 0 < T) :
    ∃ es s, run T d hold es = some s ∧ es.countP isSend = T + queueSize + 2 ∧ s.Deadlocked := by
  obtain ⟨T, rfl⟩ : ∃ n, T = n + 1 := ⟨T - 1, by omega⟩
  obtain ⟨s, hs, hfill⟩ := run_fill T d hold
  obtain ⟨es, t, ht, hsends, hdead⟩ := hfill.deadlock (d := d) (Nat.zero_add (T + 1))
  refine ⟨fill ++ es, t, Lts.exec_append_eq_some.mpr ⟨s, hs, ht⟩, ?_, hdead⟩
  have hfirst : fill.countP isSend = queueSize + 1 := rfl
  rw [List.countP_append, hfirst, hsends]
  omega

/-- **When the lock task and the timer service deadlock**: not before users have sent two commands more
than both queues hold, with as many they can, and a run is free of it exactly when no step of it closes
the cycle. -/
theorem never_deadlocked_iff (T : Nat) (d : LockDriveState) (hold : UInt32) :
    (∀ es s, run T d hold es = some s → es.countP isSend < T + queueSize + 2 → ¬ s.Deadlocked) ∧
    (0 < T → ∃ es s, run T d hold es = some s ∧ es.countP isSend = T + queueSize + 2 ∧ s.Deadlocked) ∧
    ∀ es, (∀ pre s, pre <+: es → run T d hold pre = some s → ¬ s.Deadlocked) ↔
      Lts.Along (step d) (fun s e => ¬ s.ClosesCycle e) (boot T hold) es :=
  ⟨fun _ _ => not_deadlocked_of_few_sends, deadlock_reachable d hold, never_deadlocked T d hold⟩

/-- With room for one timer command: users open and, while the callback has still to send, keep the
queue full with commands each against the one before. -/
theorem burst_deadlocks :
    ∃ s, run 1 lockDriveInit 5000 (fill ++
      [.taskReceive, .taskCall, .taskCall, .taskAssign, .userSend .motorClose, .taskCall, .taskReceive, .taskCall,
        .taskCall, .taskAssign, .userSend .motorOpen].map .lock) = some s ∧ s.Deadlocked :=
  ⟨_, rfl, by decide⟩

end GateNode.Lock.TimerSystem
