/-
The lock with the kernel's timer service under it. `xTimerStart` only puts a
command on the timer-command queue; the timer service task takes it from
there, and it is the same task that runs the callback, so while a callback
waits for room on the command queue no timer command is taken. Every send
waits for room, so one that finds none is not enabled. All else is as in
`System`, whose runs are those in which the timer does not expire before the
commands given to it are taken.
-/
import GateNode.Lock.System

namespace GateNode.Lock

/-! ## The timer in a step of the lock -/

/-- `lock_task` is at its `xTimerStart`. -/
def System.AtStart (s : System) : Prop := s.beginning = none ∧ s.calls.head? = some .xTimerStart

instance (s : System) : Decidable s.AtStart := by unfold System.AtStart; infer_instance

/-- A step that neither is the timer's nor starts it is the same whether or not it is armed. -/
theorem System.step_armed (d : LockDriveState) (s : System) (armed : Bool) {e : Event} (hexpire : e ≠ .timerExpire)
    (hstart : e = .taskCall → ¬ s.AtStart) :
    System.step d { s with timerArmed := armed } e =
      (s.step d e).map fun t => { t with timerArmed := armed } := by
  cases e with
  | userSend r => simp only [step, Option.map_map]; rfl
  | timerExpire => exact absurd rfl hexpire
  | callbackSend =>
    cases hc : s.callback with
    | none => simp [step, hc]
    | some c => simp only [step, hc, Option.bind_some, Option.map_map]; rfl
  | taskReceive =>
    simp only [step]
    split
    · rw [Option.map_map]
      congr 1
      funext received
      obtain ⟨m, q⟩ := received
      simp only [Function.comp_apply]
      split <;> rfl
    · rfl
  | taskAssign =>
    cases hb : s.beginning with
    | none => simp [step, hb]
    | some m =>
      simp only [step, hb, Option.bind_some]
      split <;> rfl
  | taskCall =>
    cases hcalls : s.calls with
    | nil => simp [step, hcalls]
    | cons c cs =>
      simp only [step, hcalls]
      split
      · next hb =>
        have hne : c ≠ .xTimerStart := by
          rintro rfl
          exact hstart rfl ⟨hb.resolve_right Bool.false_ne_true, by rw [hcalls]; rfl⟩
        simp [hne]
      · rfl

/-- What neither is the timer's nor starts it leaves it as it was. -/
theorem System.armed_of_step {d : LockDriveState} {s t : System} {e : Event} (h : s.step d e = some t)
    (hexpire : e ≠ .timerExpire) (hstart : e = .taskCall → ¬ s.AtStart) : t.timerArmed = s.timerArmed := by
  have hsame := s.step_armed d s.timerArmed hexpire hstart
  rw [h, Option.map_some] at hsame
  exact (congrArg System.timerArmed (Option.some.inj hsame) :)

theorem System.step_start {d : LockDriveState} {s : System} (h : s.AtStart) :
    s.step d .taskCall = some { s with calls := s.calls.tail, timerArmed := true } := by
  obtain ⟨hb, hhead⟩ := h
  obtain ⟨cs, hcalls⟩ := List.head?_eq_some_iff.mp hhead
  simp [System.step, hcalls, hb, TaskCall.apply]

/-! ## The timer service -/

/-- What goes through the timer-command queue; the lock asks for nothing but starts. -/
inductive TimerCommand
  | start
deriving DecidableEq, Repr

/-- The lock, its tasks and the two queues between them; the timer-command queue holds `T`. -/
structure TimerSystem (T : Nat) extends System where
  timerQueue : Fifo TimerCommand T := .empty
deriving DecidableEq

inductive TimerEvent
  | lock (e : Event)
  /-- The service task takes a timer command. -/
  | timerCommand
deriving DecidableEq, Repr

namespace TimerSystem

variable {T : Nat} {d : LockDriveState} {hold : UInt32}

def boot (T : Nat) (hold : UInt32) : TimerSystem T where
  toSystem := .boot hold

def step (d : LockDriveState) (s : TimerSystem T) : TimerEvent → Option (TimerSystem T)
  | .timerCommand =>
    if s.callback = none then
      s.timerQueue.receive.map fun (_, q) => { s with timerQueue := q, timerArmed := true }
    else
      none
  | .lock e =>
    if e = .taskCall ∧ s.AtStart then
      (s.timerQueue.send .start).map fun q => { s with calls := s.calls.tail, timerQueue := q }
    else
      (s.toSystem.step d e).map fun t => { s with toSystem := t }

/-- What a step can do. -/
inductive Step (d : LockDriveState) (s : TimerSystem T) : TimerEvent → TimerSystem T → Prop
  | lock (e : Event) (t : System) (hs : System.Step d s.toSystem e t) (hne : e = .taskCall → ¬ s.AtStart) :
      Step d s (.lock e) { s with toSystem := t }
  | timerStart (q : Fifo TimerCommand T) (hstart : s.AtStart) (hq : q.items = s.timerQueue.items ++ [.start]) :
      Step d s (.lock .taskCall) { s with calls := s.calls.tail, timerQueue := q }
  | timerCommand (q : Fifo TimerCommand T) (hc : s.callback = none) (hq : s.timerQueue.items = .start :: q.items) :
      Step d s .timerCommand { s with timerQueue := q, timerArmed := true }

theorem step_cases {s t : TimerSystem T} {e : TimerEvent} (h : s.step d e = some t) :
    Step d s e t := by
  cases e with
  | timerCommand =>
    simp only [step] at h
    split at h
    · next hc =>
      obtain ⟨⟨⟨⟩, q⟩, hq, rfl⟩ := Option.map_eq_some_iff.mp h
      exact .timerCommand q hc (Fifo.receive_eq_some.mp hq)
    · cases h
  | lock e =>
    simp only [step] at h
    split at h
    · next hstart =>
      obtain ⟨rfl, hstart⟩ := hstart
      obtain ⟨q, hq, rfl⟩ := Option.map_eq_some_iff.mp h
      exact .timerStart q hstart (Fifo.send_eq_some.mp hq).2
    · next hne =>
      obtain ⟨t, ht, rfl⟩ := Option.map_eq_some_iff.mp h
      exact .lock e t (System.step_cases ht) fun he hstart => hne ⟨he, hstart⟩

/-- The steps of a run from boot. -/
abbrev run (T : Nat) (d : LockDriveState) (hold : UInt32) (es : List TimerEvent) : Option (TimerSystem T) :=
  Lts.exec (step d) (boot T hold) es

/-! ## Waiting -/

/-- `lock_task` is at its `xTimerStart` and finds no room. -/
def WaitsToStart (s : TimerSystem T) : Prop := s.AtStart ∧ T ≤ s.timerQueue.items.length

/-- The service task is in the callback and finds no room. -/
def WaitsToSend (s : TimerSystem T) : Prop :=
  s.callback.isSome = true ∧ queueSize ≤ s.commandQueue.items.length

def Deadlocked (s : TimerSystem T) : Prop := s.WaitsToStart ∧ s.WaitsToSend

instance (s : TimerSystem T) : Decidable s.WaitsToStart := by unfold WaitsToStart; infer_instance
instance (s : TimerSystem T) : Decidable s.WaitsToSend := by unfold WaitsToSend; infer_instance
instance (s : TimerSystem T) : Decidable s.Deadlocked := by unfold Deadlocked; infer_instance

/-- From a deadlock nothing moves any more, no user either. -/
theorem Deadlocked.stuck {s : TimerSystem T} (h : s.Deadlocked) (e : TimerEvent) :
    s.step d e = none := by
  obtain ⟨⟨hstart, hfull⟩, hcallback, hroom⟩ := h
  obtain ⟨c, hc⟩ := Option.isSome_iff_exists.mp hcallback
  obtain ⟨cs, hcalls⟩ := List.head?_eq_some_iff.mp hstart.2
  cases e with
  | timerCommand => simp [step, hc]
  | lock e =>
    cases e with
    | userSend r => simp [step, System.step, Fifo.send_eq_none.mpr hroom]
    | timerExpire => simp [step, System.step, hc]
    | callbackSend => simp [step, System.step, hc, Fifo.send_eq_none.mpr hroom]
    | taskReceive => simp [step, System.step, hcalls]
    | taskAssign => simp [step, System.step, hstart.1]
    | taskCall => simp [step, hstart, Fifo.send_eq_none.mpr hfull]

/-- And only a deadlock is such a state. -/
theorem deadlocked_of_stuck {s : TimerSystem T} (hT : 0 < T)
    (h : ∀ e, s.step d e = none) : s.Deadlocked := by
  have hlock (e : Event) (hne : e ≠ .taskCall) : s.toSystem.step d e = none := by
    have := h (.lock e)
    simpa only [step, hne, false_and, if_false, Option.map_eq_none_iff] using this
  have hroom : queueSize ≤ s.commandQueue.items.length := by
    have hsend := hlock (.userSend .motorOpen) (by simp)
    simpa only [System.step, Option.map_eq_none_iff, Fifo.send_eq_none] using hsend
  have hstart : s.AtStart := by
    by_contra hne
    have hcall := h (.lock .taskCall)
    have hreceive := hlock .taskReceive (by simp)
    have hassign := hlock .taskAssign (by simp)
    simp only [step, hne, and_false, if_false, Option.map_eq_none_iff] at hcall
    cases hcalls : s.calls with
    | nil =>
      simp only [System.step, hcalls, if_true, Option.map_eq_none_iff, Fifo.receive_eq_none] at hreceive
      rw [hreceive] at hroom
      cases hroom
    | cons c cs =>
      cases hb : s.beginning with
      | none => simp [System.step, hcalls, hb] at hcall
      | some m => cases hidles : c.idles <;> simp [System.step, hcalls, hb, hidles] at hcall hassign
  have hfull : T ≤ s.timerQueue.items.length := by
    have := h (.lock .taskCall)
    simpa only [step, hstart, and_self, if_true, Option.map_eq_none_iff, Fifo.send_eq_none] using this
  refine ⟨⟨hstart, hfull⟩, ?_, hroom⟩
  -- Outside a callback the service task would take a command from the full queue.
  by_contra hcallback
  have hc : s.callback = none := by simpa using hcallback
  have hempty := h .timerCommand
  rw [step, if_pos hc, Option.map_eq_none_iff, Fifo.receive_eq_none] at hempty
  rw [hempty, List.length_nil] at hfull
  omega

/-! ## The timer's commands taken in time -/

/-- The lock, the commands given to its timer taken. -/
def taken (s : TimerSystem T) : System :=
  { s.toSystem with timerArmed := s.timerArmed || decide (s.timerQueue.items ≠ []) }

/-- The timer does not expire before the commands given to it are taken. -/
def Prompt (s : TimerSystem T) (e : TimerEvent) : Prop := e = .lock .timerExpire → s.timerQueue.items = []

def lockEvents (es : List TimerEvent) : List Event :=
  es.filterMap fun
    | .lock e => some e
    | .timerCommand => none

@[simp] theorem lockEvents_append (es fs : List TimerEvent) :
    lockEvents (es ++ fs) = lockEvents es ++ lockEvents fs := List.filterMap_append

/-- A step taken in time is one of the lock; to take a timer command is none. -/
theorem taken_step {s t : TimerSystem T} {e : TimerEvent} (h : s.step d e = some t) (hp : s.Prompt e) :
    Lts.exec (System.step d) s.taken (lockEvents [e]) = some t.taken := by
  cases e with
  | timerCommand =>
    cases step_cases h with
    | timerCommand q hc hq => simp [lockEvents, taken, hq]
  | lock e =>
    have hone (u : System) (hu : s.taken.step d e = some u) :
        Lts.exec (System.step d) s.taken (lockEvents [.lock e]) = some u := by
      simp [lockEvents, Lts.exec, hu]
    refine hone _ ?_
    by_cases hat : e = .taskCall ∧ s.AtStart
    · obtain ⟨rfl, hat⟩ := hat
      rw [step, if_pos ⟨rfl, hat⟩] at h
      obtain ⟨q, hq, rfl⟩ := Option.map_eq_some_iff.mp h
      rw [System.step_start (s := s.taken) hat]
      simp [taken, (Fifo.send_eq_some.mp hq).2]
    · rw [step, if_neg hat] at h
      obtain ⟨t, ht, rfl⟩ := Option.map_eq_some_iff.mp h
      have hstart (he : e = .taskCall) : ¬ s.AtStart := fun hs => hat ⟨he, hs⟩
      by_cases hexpire : e = .timerExpire
      · have hempty := hp (by rw [hexpire])
        simpa [taken, hempty] using ht
      · rw [taken, s.toSystem.step_armed d _ hexpire hstart, ht, Option.map_some,
          ← System.armed_of_step ht hexpire hstart]
        rfl

/-- A run of the lock with its timer service whose timer commands are taken in time is one of the lock. -/
theorem run_taken {es : List TimerEvent} {s : TimerSystem T} (h : run T d hold es = some s)
    (hp : Lts.Along (step d) Prompt (boot T hold) es) : Lock.run d hold (lockEvents es) = some s.taken := by
  refine Lts.exec_history (I := fun es s => Lts.Along (step d) Prompt (boot T hold) es →
    Lock.run d hold (lockEvents es) = some s.taken) h (fun _ => rfl) ?_ hp
  intro es s e t hs ih hstep hp
  obtain ⟨hp, he⟩ := (Lts.along_snoc hs).mp hp
  rw [lockEvents_append]
  exact Lts.exec_append_eq_some.mpr ⟨s.taken, ih hp, taken_step hstep he⟩

/-- Outside a callback the service task can take all there is. -/
theorem drain {s : TimerSystem T} (hc : s.callback = none) :
    ∃ n t, Lts.exec (step d) s (List.replicate n .timerCommand) = some t ∧ t.toSystem = s.taken ∧
      t.timerQueue.items = [] := by
  generalize hq : s.timerQueue.items = items
  induction items generalizing s with
  | nil => exact ⟨0, s, rfl, by simp [taken, hq], hq⟩
  | cons c items ih =>
    obtain ⟨q, hreceive⟩ : ∃ q, s.timerQueue.receive = some (c, q) :=
      ⟨⟨items, by have := s.timerQueue.bound; rw [hq] at this; exact Nat.le_of_succ_le this⟩,
        Fifo.receive_eq_some.mpr hq⟩
    have hitems := Fifo.receive_eq_some.mp hreceive
    rw [hq, List.cons.injEq] at hitems
    obtain ⟨n, t, ht, hsystem, hempty⟩ :=
      ih (s := { s with timerQueue := q, timerArmed := true }) hc hitems.2.symm
    refine ⟨n + 1, t, Lts.exec_cons_eq_some.mpr ⟨_, ?_, ht⟩, ?_, hempty⟩
    · simp only [step, hc, if_true, hreceive, Option.map_some]
    · rw [hsystem]
      simp [taken, hq]

/-- A step of the lock is taken in time by the lock with its timer service, if that has room for one more start. -/
theorem exists_taken_step {s : TimerSystem T} {u : System} {e : Event} (h : s.taken.step d e = some u)
    (hroom : s.timerQueue.items.length < T) :
    ∃ es t, Lts.exec (step d) s es = some t ∧ Lts.Along (step d) Prompt s es ∧ lockEvents es = [e] ∧ t.taken = u ∧
      t.timerQueue.items.length ≤ s.timerQueue.items.length + 1 := by
  by_cases hexpire : e = .timerExpire
  · subst hexpire
    have hc : s.callback = none := by
      cases System.step_cases h with
      | timerExpire _ hc => exact hc
    obtain ⟨n, t, ht, hsystem, hempty⟩ := drain (d := d) hc
    have hstep : t.step d (.lock .timerExpire) = some { t with toSystem := u } := by
      simp only [step, reduceCtorEq, false_and, if_false, hsystem, h, Option.map_some]
    refine ⟨List.replicate n .timerCommand ++ [.lock .timerExpire], _, Lts.exec_snoc.mpr ⟨t, ht, hstep⟩,
      (Lts.along_snoc ht).mpr ⟨?_, fun _ => hempty⟩, ?_, ?_, ?_⟩
    · exact Lts.along_of_forall fun e he s hs => by
        rw [List.eq_of_mem_replicate he] at hs
        cases hs
    · simp [lockEvents]
    · simp [taken, hempty]
    · simp [hempty]
  · by_cases hat : e = .taskCall ∧ s.AtStart
    · obtain ⟨rfl, hat⟩ := hat
      obtain ⟨q, hq⟩ : ∃ q, s.timerQueue.send .start = some q := ⟨_, dif_pos hroom⟩
      have hitems := (Fifo.send_eq_some.mp hq).2
      rw [System.step_start (s := s.taken) hat] at h
      cases h
      refine ⟨[.lock .taskCall], { s with calls := s.calls.tail, timerQueue := q }, ?_, ⟨nofun, ?_⟩, rfl, ?_, ?_⟩
      · simp only [Lts.exec, step, hat, and_self, if_true, hq, Option.map_some, Option.bind_some]
      · split <;> trivial
      · simp [taken, hitems]
      · simp [hitems]
    · have hstart (he : e = .taskCall) : ¬ s.AtStart := fun hs => hat ⟨he, hs⟩
      have harmed : u.timerArmed = s.taken.timerArmed := System.armed_of_step h hexpire hstart
      have hstep : s.toSystem.step d e = some { u with timerArmed := s.timerArmed } := by
        have := s.taken.step_armed d s.timerArmed hexpire hstart
        rw [h] at this
        exact this
      refine ⟨[.lock e], { s with toSystem := { u with timerArmed := s.timerArmed } }, ?_, ⟨?_, ?_⟩, rfl, ?_,
        Nat.le_succ _⟩
      · simp only [Lts.exec, step, if_neg hat, hstep, Option.map_some, Option.bind_some]
      · intro he
        cases he
        exact absurd rfl hexpire
      · split <;> trivial
      · rw [taken] at harmed
        simp only [taken] at harmed ⊢
        rw [← harmed]

theorem exists_taken {es : List Event} {s : System} (h : Lock.run d hold es = some s) (hT : es.length ≤ T) :
    ∃ ts t, run T d hold ts = some t ∧ Lts.Along (step d) Prompt (boot T hold) ts ∧ lockEvents ts = es ∧
      t.taken = s ∧ t.timerQueue.items.length ≤ es.length := by
  refine Lts.exec_history (I := fun es s => es.length ≤ T → ∃ ts t, run T d hold ts = some t ∧
    Lts.Along (step d) Prompt (boot T hold) ts ∧ lockEvents ts = es ∧ t.taken = s ∧
      t.timerQueue.items.length ≤ es.length) h (fun _ => ⟨[], _, rfl, trivial, rfl, rfl, Nat.le_refl 0⟩) ?_ hT
  intro es s e u _ ih hstep hT
  rw [List.length_append, List.length_singleton] at hT ⊢
  obtain ⟨ts, t, ht, hp, hes, rfl, hlen⟩ := ih (by omega)
  obtain ⟨fs, v, hv, hp', he, hu, hlen'⟩ := exists_taken_step hstep (by omega)
  exact ⟨ts ++ fs, v, Lts.exec_append_eq_some.mpr ⟨t, ht, hv⟩, (Lts.along_append ht).mpr ⟨hp, hp'⟩,
    by rw [lockEvents_append, hes, he], hu, by omega⟩

/-- **The lock is the lock with a timer service that is in time**: its runs are, for some capacity of the
timer-command queue, those in which the timer never expires before the commands given to it are taken. -/
theorem run_iff_taken {es : List Event} {s : System} :
    Lock.run d hold es = some s ↔ ∃ T ts, ∃ t : TimerSystem T, run T d hold ts = some t ∧
      Lts.Along (step d) Prompt (boot T hold) ts ∧ lockEvents ts = es ∧ t.taken = s := by
  constructor
  · intro h
    obtain ⟨ts, t, ht, hp, hes, hs, -⟩ := exists_taken h (Nat.le_refl es.length)
    exact ⟨es.length, ts, t, ht, hp, hes, hs⟩
  · rintro ⟨T, ts, t, ht, hp, rfl, rfl⟩
    exact run_taken ht hp

end TimerSystem

end GateNode.Lock
