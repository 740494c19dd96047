/-
Who moves the lock. A tick is the value `current_command` had when its
callback read it, so one read before a reversal and received after it is
taken for a user's command the other way. With no such tick the last user
command wins; with no trigger left over when a movement ends, only users
start movements.
-/
import GateNode.Lock.System

namespace GateNode.Lock

/-! ## Runs to look at -/

/-- A tick taken all the way, by an iteration of `n` calls. -/
def tickEvents (n : Nat) : List Event :=
  [.timerExpire, .callbackSend, .taskReceive] ++ List.replicate n .taskCall

/-- A user's command, received by an iteration of `n` calls. -/
def requestEvents (r : Request) (n : Nat) : List Event :=
  [.userSend r, .taskReceive] ++ List.replicate n .taskCall

/-- A user's command, received at rest. -/
def startEvents (r : Request) : List Event :=
  [.userSend r, .taskReceive, .taskAssign, .taskCall, .taskCall, .taskCall]

/-- An iteration that turns the lock round. -/
def reverseEvents : List Event := [.taskReceive, .taskCall, .taskCall, .taskAssign, .taskCall]

/-- A closing by its ticks alone. -/
def closingEvents : List Event :=
  startEvents .motorClose ++ tickEvents 3 ++ tickEvents 3 ++ tickEvents 3 ++ tickEvents 3 ++ tickEvents 2

/-- An opening is reversed while a callback holds the old command. -/
def staleTickEvents : List Event :=
  startEvents .motorOpen ++ [.timerExpire, .userSend .motorClose, .callbackSend] ++ reverseEvents ++
    reverseEvents ++ tickEvents 3 ++ tickEvents 3 ++ tickEvents 3 ++ tickEvents 3 ++ tickEvents 3 ++ tickEvents 3 ++
    tickEvents 4 ++ tickEvents 2

/-- An opening is reversed, its last tick received before the reversal; all of the closing's are its own. -/
def reversedEvents : List Event :=
  startEvents .motorOpen ++ tickEvents 3 ++ [.userSend .motorClose] ++ reverseEvents ++
    tickEvents 3 ++ tickEvents 3 ++ tickEvents 3 ++ tickEvents 3 ++ tickEvents 2

/-- A closing finished by its user's repeated command, the timer still
armed; the tick comes to the lock at rest. -/
def leftoverTickEvents : List Event :=
  startEvents .motorClose ++ requestEvents .motorClose 3 ++ requestEvents .motorClose 3 ++
    requestEvents .motorClose 3 ++ requestEvents .motorClose 3 ++ requestEvents .motorClose 2 ++
    [.timerExpire, .callbackSend, .taskReceive]

/-! ## The last user command -/

/-- The last command a user enqueued. -/
def lastSent (es : List Event) : Option Request :=
  (es.filterMap fun
    | .userSend r => some r
    | _ => none).getLast?

/-- The last user command still on the queue. -/
def lastQueued (items : List QueuedCommand) : Option MotorCommand :=
  (items.filterMap fun m => if m.source = .user then some m.command else none).getLast?

/-- Nothing is under way: no command, no timer, no callback, no iteration. -/
def System.Quiescent (s : System) : Prop :=
  s.commandQueue.items = [] ∧ s.timerArmed = false ∧ s.callback = none ∧ s.calls = []

instance (s : System) : Decidable s.Quiescent := by unfold System.Quiescent; infer_instance

/-- The tick an iteration receives is of the current command. -/
def FreshTick (s : System) (e : Event) : Prop :=
  e = .taskReceive → ∀ m ∈ s.commandQueue.items.head?, m.source = .timer → m.command = s.lock.currentCommand

instance (s : System) (e : Event) : Decidable (FreshTick s e) := by unfold FreshTick; infer_instance

theorem lastSent_snoc (es : List Event) (e : Event) :
    lastSent (es ++ [e]) = match e with
      | .userSend r => some r
      | _ => lastSent es := by
  cases e <;> simp [lastSent]

theorem lastQueued_snoc (items : List QueuedCommand) (m : QueuedCommand) :
    lastQueued (items ++ [m]) = if m.source = .user then some m.command else lastQueued items := by
  unfold lastQueued
  by_cases h : m.source = .user <;> simp [h]

theorem lastQueued_cons (m : QueuedCommand) (items : List QueuedCommand) :
    lastQueued (m :: items) =
      (lastQueued items).or (if m.source = .user then some m.command else none) := by
  unfold lastQueued
  by_cases h : m.source = .user
  · simp only [List.filterMap_cons, h, if_true, List.getLast?_cons]
    cases (items.filterMap fun m => if m.source = .user then some m.command else none).getLast? <;> rfl
  · simp [h]

/-- Whatever the iteration, its command is the current one after it. -/
theorem LockStep.currentCommand {d : LockDriveState} {s t : LockState} {r : Request}
    {calls : List TaskCall} (h : LockStep d s r.command t calls) (hs : LockOk s) :
    t.currentCommand = r.command := by
  generalize hc : r.command = c at h
  cases h with
  | ignore hn => exact absurd hc.symm (hn r)
  | start | reverse => rfl
  | advance r' q hm => exact (hs.of_moving hm).1
  | finish r' hm => exact (hs.of_moving hm).1

/-- `current_command` once the assignments of a movement that begins are made. -/
def System.nextCommand (s : System) : MotorCommand := (s.beginning.map (·.command)).getD s.lock.currentCommand

/-- The last user command is on the queue behind all others, or the lock follows it. -/
def Follows (es : List Event) (s : System) : Prop :=
  ∀ r, lastSent es = some r → (lastQueued s.commandQueue.items).getD s.nextCommand = r.command

/-- Whatever is received, it is the current command after the iteration. -/
theorem System.Ok.received {d : LockDriveState} {s t : System} (h : s.Ok) (hs : System.Step d s .taskReceive t) :
    ∃ m, s.commandQueue.items = m :: t.commandQueue.items ∧ s.nextCommand = s.lock.currentCommand ∧
      t.nextCommand = m.command := by
  cases hs with
  | taskBegin m q hcalls hq => exact ⟨m, hq, by rw [nextCommand, h.settled hcalls]; rfl, rfl⟩
  | taskReceive m q hcalls hq =>
    obtain ⟨r, hr⟩ := h.queued m (by rw [hq]; exact List.mem_cons_self)
    have hstep := lockTask_step (d := d) h.lockOk r.command
    have hnone := h.settled hcalls
    refine ⟨m, hq, by rw [nextCommand, hnone]; rfl, ?_⟩
    rw [nextCommand, hnone, hr]
    exact hstep.currentCommand h.lockOk

theorem Follows.receive {d : LockDriveState} {es : List Event} {s t : System} (h : Follows es s) (hok : s.Ok)
    (hg : FreshTick s .taskReceive) (hs : System.Step d s .taskReceive t) : Follows es t := by
  intro r hr
  obtain ⟨m, hitems, hcur, hnext⟩ := hok.received hs
  have hprev := h r hr
  rw [hitems, lastQueued_cons, hcur] at hprev
  rw [hnext]
  cases hl : lastQueued t.commandQueue.items with
  | some c => simpa [hl] using hprev
  | none =>
    rw [hl, Option.none_or] at hprev
    by_cases hu : m.source = .user
    · simpa [hu] using hprev
    · have ht : m.source = .timer := by cases hm : m.source <;> simp_all
      have hfresh := hg rfl m (by rw [hitems]; rfl) ht
      rw [if_neg hu, Option.getD_none] at hprev
      exact hfresh.trans hprev

theorem Follows.step {d : LockDriveState} {es : List Event} {s t : System} {e : Event}
    (h : Follows es s) (hok : s.Ok) (hg : FreshTick s e) (hs : System.Step d s e t) :
    Follows (es ++ [e]) t := by
  intro r hr
  rw [lastSent_snoc] at hr
  cases hs with
  | userSend r' q hq =>
    simp only [Option.some.injEq] at hr
    subst hr
    simp [hq, lastQueued_snoc]
  | timerExpire => exact h r hr
  | callbackSend c hc q hq =>
    simp only [hq, lastQueued_snoc, reduceCtorEq, if_false]
    exact h r hr
  | taskBegin m q hcalls hq hb => exact h.receive hok hg (.taskBegin m q hcalls hq hb) r hr
  | taskReceive m q hcalls hq hb => exact h.receive hok hg (.taskReceive m q hcalls hq hb) r hr
  | taskAssign m hm =>
    obtain ⟨r', hr', hbegin⟩ := hok.assigned d hm
    have hprev := h r hr
    rw [System.nextCommand, hm] at hprev
    simp only [System.nextCommand, hbegin, Option.map_none, Option.getD_none, LockState.begin, ← hr']
    exact hprev
  | taskCall => exact h r hr

/-- In a run without stale ticks. -/
theorem run_follows {d : LockDriveState} {hold : UInt32} {es : List Event} {s : System}
    (h : run d hold es = some s) (hg : Lts.Along (System.step d) FreshTick (.boot hold) es) : Follows es s := by
  refine Lts.exec_history (I := fun es s => Lts.Along (System.step d) FreshTick (.boot hold) es → Follows es s)
    h (fun _ r hr => by cases hr) ?_ hg
  intro es s e t hrun ih hl hg
  obtain ⟨hg, he⟩ := (Lts.along_snoc hrun).mp hg
  exact (ih hg).step (run_ok hrun) he (System.step_cases hl)

theorem System.Quiescent.atRest {s : System} (h : s.Quiescent) (hok : s.Ok) :
    ∃ r : Request, s.lock.status = r.rest ∧ s.lock.currentCommand = r.command := by
  obtain ⟨hq, ha, hc, hcalls⟩ := h
  cases hok.lockOk with
  | rest r status command => exact ⟨r, status, command⟩
  | moving r status =>
    rcases hok.ticks (LockState.moving_iff.mpr ⟨r, status⟩) with h | h | h | ⟨m, h, -⟩
    · rw [ha] at h; cases h
    · rw [hc] at h; cases h
    · rw [hcalls] at h; cases h
    · rw [hq] at h; cases h

/-- **The last user command wins**, in every run in which no iteration
receives a stale tick: once nothing is under way, the lock is where the last
user wanted it. -/
theorem last_user_command_wins {d : LockDriveState} {hold : UInt32} {es : List Event} {s : System}
    (h : run d hold es = some s) (hg : Lts.Along (System.step d) FreshTick (.boot hold) es)
    (hq : s.Quiescent) {r : Request} (hr : lastSent es = some r) : s.lock.status = r.rest := by
  have hok := run_ok h
  obtain ⟨r', hstatus, hcommand⟩ := hq.atRest hok
  have hf := run_follows h hg r hr
  rw [hq.1, System.nextCommand, hok.settled hq.2.2.2] at hf
  obtain rfl : r' = r := Request.command_injective (hcommand.symm.trans hf)
  exact hstatus

theorem last_user_command_wins_reversed : ∃ s, run lockDriveInit 5000 reversedEvents = some s ∧
    s.lock.status = .closed := by
  have hrun : (run lockDriveInit 5000 reversedEvents).map (decide ·.Quiescent) = some true := by decide +kernel
  obtain ⟨s, hs, hq⟩ := Option.map_eq_some_iff.mp hrun
  exact ⟨s, hs, last_user_command_wins hs (by decide +kernel) (of_decide_eq_true hq) (r := .motorClose) rfl⟩

/-- With a stale tick it need not. -/
theorem stale_tick_reverses : ¬ ∀ (hold : UInt32) (es : List Event) (s : System),
    run lockDriveInit hold es = some s → s.Quiescent → ∀ r, lastSent es = some r → s.lock.status = r.rest := by
  intro h
  have hrun : (run lockDriveInit 5000 staleTickEvents).map (fun s => (decide s.Quiescent, s.lock.status)) =
      some (true, .opened) := by decide +kernel
  obtain ⟨s, hs, he⟩ := Option.map_eq_some_iff.mp hrun
  simp only [Prod.mk.injEq, decide_eq_true_eq] at he
  have hclosed := h 5000 staleTickEvents s hs he.1 .motorClose rfl
  rw [he.2] at hclosed
  cases hclosed

/-! ## What starts a movement -/

/-- Nothing of the timer's is about: it is not armed, no callback runs and no
tick is queued. -/
def System.NoTrigger (s : System) : Prop :=
  s.timerArmed = false ∧ s.callback = none ∧ ∀ m ∈ s.commandQueue.items, m.source ≠ .timer

/-- At rest only a user can start a movement. -/
def System.RestQuiet (s : System) : Prop := s.lock.AtRest → s.NoTrigger

/-- A step that takes the lock out of its rest is of an iteration that received a user's command. -/
def System.StartsByUser (d : LockDriveState) (s : System) : Prop :=
  ∀ e t, s.step d e = some t → s.lock.AtRest → t.lock.Moving → ∃ m, s.beginning = some m ∧ m.source = .user

/-- `command` takes the branch that ends the movement under way. -/
def LockState.Finishes (s : LockState) (command : MotorCommand) : Prop :=
  (s.status = .closing ∧ command = .closeMotor ∨ s.status = .opening ∧ command = .openMotor) ∧
    addSpeed s.speed s.speedIncrement = 0

instance (s : LockState) (c : MotorCommand) : Decidable (s.Finishes c) := by
  unfold LockState.Finishes; infer_instance

/-- The movement's end comes by a tick, and that tick is the only trigger about. -/
def CleanFinish (s : System) (e : Event) : Prop :=
  e = .taskReceive → ∀ m ∈ s.commandQueue.items.head?, s.lock.Finishes m.command →
    m.source = .timer ∧ s.timerArmed = false ∧ s.callback = none ∧
      ∀ m' ∈ s.commandQueue.items.tail, m'.source ≠ .timer

instance (s : System) (e : Event) : Decidable (CleanFinish s e) := by unfold CleanFinish; infer_instance

theorem LockState.finishes_of_last {s : LockState} {r : Request} (hs : s.status = r.moving)
    (hl : r.profile.getLast? = some (s.speed, s.speedIncrement)) : s.Finishes r.command := by
  refine ⟨?_, addSpeed_last hl⟩
  cases r with
  | motorOpen => exact .inr ⟨hs, rfl⟩
  | motorClose => exact .inl ⟨hs, rfl⟩

theorem LockState.Finishes.moving {s : LockState} {c : MotorCommand} (h : s.Finishes c) :
    ∃ r : Request, c = r.command ∧ s.status = r.moving := by
  rcases h.1 with ⟨hs, hc⟩ | ⟨hs, hc⟩
  · exact ⟨.motorClose, hc, hs⟩
  · exact ⟨.motorOpen, hc, hs⟩

theorem LockState.Finishes.not_begins {s : LockState} {c : MotorCommand} (h : s.Finishes c) : ¬ s.Begins c := by
  obtain ⟨r, rfl, hs⟩ := h.moving
  rw [begins_iff, hs]
  rintro (hrest | hopposite)
  · exact not_atRest_of_moving hs hrest
  · exact r.opposite_moving_ne hopposite.symm

theorem System.RestQuiet.step {d : LockDriveState} {s t : System} {e : Event} (h : s.RestQuiet)
    (hok : s.Ok) (hg : CleanFinish s e) (hs : System.Step d s e t) : t.RestQuiet := by
  intro ht
  cases hs with
  | userSend r q hq =>
    obtain ⟨ha, hc, hm⟩ := h ht
    refine ⟨ha, hc, fun m hmem => ?_⟩
    rw [hq, List.mem_append, List.mem_singleton] at hmem
    rcases hmem with hmem | rfl
    · exact hm m hmem
    · simp
  | timerExpire ha hc =>
    rw [(h ht).1] at ha
    cases ha
  | callbackSend c hc =>
    rw [(h ht).2.1] at hc
    cases hc
  | taskBegin m q hcalls hq =>
    obtain ⟨ha, hc, hm⟩ := h ht
    exact ⟨ha, hc, fun m' hm' => hm m' (by rw [hq]; exact List.mem_cons_of_mem m hm')⟩
  | taskReceive m q hcalls hq =>
    obtain ⟨r, hr⟩ := hok.queued m (by rw [hq]; exact List.mem_cons_self)
    have hstep := lockTask_step (d := d) hok.lockOk r.command
    simp only [hr] at ht
    obtain ⟨hmoving, hlast, -⟩ := hstep.finished ht
    have hfin : s.lock.Finishes m.command := by
      rw [hr]
      exact LockState.finishes_of_last hmoving hlast
    obtain ⟨-, ha, hc, hm⟩ := hg rfl m (by rw [hq]; rfl) hfin
    rw [hq] at hm
    exact ⟨ha, hc, hm⟩
  | taskAssign m hm =>
    obtain ⟨r, -, hbegin⟩ := hok.assigned d hm
    rw [hbegin] at ht
    exact absurd ht (LockState.not_atRest_begin s.lock r)
  | taskCall c cs hcalls hb =>
    obtain ⟨ha, hc, hm⟩ := h ht
    have hne : c ≠ .xTimerStart := by
      rintro rfl
      rcases hb with hn | hidles
      · exact hok.restCalls ht hn (by rw [hcalls]; exact List.mem_cons_self)
      · cases hidles
    exact ⟨by simp [ha, hne], hc, hm⟩

/-- At rest the command that begins a movement is a user's. -/
def System.BegunByUser (s : System) : Prop := s.lock.AtRest → ∀ m ∈ s.beginning, m.source = .user

theorem System.BegunByUser.step {d : LockDriveState} {s t : System} {e : Event} (h : s.BegunByUser)
    (hok : s.Ok) (hq : s.RestQuiet) (hs : System.Step d s e t) : t.BegunByUser := by
  cases hs with
  | userSend | timerExpire | callbackSend | taskCall => exact h
  | taskBegin m q hcalls hitems =>
    intro hrest m' hm'
    obtain rfl : m = m' := Option.some.inj hm'
    have hne := (hq hrest).2.2 m (by rw [hitems]; exact List.mem_cons_self)
    cases hm : m.source with
    | user => rfl
    | timer => exact absurd hm hne
  | taskReceive m q hcalls =>
    intro _ m' hm'
    rw [show s.beginning = none from hok.settled hcalls] at hm'
    cases hm'
  | taskAssign => exact fun _ => nofun

theorem run_restQuiet {d : LockDriveState} {hold : UInt32} {es : List Event} {s : System}
    (h : run d hold es = some s) (hg : Lts.Along (System.step d) CleanFinish (.boot hold) es) :
    s.RestQuiet ∧ s.BegunByUser := by
  refine (Lts.exec_invariant_along (I := fun s => s.Ok ∧ s.RestQuiet ∧ s.BegunByUser) h hg ?_ ?_).2
  · exact ⟨.boot hold, fun _ => ⟨rfl, rfl, by simp [System.boot]⟩, fun _ => nofun⟩
  · intro s e t hst he hl
    obtain ⟨hok, hq, hb⟩ := hst
    have hs := System.step_cases hl
    exact ⟨hok.step hs, hq.step hok he hs, hb.step hok hq hs⟩

theorem System.BegunByUser.startsByUser {d : LockDriveState} {s : System} (h : s.BegunByUser) (hok : s.Ok) :
    s.StartsByUser d := by
  intro e t ht hrest hmoving
  cases System.step_cases ht with
  | userSend | timerExpire | callbackSend | taskBegin | taskCall => exact absurd hrest hmoving.not_atRest
  | taskReceive m q hcalls hq hb =>
    -- From rest a request begins a movement, and what is no request changes nothing.
    obtain ⟨r, hr⟩ := hok.queued m (by rw [hq]; exact List.mem_cons_self)
    exact absurd (LockState.begins_iff.mpr (.inl hrest)) (hr ▸ hb)
  | taskAssign m hm => exact ⟨m, hm, h hrest m hm⟩

/-- An end that is not clean leaves a trigger behind. -/
theorem System.RestQuiet.cleanFinish {d : LockDriveState} {s t : System} {e : Event} (hok : s.Ok)
    (hs : System.Step d s e t) (h : t.RestQuiet) : CleanFinish s e := by
  rintro rfl m hm hfin
  cases hs with
  | taskBegin m' q hcalls hq hb =>
    rw [hq, List.head?_cons, Option.mem_some_iff] at hm
    subst hm
    exact absurd hb hfin.not_begins
  | taskReceive m' q hcalls hq =>
    rw [hq, List.head?_cons, Option.mem_some_iff] at hm
    subst hm
    obtain ⟨r, hc, hmoving⟩ := hfin.moving
    have hrest : (lockTask d s.lock m'.command).1.AtRest := by
      rw [hc, lockTask_finish hmoving hfin.2]
      exact LockState.atRest_iff.mpr ⟨r, rfl⟩
    obtain ⟨ha, hcb, hnone⟩ := h hrest
    refine ⟨?_, ha, hcb, by rw [hq]; exact hnone⟩
    -- Some trigger was about while the lock moved; only the command received is left for it.
    rcases hok.ticks (LockState.moving_iff.mpr ⟨r, hmoving⟩) with hx | hx | hx | ⟨m, hmem, ht⟩
    · rw [show s.timerArmed = false from ha] at hx
      cases hx
    · rw [show s.callback = none from hcb] at hx
      cases hx
    · rw [hcalls] at hx
      cases hx
    · rw [hq, List.mem_cons] at hmem
      rcases hmem with rfl | hmem
      · exact ht
      · exact absurd ht (hnone m hmem)

/-- **Movements start by users only**, and at rest nothing of the timer's is
about, exactly in the runs whose movements all end cleanly: by a tick, with
no other trigger about. -/
theorem moves_by_users_iff {d : LockDriveState} {hold : UInt32} {es : List Event} {s : System}
    (h : run d hold es = some s) :
    Lts.Along (System.step d) CleanFinish (.boot hold) es ↔
      ∀ pre t, pre <+: es → run d hold pre = some t → t.RestQuiet ∧ t.StartsByUser d := by
  constructor
  · rintro hg pre t ⟨post, rfl⟩ ht
    obtain ⟨hq, hb⟩ := run_restQuiet ht (Lts.Along.of_append hg)
    exact ⟨hq, hb.startsByUser (run_ok ht)⟩
  · intro hall
    refine Lts.exec_history (I := fun es _ => (∀ pre t, pre <+: es → run d hold pre = some t → t.RestQuiet) →
      Lts.Along (System.step d) CleanFinish (.boot hold) es) h (fun _ => trivial) ?_
      (fun pre t hpre ht => (hall pre t hpre ht).1)
    intro es s e t hrun ih hl hall
    have ht := hall (es ++ [e]) t (List.prefix_refl _) (Lts.exec_snoc.mpr ⟨s, hrun, hl⟩)
    exact (Lts.along_snoc hrun).mpr
      ⟨ih fun pre t hpre => hall pre t (hpre.trans (List.prefix_append _ _)),
        ht.cleanFinish (run_ok hrun) (System.step_cases hl)⟩

theorem moves_by_users_closing : ∃ s, run lockDriveInit 5000 closingEvents = some s ∧
    ∀ pre t, pre <+: closingEvents → run lockDriveInit 5000 pre = some t →
      t.RestQuiet ∧ t.StartsByUser lockDriveInit := by
  have hrun : (run lockDriveInit 5000 closingEvents).isSome := by decide +kernel
  obtain ⟨s, hs⟩ := Option.isSome_iff_exists.mp hrun
  exact ⟨s, hs, (moves_by_users_iff hs).mp (by decide +kernel)⟩

/-- With a trigger left over, a tick moves the lock. -/
theorem leftover_tick_moves : ¬ ∀ (hold : UInt32) (es : List Event) (s : System),
    run lockDriveInit hold es = some s → s.StartsByUser lockDriveInit := by
  intro h
  have hrun : ((run lockDriveInit 5000 leftoverTickEvents).bind fun s =>
      (s.step lockDriveInit .taskAssign).map fun t =>
        (decide s.lock.AtRest, decide t.lock.Moving, s.beginning.map (·.source))) =
      some (true, true, some .timer) := by decide +kernel
  obtain ⟨s, hs, he⟩ := Option.bind_eq_some_iff.mp hrun
  obtain ⟨t, ht, he⟩ := Option.map_eq_some_iff.mp he
  simp only [Prod.mk.injEq, decide_eq_true_eq] at he
  obtain ⟨m, hm, hu⟩ := h 5000 leftoverTickEvents s hs .taskAssign t ht he.1 he.2.1
  have hsource := he.2.2
  rw [hm, Option.map_some, hu] at hsource
  cases hsource

end GateNode.Lock
