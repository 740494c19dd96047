/-
A lock asked for one movement only. Ticks are read from `current_command`,
so what is pending stays for the movement asked for, and the lock neither
turns round nor drives the other channel.
-/
import GateNode.Lock.Commands

namespace GateNode.Lock

/-- The step is not a user's. -/
def Unasked (e : Event) : Prop := ∀ r, e ≠ .userSend r

theorem unasked_or (e : Event) : Unasked e ∨ ∃ r, e = .userSend r := by
  cases e with
  | userSend r => exact .inr ⟨r, rfl⟩
  | timerExpire | callbackSend | taskReceive | taskAssign | taskCall => exact .inl (by simp [Unasked])

/-- Everything pending is for the movement `r`, and the lock is not moving the other way. -/
structure System.Bound (r : Request) (s : System) : Prop where
  queued : ∀ m ∈ s.commandQueue.items, m.command = r.command
  read : ∀ c ∈ s.callback, c = r.command
  begun : ∀ m ∈ s.beginning, m.command = r.command
  armed : s.timerArmed = true ∨ s.beginning = none ∧ .xTimerStart ∈ s.calls → s.lock.currentCommand = r.command
  along : s.lock.status ≠ r.opposite.moving

/-- No call drives the channel. -/
def Spares (ch : LedcChannel) (calls : List TaskCall) : Prop := ∀ call, .ledc call ∈ calls → call.driven ≠ some ch

/-- The movement `r` has not begun: its channel is off and stays off, and where `r` ends the lock stands since its boot
only. -/
structure System.Without (d : LockDriveState) (r : Request) (s : System) : Prop extends s.Bound r.opposite where
  off : ¬ s.ledc.On (d.channel r.direction)
  spares : Spares (d.channel r.direction) s.calls
  rest : s.lock.status = r.rest → r = .motorClose

variable {d : LockDriveState} {hold : UInt32} {s t : System} {e : Event} {r : Request} {es : List Event}

/-! ## One iteration -/

/-- An iteration towards `r`, of a lock not moving away from it. -/
theorem LockStep.towards {s t : LockState} {calls : List TaskCall} (h : LockStep d s r.command t calls)
    (hne : s.status ≠ r.opposite.moving) : t.status = r.moving ∨ t.status = r.rest := by
  generalize hc : r.command = c at h
  cases h with
  | ignore hn => exact absurd hc.symm (hn r)
  | start r' =>
    obtain rfl := Request.command_injective hc
    exact .inl rfl
  | reverse r' hs =>
    obtain rfl := Request.command_injective hc
    exact absurd hs hne
  | advance r' q hs =>
    obtain rfl := Request.command_injective hc
    exact .inl hs
  | finish r' hs =>
    obtain rfl := Request.command_injective hc
    exact .inr rfl

@[simp] theorem spares_append {ch : LedcChannel} {as bs : List TaskCall} :
    Spares ch (as ++ bs) ↔ Spares ch as ∧ Spares ch bs := by
  simp only [Spares, List.mem_append, or_imp, forall_and]

theorem spares_idleCalls (ch : LedcChannel) : Spares ch (idleCalls d) := by
  intro call hmem
  simp only [idleCalls, lockDriveIdle, List.map_cons, List.map_nil, List.mem_cons, TaskCall.ledc.injEq,
    List.not_mem_nil, or_false] at hmem
  rcases hmem with rfl | rfl <;> simp [LedcCall.driven]

theorem spares_driveCalls {ch : LedcChannel} {direction : Direction} (h : ch ≠ d.channel direction) (speed : UInt8) :
    Spares ch (driveCalls d direction speed) := by
  intro call hmem
  simp only [driveCalls, lockDrive_eq, List.map_cons, List.map_nil, List.mem_cons, TaskCall.ledc.injEq,
    List.not_mem_nil, or_false] at hmem
  rcases hmem with rfl | rfl
  · simp [LedcCall.driven]
  · simpa [LedcCall.driven] using h.symm

theorem spares_holdCalls (ch : LedcChannel) (s : LockState) (r : Request) (q : Position) :
    Spares ch (holdCalls s r q) := by
  intro call hmem
  cases r with
  | motorClose => cases hmem
  | motorOpen =>
    simp only [holdCalls] at hmem
    split at hmem <;> simp at hmem

theorem spares_timerStart (ch : LedcChannel) : Spares ch [.xTimerStart] := by
  intro call hmem
  simp at hmem

theorem channel_ne (hd : d.channelForward ≠ d.channelReverse) (r : Request) :
    d.channel r.opposite.direction ≠ d.channel r.direction := by
  cases r with
  | motorOpen => exact hd.symm
  | motorClose => exact hd

/-- It leaves the other channel alone. -/
theorem LockStep.spares (hd : d.channelForward ≠ d.channelReverse) {s t : LockState} {calls : List TaskCall}
    (h : LockStep d s r.command t calls) : Spares (d.channel r.opposite.direction) calls := by
  generalize hc : r.command = c at h
  cases h with
  | ignore hn => exact absurd hc.symm (hn r)
  | start r' =>
    obtain rfl := Request.command_injective hc
    exact spares_append.mpr ⟨spares_driveCalls (channel_ne hd r) 20, spares_timerStart _⟩
  | reverse r' => exact spares_append.mpr ⟨spares_idleCalls _, spares_timerStart _⟩
  | advance r' q =>
    obtain rfl := Request.command_injective hc
    exact spares_append.mpr ⟨spares_append.mpr ⟨spares_holdCalls _ s r q, spares_driveCalls (channel_ne hd r) q.1⟩,
      spares_timerStart _⟩
  | finish r' => exact spares_idleCalls _

theorem off_of_spares {ch : LedcChannel} {l : Ledc} {c : TaskCall} {cs : List TaskCall} (h : Spares ch (c :: cs))
    (hoff : ¬ l.On ch) : ¬ (c.apply l).On ch := by
  cases c with
  | vTaskDelay | xTimerStart => exact hoff
  | ledc call =>
    have hne := h call List.mem_cons_self
    cases call with
    | ledcSetDuty ch' duty => simpa [TaskCall.apply] using hoff
    | ledcStop ch' idle => simpa [TaskCall.apply] using fun _ => hoff
    | ledcUpdateDuty ch' =>
      simp only [LedcCall.driven, ne_eq, Option.some.injEq] at hne
      simp only [TaskCall.apply, Ledc.on_updateDuty, not_or]
      exact ⟨fun heq => hne heq.symm, hoff⟩

/-! ## Every step -/

theorem System.Bound.boot (r : Request) (hold : UInt32) : (System.boot hold).Bound r where
  queued := by simp [System.boot]
  read := by simp [System.boot]
  begun := by simp [System.boot]
  armed := by simp [System.boot]
  along := by cases r <;> simp [System.boot, LockState.boot, Request.opposite, Request.moving]

/-- Only a request for the other movement unbinds the lock. -/
theorem System.Bound.step (h : s.Bound r) (hok : s.Ok) (he : e ≠ .userSend r.opposite) (hs : Step d s e t) :
    t.Bound r := by
  cases hs with
  | userSend r' q hq =>
    refine ⟨fun m hm => ?_, h.read, h.begun, h.armed, h.along⟩
    rw [hq, List.mem_append, List.mem_singleton] at hm
    rcases hm with hm | rfl
    · exact h.queued m hm
    · rcases r.eq_or_eq_opposite r' with rfl | rfl
      · rfl
      · exact absurd rfl he
  | timerExpire ha =>
    refine ⟨h.queued, fun c hc => ?_, h.begun, fun _ => h.armed (.inl ha), h.along⟩
    cases hc
    exact h.armed (.inl ha)
  | callbackSend c hc q hq =>
    refine ⟨fun m hm => ?_, nofun, h.begun, h.armed, h.along⟩
    rw [hq, List.mem_append, List.mem_singleton] at hm
    rcases hm with hm | rfl
    · exact h.queued m hm
    · exact h.read c hc
  | taskBegin m q hcalls hq =>
    refine ⟨fun m' hm' => h.queued m' (by rw [hq]; exact List.mem_cons_of_mem m hm'), h.read, fun m' hm' => ?_,
      fun hor => ?_, h.along⟩
    · cases hm'
      exact h.queued m (by rw [hq]; exact List.mem_cons_self)
    · rcases hor with ha | ⟨hn, -⟩
      · exact h.armed (.inl ha)
      · cases hn
  | taskReceive m q hcalls hq =>
    have hm : m.command = r.command := h.queued m (by rw [hq]; exact List.mem_cons_self)
    have hstep := lockTask_step (d := d) hok.lockOk r.command
    have hne := r.opposite_moving_ne
    have hrest := r.opposite.moving_ne_rest r
    refine ⟨fun m' hm' => h.queued m' (by rw [hq]; exact List.mem_cons_of_mem m hm'), h.read, h.begun,
      fun _ => ?_, ?_⟩
    · simp only [hm]
      exact hstep.currentCommand hok.lockOk
    · simp only [hm]
      rcases hstep.towards h.along with hs | hs <;> rw [hs]
      · exact hne.symm
      · exact hrest.symm
  | taskAssign m hm =>
    obtain ⟨r', hr', hbegin⟩ := hok.assigned d hm
    obtain rfl : r' = r := Request.command_injective (hr'.symm.trans (h.begun m hm))
    refine ⟨h.queued, h.read, nofun, fun _ => ?_, ?_⟩ <;> rw [hbegin]
    · rfl
    · exact r'.opposite_moving_ne.symm
  | taskCall c cs hcalls hb =>
    refine ⟨h.queued, h.read, h.begun, fun hor => h.armed ?_, h.along⟩
    rw [hcalls]
    rcases hor with ha | ⟨hn, hx⟩
    · rw [Bool.or_eq_true, decide_eq_true_iff] at ha
      rcases ha with ha | rfl
      · exact .inl ha
      · exact .inr ⟨hb.resolve_right nofun, List.mem_cons_self⟩
    · exact .inr ⟨hn, List.mem_cons_of_mem c hx⟩

theorem System.Without.boot (d : LockDriveState) (r : Request) (hold : UInt32) :
    (System.boot hold).Without d r where
  toBound := .boot r.opposite hold
  off := Ledc.off_boot _
  spares := nofun
  rest h := by
    cases r with
    | motorOpen => cases h
    | motorClose => rfl

/-- Only a request for the movement begins it. -/
theorem System.Without.step (hd : d.channelForward ≠ d.channelReverse) (h : s.Without d r) (hok : s.Ok)
    (he : e ≠ .userSend r) (hs : Step d s e t) : t.Without d r := by
  have hbound := h.toBound.step hok (by rwa [r.opposite_opposite]) hs
  cases hs with
  | userSend | timerExpire | callbackSend => exact ⟨hbound, h.off, h.spares, h.rest⟩
  | taskBegin m q hcalls hq =>
    have hm : m.command = r.opposite.command := h.queued m (by rw [hq]; exact List.mem_cons_self)
    have hstep := lockTask_step (d := d) hok.lockOk r.opposite.command
    refine ⟨hbound, h.off, ?_, h.rest⟩
    simp only [hm]
    simpa only [r.opposite_opposite] using hstep.spares hd
  | taskReceive m q hcalls hq =>
    have hm : m.command = r.opposite.command := h.queued m (by rw [hq]; exact List.mem_cons_self)
    have hstep := lockTask_step (d := d) hok.lockOk r.opposite.command
    refine ⟨hbound, h.off, ?_, ?_⟩ <;> simp only [hm]
    · simpa only [r.opposite_opposite] using hstep.spares hd
    · intro hrest
      rcases hstep.towards h.along with hs | hs
      · exact absurd (hs.symm.trans hrest) (r.opposite.moving_ne_rest r)
      · have := Request.rest_injective (hs.symm.trans hrest)
        cases r <;> cases this
  | taskAssign m hm =>
    obtain ⟨r', -, hbegin⟩ := hok.assigned d hm
    refine ⟨hbound, h.off, h.spares, fun hrest => ?_⟩
    rw [hbegin] at hrest
    exact absurd hrest (r'.moving_ne_rest r)
  | taskCall c cs hcalls =>
    have hspares := h.spares
    rw [hcalls] at hspares
    exact ⟨hbound, off_of_spares hspares h.off, fun call hmem => hspares call (List.mem_cons_of_mem c hmem), h.rest⟩

/-- **A movement no user asked for never begins.** -/
theorem run_without (hd : d.channelForward ≠ d.channelReverse) (h : run d hold es = some s)
    (hes : .userSend r ∉ es) : s.Without d r := by
  have halong : Lts.Along (System.step d) (fun _ e => e ≠ .userSend r) (.boot hold) es :=
    Lts.along_of_forall fun e he _ heq => hes (heq ▸ he)
  have hboth : s.Ok ∧ s.Without d r := by
    refine Lts.exec_invariant_along (I := fun s => s.Ok ∧ s.Without d r) h halong ⟨.boot hold, .boot d r hold⟩ ?_
    intro t e u ht he hstep
    have hstep := System.step_cases hstep
    exact ⟨ht.1.step hstep, ht.2.step hd ht.1 he hstep⟩
  exact hboth.2

end GateNode.Lock
