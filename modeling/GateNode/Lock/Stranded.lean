/-
A movement under way has what will advance it: every trigger an iteration of
`lock_task` consumes, it replaces by starting the timer, unless it ends the
movement and with it the power.
-/
import GateNode.Lock.System

namespace GateNode.Lock

/-- At rest with no movement begun, once the iteration has made its calls, both channels are off. -/
def System.Unpowered (d : LockDriveState) (s : System) : Prop :=
  s.lock.AtRest → s.beginning = none → ∀ direction, ¬ (runCalls s.ledc s.calls).On (d.channel direction)

theorem System.Unpowered.step {d : LockDriveState} {s t : System} {e : Event} (h : s.Unpowered d) (hok : s.Ok)
    (hs : Step d s e t) : t.Unpowered d := by
  cases hs with
  | userSend | timerExpire | callbackSend => exact h
  | taskBegin => exact fun _ hn => by cases hn
  | taskReceive m q hcalls hq =>
    obtain ⟨r, hr⟩ := hok.queued m (by rw [hq]; exact List.mem_cons_self)
    have hstep := lockTask_step (d := d) hok.lockOk m.command
    rw [hr] at hstep
    intro hrest _ direction
    simp only [hr] at hrest ⊢
    -- From a request's command only the end of a movement comes to rest.
    rw [(hstep.finished hrest).2.2]
    exact off_idle d s.ledc direction
  | taskAssign m hm =>
    intro hrest
    obtain ⟨r, -, hbegin⟩ := hok.assigned d hm
    rw [hbegin] at hrest
    exact absurd hrest (LockState.not_atRest_begin s.lock r)
  | taskCall c cs hcalls =>
    intro hrest hn direction
    have hoff := h hrest hn direction
    rw [hcalls, runCalls_cons] at hoff
    exact hoff

theorem run_unpowered {d : LockDriveState} {hold : UInt32} {es : List Event} {s : System}
    (h : run d hold es = some s) : s.Unpowered d := by
  have hboth : s.Ok ∧ s.Unpowered d := by
    refine Lts.exec_invariant (I := fun s => s.Ok ∧ s.Unpowered d) h ⟨.boot hold, fun _ _ _ => Ledc.off_boot _⟩ ?_
    intro t e u ht hstep
    have hstep := System.step_cases hstep
    exact ⟨ht.1.step hstep, ht.2.step ht.1 hstep⟩
  exact hboth.2

/-- `LockOk` knows no status but the four of a lock at rest or under way. -/
theorem LockOk.moving_or_atRest {s : LockState} (h : LockOk s) : s.Moving ∨ s.AtRest := by
  cases h with
  | rest r status _ => exact .inr (LockState.atRest_iff.mpr ⟨r, status⟩)
  | moving r status _ _ _ => exact .inl (LockState.moving_iff.mpr ⟨r, status⟩)

/-- **A moving lock is never stranded**: between iterations, while the status is in transit or a
channel is on, the timer is armed, or a callback is to send an OPEN or CLOSE, or the command queue
holds one. -/
theorem moving_lock_not_stranded {d : LockDriveState} {hold : UInt32} {es : List Event} {s : System}
    (h : run d hold es = some s) (hcalls : s.calls = [])
    (hm : s.lock.status = .opening ∨ s.lock.status = .closing ∨ ∃ direction, s.ledc.On (d.channel direction)) :
    s.timerArmed = true ∨
      (∃ c, s.callback = some c ∧ (c = .openMotor ∨ c = .closeMotor)) ∨
      ∃ m ∈ s.commandQueue.items, m.command = .openMotor ∨ m.command = .closeMotor := by
  have hok := run_ok h
  have hrequest (c : MotorCommand) (hc : ∃ r : Request, c = r.command) : c = .openMotor ∨ c = .closeMotor := by
    obtain ⟨r | r, rfl⟩ := hc
    · exact .inl rfl
    · exact .inr rfl
  have hmoving : s.lock.Moving := by
    rcases hm with hm | hm | ⟨direction, hon⟩
    · exact .inl hm
    · exact .inr hm
    · refine hok.lockOk.moving_or_atRest.resolve_right fun hrest => ?_
      have hoff := run_unpowered h hrest (hok.settled hcalls) direction
      rw [hcalls, runCalls_nil] at hoff
      exact hoff hon
  rcases hok.ticks hmoving with ha | hc | hx | ⟨m, hmem, -⟩
  · exact .inl ha
  · obtain ⟨c, hc⟩ := Option.isSome_iff_exists.mp hc
    exact .inr (.inl ⟨c, hc, hrequest c (hok.read c hc)⟩)
  · rw [hcalls] at hx
    cases hx
  · exact .inr (.inr ⟨m, hmem, hrequest _ (hok.queued m hmem)⟩)

/-- The first opening after boot, its first iteration over. -/
theorem moving_lock_not_stranded_opening :
    ∃ s, run lockDriveInit 5000
        [.userSend .motorOpen, .taskReceive, .taskAssign, .taskCall, .taskCall, .taskCall] = some s ∧
      s.lock.status = .opening ∧
      (s.timerArmed = true ∨
        (∃ c, s.callback = some c ∧ (c = .openMotor ∨ c = .closeMotor)) ∨
        ∃ m ∈ s.commandQueue.items, m.command = .openMotor ∨ m.command = .closeMotor) := by
  refine ⟨_, rfl, rfl, ?_⟩
  exact @moving_lock_not_stranded lockDriveInit 5000
    [.userSend .motorOpen, .taskReceive, .taskAssign, .taskCall, .taskCall, .taskCall] _ rfl rfl (.inl rfl)

end GateNode.Lock
