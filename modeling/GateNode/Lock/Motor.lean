/-
The motor under `lock_task`: `lock_drive` never clears the other channel, so
that the two are never on together rests on every branch idling before it
turns. `MotorOk` relates the state between iterations to the calls made so
far; each case of `LockStep` keeps it.
-/
import GateNode.Lock.Ramp

namespace GateNode.Lock

/-- What a call does to the channels; sleeping and starting the timer do nothing. -/
def TaskCall.apply (l : Ledc) : TaskCall → Ledc
  | .ledc call => l.apply call
  | .vTaskDelay _ => l
  | .xTimerStart => l

/-- The channels after calls made from `l`. -/
def runCalls (l : Ledc) (calls : List TaskCall) : Ledc := calls.foldl TaskCall.apply l

/-- The channel the last duty was put out on. -/
def lastDriven (calls : List TaskCall) : Option LedcChannel :=
  (calls.filterMap fun
    | .ledc call => call.driven
    | _ => none).getLast?

/-- At most one of the two channels is on. -/
def Exclusive (d : LockDriveState) (l : Ledc) : Prop := ¬ (l.On d.channelForward ∧ l.On d.channelReverse)

/-- A movement of the run has come to its end. -/
def MovementCompleted (d : LockDriveState) (s : LockState) (commands : List MotorCommand) : Prop :=
  ∃ pre c, pre ++ [c] <+: commands ∧ (lockTaskLoop d s pre).1.Moving ∧ (lockTaskLoop d s (pre ++ [c])).1.AtRest

@[simp] theorem runCalls_nil (l : Ledc) : runCalls l [] = l := rfl

@[simp] theorem runCalls_cons (l : Ledc) (c : TaskCall) (cs : List TaskCall) :
    runCalls l (c :: cs) = runCalls (c.apply l) cs := rfl

theorem runCalls_append (l : Ledc) (cs ds : List TaskCall) :
    runCalls l (cs ++ ds) = runCalls (runCalls l cs) ds := List.foldl_append

/-! ## Calls after which the channels exclude each other -/

/-- Exclusion holds after every single call. -/
def Safe (d : LockDriveState) (l : Ledc) (calls : List TaskCall) : Prop :=
  ∀ pre, pre <+: calls → Exclusive d (runCalls l pre)

theorem Safe.nil {d : LockDriveState} {l : Ledc} (h : Exclusive d l) : Safe d l [] := by
  intro pre hpre
  rw [List.prefix_nil.mp hpre]
  exact h

theorem safe_cons {d : LockDriveState} {l : Ledc} {c : TaskCall} {cs : List TaskCall} :
    Safe d l (c :: cs) ↔ Exclusive d l ∧ Safe d (c.apply l) cs := by
  constructor
  · intro h
    refine ⟨h [] List.nil_prefix, fun pre hpre => ?_⟩
    exact h (c :: pre) (List.cons_prefix_cons.mpr ⟨rfl, hpre⟩)
  · rintro ⟨hl, h⟩ pre hpre
    rcases List.prefix_cons_iff.mp hpre with rfl | ⟨pre', rfl, hpre'⟩
    · exact hl
    · exact h pre' hpre'

theorem Safe.append {d : LockDriveState} {l : Ledc} {cs ds : List TaskCall} (h : Safe d l cs)
    (h' : Safe d (runCalls l cs) ds) : Safe d l (cs ++ ds) := by
  induction cs generalizing l with
  | nil => exact h'
  | cons c cs ih =>
    obtain ⟨hl, hc⟩ := safe_cons.mp h
    exact safe_cons.mpr ⟨hl, ih hc h'⟩

theorem exclusive_of_off {d : LockDriveState} {l : Ledc} (r : Request)
    (h : ¬ l.On (d.channel r.opposite.direction)) : Exclusive d l := by
  cases r with
  | motorOpen => exact fun hon => h hon.2
  | motorClose => exact fun hon => h hon.1

/-! ### Idling -/

theorem off_idle (d : LockDriveState) (l : Ledc) (direction : Direction) :
    ¬ (runCalls l (idleCalls d)).On (d.channel direction) := by
  cases direction <;>
    simp [idleCalls, lockDriveIdle, TaskCall.apply, LockDriveState.channel]

theorem Safe.idle {d : LockDriveState} {l : Ledc} (h : Exclusive d l) : Safe d l (idleCalls d) := by
  have h1 : Exclusive d (l.apply (.ledcStop d.channelForward 0)) := fun hon => by simp at hon
  have h2 : Exclusive d ((l.apply (.ledcStop d.channelForward 0)).apply (.ledcStop d.channelReverse 0)) :=
    fun hon => by simp at hon
  exact safe_cons.mpr ⟨h, safe_cons.mpr ⟨h1, .nil h2⟩⟩

/-! ### Driving -/

theorem on_drive (d : LockDriveState) (l : Ledc) (direction : Direction) (speed : UInt8) (ch : LedcChannel) :
    (runCalls l (driveCalls d direction speed)).On ch ↔ ch = d.channel direction ∨ l.On ch := by
  simp [driveCalls, lockDrive_eq, TaskCall.apply]

/-- A drive is safe while the other channel is off, and leaves it off. -/
theorem Safe.drive {d : LockDriveState} (hd : d.channelForward ≠ d.channelReverse) {l : Ledc} (r : Request)
    (h : ¬ l.On (d.channel r.opposite.direction)) (speed : UInt8) :
    Safe d l (driveCalls d r.direction speed) ∧
      ¬ (runCalls l (driveCalls d r.direction speed)).On (d.channel r.opposite.direction) := by
  have hne : d.channel r.opposite.direction ≠ d.channel r.direction := by
    cases r with
    | motorOpen => exact hd.symm
    | motorClose => exact hd
  have hoff : ¬ (runCalls l (driveCalls d r.direction speed)).On (d.channel r.opposite.direction) := by
    rw [on_drive]
    exact not_or.mpr ⟨hne, h⟩
  refine ⟨?_, hoff⟩
  rw [driveCalls, lockDrive_eq] at hoff ⊢
  have h1 : ¬ (l.apply (.ledcSetDuty (d.channel r.direction) (speedToDuty speed))).On
      (d.channel r.opposite.direction) := by simpa using h
  exact safe_cons.mpr ⟨exclusive_of_off r h, safe_cons.mpr ⟨exclusive_of_off r h1, .nil (exclusive_of_off r hoff)⟩⟩

/-! ### The other calls -/

theorem Safe.timerStart {d : LockDriveState} {l : Ledc} (h : Exclusive d l) : Safe d l [.xTimerStart] :=
  safe_cons.mpr ⟨h, .nil h⟩

theorem runCalls_hold (l : Ledc) (s : LockState) (r : Request) (q : Position) :
    runCalls l (holdCalls s r q) = l := by
  cases r with
  | motorClose => rfl
  | motorOpen =>
    simp only [holdCalls]
    split <;> rfl

theorem Safe.hold {d : LockDriveState} {l : Ledc} (h : Exclusive d l) (s : LockState) (r : Request)
    (q : Position) : Safe d l (holdCalls s r q) := by
  cases r with
  | motorClose => exact .nil h
  | motorOpen =>
    simp only [holdCalls]
    split
    · exact safe_cons.mpr ⟨h, .nil h⟩
    · exact .nil h

/-! ### The channel last driven -/

theorem lastDriven_append (cs ds : List TaskCall) :
    lastDriven (cs ++ ds) = (lastDriven ds).or (lastDriven cs) := by
  simp [lastDriven, List.filterMap_append, List.getLast?_append]

theorem lastDriven_drive (d : LockDriveState) (direction : Direction) (speed : UInt8) :
    lastDriven (driveCalls d direction speed) = some (d.channel direction) := by
  simp [lastDriven, driveCalls, lockDrive_eq, LedcCall.driven]

@[simp] theorem lastDriven_idle (d : LockDriveState) : lastDriven (idleCalls d) = none := rfl

@[simp] theorem lastDriven_timerStart : lastDriven [.xTimerStart] = none := rfl

/-! ## One iteration -/

/-- An iteration keeps the channels apart at every call, and leaves them as
the state it leaves says. -/
theorem LockStep.safe {d : LockDriveState} (hd : d.channelForward ≠ d.channelReverse) {s t : LockState}
    {c : MotorCommand} {calls : List TaskCall} (h : LockStep d s c t calls) {l : Ledc} (hx : Exclusive d l)
    (hrest : s.AtRest → ∀ direction, ¬ l.On (d.channel direction))
    (hmove : ∀ r : Request, s.status = r.moving → ¬ l.On (d.channel r.opposite.direction)) :
    Safe d l calls ∧
      (t.AtRest → ∀ direction, ¬ (runCalls l calls).On (d.channel direction)) ∧
      (∀ r : Request, t.status = r.moving → ¬ (runCalls l calls).On (d.channel r.opposite.direction)) := by
  cases h with
  | ignore => exact ⟨.nil hx, hrest, hmove⟩
  | start r hs =>
    obtain ⟨hsafe, hoff⟩ := Safe.drive hd r (hrest hs _) 20
    refine ⟨hsafe.append (.timerStart (exclusive_of_off r hoff)), fun ht => ?_, fun r' hr' => ?_⟩
    · exact absurd ht (LockState.not_atRest_begin _ r)
    · obtain rfl := Request.moving_injective hr'
      rw [runCalls_append]
      exact hoff
  | reverse r hs =>
    have hoff := off_idle d l
    refine ⟨(Safe.idle hx).append (.timerStart (exclusive_of_off r (hoff _))), fun ht => ?_, fun r' _ => ?_⟩
    · exact absurd ht (LockState.not_atRest_begin _ r)
    · rw [runCalls_append]
      exact hoff _
  | advance r q hs =>
    obtain ⟨hsafe, hoff⟩ := Safe.drive hd r (hmove r hs) q.1
    have hhold : Safe d l (holdCalls s r q ++ driveCalls d r.direction q.1) :=
      (Safe.hold hx s r q).append (by rw [runCalls_hold]; exact hsafe)
    have hrun : runCalls l (holdCalls s r q ++ driveCalls d r.direction q.1) =
        runCalls l (driveCalls d r.direction q.1) := by rw [runCalls_append, runCalls_hold]
    refine ⟨hhold.append (.timerStart (by rw [hrun]; exact exclusive_of_off r hoff)), fun ht => ?_,
      fun r' hr' => ?_⟩
    · exact absurd ht (LockState.not_atRest_of_moving hs)
    · obtain rfl := Request.moving_injective (hs.symm.trans hr')
      rw [runCalls_append, hrun]
      exact hoff
  | finish r hs =>
    have hoff := off_idle d l
    exact ⟨.idle hx, fun _ => hoff, fun r' _ => hoff _⟩

/-- A movement that is past its first position, or at its end, has driven its
own channel. -/
theorem LockStep.lastDriven {d : LockDriveState} {s t : LockState} {c : MotorCommand}
    {calls new : List TaskCall} (h : LockStep d s c t new)
    (hdrives : ∀ r : Request, s.status = r.moving →
      (s.speed, s.speedIncrement) = (20, 20) ∨ lastDriven calls = some (d.channel r.direction)) :
    (∀ r : Request, t.status = r.moving →
      (t.speed, t.speedIncrement) = (20, 20) ∨ lastDriven (calls ++ new) = some (d.channel r.direction)) ∧
    (∀ r : Request, t.status = r.rest → s.Moving →
      lastDriven (calls ++ new) = some (d.channel r.direction)) := by
  cases h with
  | ignore =>
    rw [List.append_nil]
    exact ⟨hdrives, fun r hr hm => absurd (LockState.atRest_iff.mpr ⟨r, hr⟩) hm.not_atRest⟩
  | start r hs | reverse r hs =>
    exact ⟨fun _ _ => .inl rfl, fun r' hr' _ => absurd hr' (r.moving_ne_rest r')⟩
  | advance r q hs =>
    refine ⟨fun r' hr' => .inr ?_, fun r' hr' _ => absurd (hs.symm.trans hr') (r.moving_ne_rest r')⟩
    obtain rfl := Request.moving_injective (hs.symm.trans hr')
    simp [lastDriven_append, lastDriven_drive]
  | finish r hs hq =>
    refine ⟨fun r' hr' => absurd hr'.symm (r'.moving_ne_rest r), fun r' hr' _ => ?_⟩
    obtain rfl := Request.rest_injective hr'
    rw [lastDriven_append, lastDriven_idle, Option.none_or]
    rcases hdrives r hs with h0 | h0
    · rw [h0] at hq
      exact absurd hq (by cases r <;> decide)
    · exact h0

/-! ## The invariant -/

/-- Between iterations: the calls so far and the state agree. -/
structure MotorOk (d : LockDriveState) (s : LockState) (commands : List MotorCommand) : Prop where
  lockOk : LockOk (lockTaskLoop d s commands).1
  safe : Safe d {} (lockTaskLoop d s commands).2
  /-- At rest both channels are off. -/
  rest : (lockTaskLoop d s commands).1.AtRest → ∀ direction,
    ¬ (runCalls {} (lockTaskLoop d s commands).2).On (d.channel direction)
  /-- In a movement the channel of the other is off. -/
  moving : ∀ r : Request, (lockTaskLoop d s commands).1.status = r.moving →
    ¬ (runCalls {} (lockTaskLoop d s commands).2).On (d.channel r.opposite.direction)
  /-- Past its first position a movement has driven its own channel. -/
  drives : ∀ r : Request, (lockTaskLoop d s commands).1.status = r.moving →
    ((lockTaskLoop d s commands).1.speed, (lockTaskLoop d s commands).1.speedIncrement) = (20, 20) ∨
      lastDriven (lockTaskLoop d s commands).2 = some (d.channel r.direction)
  /-- And so has the movement a rest is the end of, if there was one. -/
  drove : ∀ r : Request, (lockTaskLoop d s commands).1.status = r.rest →
    lastDriven (lockTaskLoop d s commands).2 = some (d.channel r.direction) ∨
      r = .motorClose ∧ ∀ pre, pre <+: commands → ¬ (lockTaskLoop d s pre).1.Moving

theorem MotorOk.boot (d : LockDriveState) (hold : UInt32) : MotorOk d (.boot hold) [] where
  lockOk := .boot hold
  safe := .nil fun hon => Ledc.off_boot _ hon.1
  rest _ _ := Ledc.off_boot _
  moving r h := by cases r <;> cases h
  drives r h := by cases r <;> cases h
  drove r h := by
    cases r with
    | motorOpen => cases h
    | motorClose =>
      refine .inr ⟨rfl, fun pre hpre => ?_⟩
      rw [List.prefix_nil.mp hpre]
      simp [LockState.Moving, LockState.boot]

/-- From rest to rest there is only doing nothing. -/
theorem LockStep.eq_of_rest {d : LockDriveState} {s t : LockState} {c : MotorCommand}
    {calls : List TaskCall} (h : LockStep d s c t calls) (hs : ¬ s.Moving) (ht : t.AtRest) :
    t = s ∧ calls = [] := by
  cases h with
  | ignore => exact ⟨rfl, rfl⟩
  | start r | reverse r => exact absurd ht (LockState.not_atRest_begin _ r)
  | advance r q hm | finish r hm => exact absurd (LockState.moving_iff.mpr ⟨r, hm⟩) hs

theorem MotorOk.snoc {d : LockDriveState} (hd : d.channelForward ≠ d.channelReverse) {s : LockState}
    {cs : List MotorCommand} (h : MotorOk d s cs) (c : MotorCommand) : MotorOk d s (cs ++ [c]) := by
  have hstep : LockStep d (lockTaskLoop d s cs).1 c _ _ := lockTask_step h.lockOk c
  have hx : Exclusive d (runCalls {} (lockTaskLoop d s cs).2) := h.safe _ (List.prefix_refl _)
  obtain ⟨hsafe, hrest, hmove⟩ := hstep.safe hd hx h.rest h.moving
  obtain ⟨hdrives, hdrove⟩ := hstep.lastDriven h.drives
  constructor <;> rw [lockTaskLoop_snoc]
  · exact hstep.lockOk h.lockOk
  · exact h.safe.append hsafe
  · rw [runCalls_append]
    exact hrest
  · rw [runCalls_append]
    exact hmove
  · exact hdrives
  · intro r hr
    by_cases hm : (lockTaskLoop d s cs).1.Moving
    · exact .inl (hdrove r hr hm)
    · have ht := LockState.atRest_iff.mpr ⟨r, hr⟩
      obtain ⟨he, hc⟩ := hstep.eq_of_rest hm ht
      simp only [hc, List.append_nil]
      rcases h.drove r (by rw [← he]; exact hr) with hl | ⟨rfl, hnever⟩
      · exact .inl hl
      · refine .inr ⟨rfl, fun pre hpre => ?_⟩
        rcases List.prefix_concat_iff.mp hpre with rfl | hpre
        · rw [lockTaskLoop_snoc]
          exact fun hmoving => hmoving.not_atRest ht
        · exact hnever pre hpre

theorem motorOk {d : LockDriveState} (hd : d.channelForward ≠ d.channelReverse) (hold : UInt32)
    (commands : List MotorCommand) : MotorOk d (.boot hold) commands := by
  induction commands using List.reverseRecOn with
  | nil => exact .boot d hold
  | append_singleton cs c ih => exact ih.snoc hd c

/-- **The two channels are never driven together, and the status agrees with
the motor**, whatever commands `lock_task` receives. -/
theorem channels_exclusive_and_status_agrees (hold : UInt32) (commands : List MotorCommand) :
    let s := (lockTaskLoop lockDriveInit (.boot hold) commands).1
    let calls := (lockTaskLoop lockDriveInit (.boot hold) commands).2
    let ledc := runCalls {} calls
    (∀ pre, pre <+: calls → ¬ ((runCalls {} pre).On lockDriveInit.channelForward ∧
      (runCalls {} pre).On lockDriveInit.channelReverse)) ∧
    (s.status = .opened ↔ getLockStatus s = .statusOpen) ∧
    (s.status = .closed ↔ getLockStatus s = .statusClose) ∧
    (s.AtRest → ¬ ledc.On lockDriveInit.channelForward ∧ ¬ ledc.On lockDriveInit.channelReverse) ∧
    (s.status = .opening → ¬ ledc.On lockDriveInit.channelReverse ∧ s.currentDirection = .forward) ∧
    (s.status = .closing → ¬ ledc.On lockDriveInit.channelForward ∧ s.currentDirection = .reverse) ∧
    (s.status = .opened → lastDriven calls = some lockDriveInit.channelForward) ∧
    (s.status = .closed → MovementCompleted lockDriveInit (.boot hold) commands →
      lastDriven calls = some lockDriveInit.channelReverse) := by
  intro s calls ledc
  have h : MotorOk lockDriveInit (.boot hold) commands := motorOk (by decide) hold commands
  refine ⟨h.safe, ?_, ?_, fun hs => ⟨h.rest hs .forward, h.rest hs .reverse⟩, fun hs => ?_, fun hs => ?_,
    fun hs => ?_, fun hs hdone => ?_⟩
  · unfold getLockStatus
    cases s.status <;> decide
  · unfold getLockStatus
    cases s.status <;> decide
  · exact ⟨h.moving .motorOpen hs, (h.lockOk.of_moving (r := .motorOpen) hs).2.1⟩
  · exact ⟨h.moving .motorClose hs, (h.lockOk.of_moving (r := .motorClose) hs).2.1⟩
  · rcases h.drove .motorOpen hs with hl | ⟨hr, -⟩
    · exact hl
    · cases hr
  · rcases h.drove .motorClose hs with hl | ⟨-, hnever⟩
    · exact hl
    · obtain ⟨pre, c, hpre, hm, -⟩ := hdone
      exact absurd hm (hnever pre ((List.prefix_append pre [c]).trans hpre))

end GateNode.Lock
