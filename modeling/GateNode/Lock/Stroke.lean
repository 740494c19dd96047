/-
A movement from a position to its end. What is left of the profile says which
calls the rest of the movement makes, whatever commands that mean nothing to
it stand between: the ramp stays in its range, it ends, and an opening holds
once on its way.
-/
import GateNode.Lock.Drives

namespace GateNode.Lock

open History

/-- The movement under way, with the positions still to come. -/
structure LockState.Remaining (s : LockState) (r : Request) (qs : List Position) : Prop where
  status : s.status = r.moving
  direction : s.currentDirection = r.direction
  ahead : ∃ done, r.profile = done ++ (s.speed, s.speedIncrement) :: qs

/-- After every command but the last the movement is under way. -/
def Underway (d : LockDriveState) (s : LockState) (r : Request) (cs : List MotorCommand) : Prop :=
  ∀ n, n < cs.length → (lockTaskLoop d s (cs.take n)).1.status = r.moving

instance (d : LockDriveState) (s : LockState) (r : Request) (cs : List MotorCommand) :
    Decidable (Underway d s r cs) := by unfold Underway; infer_instance

/-- The durations slept. -/
def delays (calls : List LockCall) : List UInt32 :=
  calls.filterMap fun
    | .vTaskDelay ticks => some ticks
    | _ => none

variable {d : LockDriveState} {s t : LockState} {r : Request} {c : MotorCommand} {cs : List MotorCommand}
  {q : Position} {qs : List Position} {calls trace : List LockCall}

/-! ## To the end of a movement -/

theorem LockOk.remaining (h : LockOk s) (hs : s.status = r.moving) :
    ∃ qs, s.Remaining r qs ∧ qs.length < r.profile.length := by
  obtain ⟨-, direction, position⟩ := h.of_moving hs
  obtain ⟨done, qs, hp⟩ := List.append_of_mem position
  refine ⟨qs, ⟨hs, direction, done, hp⟩, ?_⟩
  rw [hp, List.length_append, List.length_cons]
  omega

theorem LockState.Remaining.begin (s : LockState) (r : Request) : (s.begin r).Remaining r r.profile.tail :=
  ⟨rfl, rfl, [], by cases r <;> rfl⟩

theorem LockState.Remaining.advance (h : s.Remaining r (q :: qs)) :
    lockTaskCalls s r.command = advanceCalls s.unlockHoldDuration r q ∧
      (lockTask d s r.command).1.Remaining r qs ∧
      (lockTask d s r.command).1.unlockHoldDuration = s.unlockHoldDuration := by
  obtain ⟨status, direction, done, hp⟩ := h
  have hq : [(s.speed, s.speedIncrement), q] <:+: r.profile := ⟨done, qs, by rw [hp]; simp⟩
  obtain ⟨ha, hpos, hi⟩ := addSpeed_of_infix hq
  rw [lockTask_advance status direction ha hpos hi]
  refine ⟨lockTaskCalls_advance status direction ha hpos, ⟨status, direction, ?_⟩, rfl⟩
  exact ⟨done ++ [(s.speed, s.speedIncrement)], by rw [hp]; simp⟩

theorem LockState.Remaining.finish (h : s.Remaining r []) :
    lockTaskCalls s r.command = [.lockDriveIdle] ∧ (lockTask d s r.command).1.status = r.rest := by
  obtain ⟨status, direction, done, hp⟩ := h
  have hlast : r.profile.getLast? = some (s.speed, s.speedIncrement) := by simp [hp]
  have h0 : addSpeed s.speed s.speedIncrement = 0 := addSpeed_last hlast
  rw [lockTask_finish status h0]
  exact ⟨lockTaskCalls_finish status h0, rfl⟩

theorem Underway.tail (h : Underway d s r (c :: cs)) : Underway d (lockTask d s c).1 r cs := by
  intro n hn
  rw [← lockTaskLoop_cons, ← List.take_succ_cons]
  exact h (n + 1) (by rw [List.length_cons]; omega)

theorem lockTask_opposite (hs : s.status = r.moving) :
    (lockTask d s r.opposite.command).1.status = r.opposite.moving := by
  rw [lockTask_reverse (r := r.opposite) (by rw [hs]; cases r <;> rfl)]
  rfl

/-- **The rest of a movement**: no command against it, one along it for each position still to come and
one for the end, and the calls these make. -/
theorem stroke (h : s.Remaining r qs) (hcs : Underway d s r cs)
    (hend : (lockTaskLoop d s cs).1.status = r.rest) :
    r.opposite.command ∉ cs ∧ cs.count r.command = qs.length + 1 ∧
      lockTaskLoopCalls d s cs = qs.flatMap (advanceCalls s.unlockHoldDuration r) ++ [.lockDriveIdle] := by
  induction cs generalizing s qs with
  | nil =>
    rw [lockTaskLoop_nil, h.status] at hend
    exact absurd hend (r.moving_ne_rest r)
  | cons c cs ih =>
    have hend' : (lockTaskLoop d (lockTask d s c).1 cs).1.status = r.rest := by rwa [← lockTaskLoop_cons]
    -- The first command is the movement's, the opposite one or none.
    rcases command_cases c with ⟨r', rfl⟩ | hc
    · rcases r.eq_or_eq_opposite r' with rfl | rfl
      · cases qs with
        | nil =>
          obtain ⟨hcalls, hrest⟩ := h.finish (d := d)
          cases cs with
          | nil => simp [lockTaskLoopCalls, hcalls, r'.opposite_command_ne]
          | cons c' cs =>
            have hm := hcs.tail 0 (Nat.zero_lt_succ _)
            rw [List.take_zero, lockTaskLoop_nil, hrest] at hm
            exact absurd hm.symm (r'.moving_ne_rest r')
        | cons q qs =>
          obtain ⟨hcalls, hnext, hhold⟩ := h.advance (d := d)
          obtain ⟨hnot, hcount, htrace⟩ := ih hnext hcs.tail hend'
          simp [lockTaskLoopCalls, hcalls, htrace, hhold, hcount, hnot, r'.opposite_command_ne]
      · have hopp := lockTask_opposite (d := d) h.status
        exfalso
        cases cs with
        | nil =>
          rw [lockTaskLoop_nil, hopp] at hend'
          exact absurd hend' (r.opposite.moving_ne_rest r)
        | cons c' cs =>
          have hm := hcs.tail 0 (Nat.zero_lt_succ _)
          rw [List.take_zero, lockTaskLoop_nil, hopp] at hm
          exact r.opposite_moving_ne hm
    · have hsame : (lockTask d s c).1 = s := by rw [lockTask_ignore hc]
      have hcs' := hcs.tail
      rw [hsame] at hend' hcs'
      obtain ⟨hnot, hcount, htrace⟩ := ih h hcs' hend'
      rw [List.count_cons_of_ne (hc r)]
      simp [lockTaskLoopCalls, lockTaskCalls_ignore hc, hsame, hcount, htrace, hnot, Ne.symm (hc r.opposite)]

/-- Enough commands along the movement, and none against it, bring it to its end. -/
theorem LockState.Remaining.ends (h : s.Remaining r qs) (hcs : r.opposite.command ∉ cs)
    (hn : qs.length < cs.count r.command) :
    ∃ done rest, cs = done ++ r.command :: rest ∧ done.count r.command = qs.length ∧
      lockTaskCalls (lockTaskLoop d s done).1 r.command = [.lockDriveIdle] ∧
      (lockTaskLoop d s (done ++ [r.command])).1.status = r.rest := by
  induction cs generalizing s qs with
  | nil => simp at hn
  | cons c cs ih =>
    rw [List.mem_cons, not_or] at hcs
    rcases command_cases c with ⟨r', rfl⟩ | hc
    · rcases r.eq_or_eq_opposite r' with rfl | rfl
      · rw [List.count_cons_self] at hn
        cases qs with
        | nil =>
          obtain ⟨hcalls, hrest⟩ := h.finish (d := d)
          exact ⟨[], cs, rfl, rfl, hcalls, hrest⟩
        | cons q qs =>
          rw [List.length_cons] at hn
          obtain ⟨-, hnext, -⟩ := h.advance (d := d)
          obtain ⟨done, rest, rfl, hcount, hcalls, hrest⟩ := ih hnext hcs.2 (by omega)
          refine ⟨r'.command :: done, rest, rfl, ?_, ?_, ?_⟩
          · rw [List.count_cons_self, hcount, List.length_cons]
          · rwa [lockTaskLoop_cons]
          · rwa [List.cons_append, lockTaskLoop_cons]
      · exact absurd rfl hcs.1
    · have hsame : (lockTask d s c).1 = s := by rw [lockTask_ignore hc]
      rw [List.count_cons_of_ne (hc r)] at hn
      obtain ⟨done, rest, rfl, hcount, hcalls, hrest⟩ := ih h hcs.2 hn
      refine ⟨c :: done, rest, rfl, ?_, ?_, ?_⟩
      · rw [List.count_cons_of_ne (hc r), hcount]
      · rwa [lockTaskLoop_cons, hsame]
      · rwa [List.cons_append, lockTaskLoop_cons, hsame]

/-! ## The range of the ramp -/

/-- The exact sum of each addition fits a byte. -/
theorem profile_no_wrap (r : Request) :
    ∀ p ∈ r.profile, 0 ≤ (p.1.toNat : Int) + p.2 ∧ (p.1.toNat : Int) + p.2 ≤ 255 := by
  cases r <;> decide

theorem profile_speeds (r : Request) : ∀ q ∈ r.profile, 10 ≤ q.1 ∧ q.1 ≤ 60 := by
  cases r <;> decide

theorem mem_advanceCalls {hold : UInt32} {direction : Direction} {speed : UInt8}
    (h : LockCall.lockDrive direction speed ∈ advanceCalls hold r q) : speed = q.1 := by
  cases r with
  | motorOpen =>
    by_cases hlow : q.1 ≤ 10 <;> simp only [advanceCalls, hlow, ↓reduceIte] at h <;> simp_all
  | motorClose => simp_all [advanceCalls]

theorem DriveStep.speeds (h : DriveStep s c t calls) {direction : Direction} {speed : UInt8}
    (hm : .lockDrive direction speed ∈ calls) : 10 ≤ speed ∧ speed ≤ 60 := by
  cases h with
  | ignore | reverse | finish => simp at hm
  | start r =>
    have hspeed : speed = 20 := by simp at hm; exact hm.2
    rw [hspeed]
    decide
  | advance r q _ hq =>
    rw [mem_advanceCalls hm]
    exact profile_speeds r q (hq.subset (by simp))

theorem run_speeds (d : LockDriveState) (h : LockOk s) {direction : Direction} {speed : UInt8}
    (hm : .lockDrive direction speed ∈ lockTaskLoopCalls d s cs) : 10 ≤ speed ∧ speed ≤ 60 := by
  induction cs using List.reverseRecOn with
  | nil => simp [lockTaskLoopCalls] at hm
  | append_singleton cs c ih =>
    rw [lockTaskLoopCalls_snoc, List.mem_append] at hm
    rcases hm with hm | hm
    · exact ih hm
    · exact (lockTask_driveStep d (h.loop cs) c).speeds hm

/-- **The ramp stays in its range and ends**, whatever commands are received: the status is one of the
four, no addition of a movement wraps, every speed driven is from 10 to 60, and from a movement eight
commands along it at most, with none against it, bring the motor to its idle and to the rest. -/
theorem ramp_in_range_and_ends (hold : UInt32) (commands : List MotorCommand) :
    let s := (lockTaskLoop lockDriveInit (.boot hold) commands).1
    (s.status = .closed ∨ s.status = .opened ∨ s.status = .closing ∨ s.status = .opening) ∧
    (s.Moving → 0 ≤ (s.speed.toNat : Int) + s.speedIncrement ∧ (s.speed.toNat : Int) + s.speedIncrement ≤ 255) ∧
    (∀ direction speed, .lockDrive direction speed ∈ lockTaskLoopCalls lockDriveInit (.boot hold) commands →
      10 ≤ speed ∧ speed ≤ 60) ∧
    (∀ (r : Request) (cs : List MotorCommand), s.status = r.moving → r.opposite.command ∉ cs →
      8 ≤ cs.count r.command →
        ∃ done rest, cs = done ++ r.command :: rest ∧ done.count r.command < 8 ∧
          lockTaskCalls (lockTaskLoop lockDriveInit (.boot hold) (commands ++ done)).1 r.command =
            [.lockDriveIdle] ∧
          (lockTaskLoop lockDriveInit (.boot hold) (commands ++ (done ++ [r.command]))).1.status = r.rest) := by
  intro s
  have hok : LockOk s := (LockOk.boot hold).loop commands
  refine ⟨?_, fun hm => ?_, fun direction speed hm => run_speeds lockDriveInit (.boot hold) hm,
    fun r cs hs hopp hn => ?_⟩
  · cases hok with
    | rest r status => cases r <;> simp [status, Request.rest]
    | moving r status => cases r <;> simp [status, Request.moving]
  · obtain ⟨r, hr⟩ := LockState.moving_iff.mp hm
    exact profile_no_wrap r _ (hok.of_moving hr).2.2
  · obtain ⟨qs, hremaining, hlen⟩ := hok.remaining hs
    have hlength : r.profile.length ≤ 8 := by cases r <;> decide
    obtain ⟨done, rest, rfl, hcount, hcalls, hrest⟩ := hremaining.ends (d := lockDriveInit) hopp (by omega)
    refine ⟨done, rest, rfl, by omega, ?_, ?_⟩
    · rwa [lockTaskLoop_append]
    · rwa [lockTaskLoop_append]

/-! ## The hold -/

/-- A sleep is for the hold duration, the forward channel on and the reverse channel off. -/
def LockCall.Powered (d : LockDriveState) (hold : UInt32) (before : List LockCall) : LockCall → Prop
  | .vTaskDelay ticks =>
    ticks = pdMsToTicks hold ∧
      (∃ duty, 0 < duty ∧ ((channels d before).get d.channelForward).output = some duty) ∧
      ¬ (channels d before).On d.channelReverse
  | _ => True

theorem delays_append (as bs : List LockCall) : delays (as ++ bs) = delays as ++ delays bs :=
  List.filterMap_append

/-- The position before the hold is not the first, and its duty is not zero. -/
theorem profile_hold : ∀ p ∈ Request.motorOpen.profile, ∀ q ∈ Request.motorOpen.profile,
    [p, q] <:+: Request.motorOpen.profile → q.1 ≤ 10 → p ≠ (20, 20) ∧ 0 < speedToDuty p.1 := by
  decide

theorem DriveStep.powered (h : DriveStep s c t calls) (hs : Driven d s trace)
    (hoff : s.status = .opening → ¬ (channels d trace).On d.channelReverse) :
    Always (fun b c => c.Powered d s.unlockHoldDuration b) trace calls := by
  cases h with
  | ignore => exact always_nil
  | start | reverse | finish => simp [LockCall.Powered]
  | advance r q hm hq =>
    cases r with
    | motorClose => simp [advanceCalls, LockCall.Powered]
    | motorOpen =>
      by_cases hlow : q.1 ≤ 10
      · obtain ⟨hfirst, hduty⟩ := profile_hold _ (hq.subset (by simp)) q (hq.subset (by simp)) hq hlow
        rcases hs.moving .motorOpen hm with ⟨-, hp⟩ | ⟨-, hout⟩
        · exact absurd hp hfirst
        · have hon : ((channels d trace).get d.channelForward).output = some (speedToDuty s.speed) := hout
          simp [advanceCalls, hlow, LockCall.Powered, hon, hoff hm]
          exact hduty
      · simp [advanceCalls, hlow, LockCall.Powered]

theorem DriveStep.unlockHoldDuration (h : DriveStep s c t calls) : t.unlockHoldDuration = s.unlockHoldDuration := by
  cases h <;> rfl

theorem run_unlockHoldDuration (hold : UInt32) (cs : List MotorCommand) :
    (lockTaskLoop d (.boot hold) cs).1.unlockHoldDuration = hold := by
  induction cs using List.reverseRecOn with
  | nil => rfl
  | append_singleton cs c ih =>
    rw [lockTaskLoop_snoc]
    exact (run_driveStep d hold cs c).unlockHoldDuration.trans ih

theorem run_powered (hd : d.channelForward ≠ d.channelReverse) (hold : UInt32) (cs : List MotorCommand) :
    Always (fun b c => c.Powered d hold b) [] (lockTaskLoopCalls d (.boot hold) cs) := by
  induction cs using List.reverseRecOn with
  | nil => exact always_nil
  | append_singleton cs c ih =>
    rw [lockTaskLoopCalls_snoc, always_append, List.nil_append]
    refine ⟨ih, ?_⟩
    have hpowered := (run_driveStep d hold cs c).powered (driven d hold cs) fun hs => by
      have hoff := (motorOk hd hold cs).moving .motorOpen hs
      rwa [lockTaskLoop_calls] at hoff
    rwa [run_unlockHoldDuration] at hpowered

/-- An iteration that enters a movement is its beginning and sleeps not. -/
theorem DriveStep.enters (h : DriveStep s c t calls) (hs : s.status ≠ r.moving) (ht : t.status = r.moving) :
    t = s.begin r ∧ delays calls = [] := by
  cases h with
  | ignore => exact absurd ht hs
  | start r' | reverse r' =>
    obtain rfl := Request.moving_injective ht
    exact ⟨rfl, rfl⟩
  | advance r' q hm => exact absurd ht hs
  | finish r' => exact absurd ht.symm (r.moving_ne_rest r')

/-- An iteration that finds or leaves the lock closing sleeps not. -/
theorem DriveStep.closing_delays (h : DriveStep s c t calls)
    (hclosing : s.status = .closing ∨ t.status = .closing) : delays calls = [] := by
  cases h with
  | ignore | start | reverse | finish => rfl
  | advance r q hm =>
    have hr : r = .motorClose := Request.moving_injective (hm.symm.trans (hclosing.elim id id))
    rw [hr]
    rfl

/-- The delays of an opening from its first position on. -/
theorem delays_opening (hold : UInt32) :
    delays (Request.motorOpen.profile.tail.flatMap (advanceCalls hold .motorOpen) ++ [.lockDriveIdle]) =
      [pdMsToTicks hold] := by
  rfl

/-- **A completed opening holds exactly once, powered**: every sleep of a run is for the hold duration
with the forward channel on and the reverse channel off; from the iteration that enters an opening to
the one that ends it there is one; and no iteration of a closing sleeps. -/
theorem opening_holds_once (hold : UInt32) :
    (∀ commands, Always (fun b c => c.Powered lockDriveInit hold b) []
      (lockTaskLoopCalls lockDriveInit (.boot hold) commands)) ∧
    (∀ before c mid,
      let s := (lockTaskLoop lockDriveInit (.boot hold) before).1
      let t := (lockTaskLoop lockDriveInit (.boot hold) (before ++ [c])).1
      s.status ≠ .opening → t.status = .opening → Underway lockDriveInit t .motorOpen mid →
        (lockTaskLoop lockDriveInit t mid).1.status = .opened →
          delays (lockTaskLoopCalls lockDriveInit s (c :: mid)) = [pdMsToTicks hold]) ∧
    (∀ before c,
      (lockTaskLoop lockDriveInit (.boot hold) before).1.status = .closing ∨
          (lockTaskLoop lockDriveInit (.boot hold) (before ++ [c])).1.status = .closing →
        delays (lockTaskCalls (lockTaskLoop lockDriveInit (.boot hold) before).1 c) = []) := by
  refine ⟨run_powered (by decide) hold, fun before c mid => ?_, fun before c h => ?_⟩
  · intro s t hs ht hmid hend
    have htask : (lockTask lockDriveInit s c).1 = t := by
      simp only [s, t]
      rw [lockTaskLoop_snoc]
    obtain ⟨hbegin, hnone⟩ :=
      (run_driveStep lockDriveInit hold before c).enters (r := .motorOpen) hs (by rw [htask]; exact ht)
    have hremaining : t.Remaining .motorOpen Request.motorOpen.profile.tail := by
      rw [← htask, hbegin]
      exact .begin _ .motorOpen
    have hhold : t.unlockHoldDuration = hold := run_unlockHoldDuration hold (before ++ [c])
    rw [lockTaskLoopCalls, htask, delays_append, hnone, (stroke hremaining hmid hend).2.2, hhold, delays_opening]
    rfl
  · rw [lockTaskLoop_snoc] at h
    exact (run_driveStep lockDriveInit hold before c).closing_delays h

end GateNode.Lock
