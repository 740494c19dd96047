/-
How a movement starts. From rest the first speed driven is 20; a reversal
sets that speed and leaves the drive to the next tick, which adds its
increment first: the motor then starts at 40.
-/
import GateNode.Lock.Drives

namespace GateNode.Lock

open History

/-- A drive starts at 20 where both channels are off, and is at most 20 away from the one before it. -/
def LockCall.Soft (d : LockDriveState) (before : List LockCall) : LockCall → Prop
  | .lockDrive _ speed =>
    (Off d (channels d before) → speed = 20) ∧
      ∀ last, speedDriven before = some last → ((speed.toNat : Int) - last.toNat).natAbs ≤ 20
  | _ => True

/-- The state `lock_task` is in after requests. -/
def afterRequests (d : LockDriveState) (hold : UInt32) (requests : List Request) : LockState :=
  (lockTaskLoop d (.boot hold) (requests.map Request.command)).1

def requestCalls (d : LockDriveState) (hold : UInt32) (requests : List Request) : List LockCall :=
  lockTaskLoopCalls d (.boot hold) (requests.map Request.command)

/-- The request is the one before it again, and that one reversed a movement. -/
def RepeatsReversal (d : LockDriveState) (hold : UInt32) (before : List Request) (r : Request) : Prop :=
  ∃ pre, before = pre ++ [r] ∧ (afterRequests d hold pre).status = r.opposite.moving

variable {d : LockDriveState} {hold : UInt32} {s t : LockState} {c : MotorCommand} {calls trace : List LockCall}
  {requests : List Request} {r : Request}

theorem afterRequests_snoc : afterRequests d hold (requests ++ [r]) =
    (lockTask d (afterRequests d hold requests) r.command).1 := by
  rw [afterRequests, List.map_append, List.map_singleton, lockTaskLoop_snoc, afterRequests]

theorem requestCalls_snoc : requestCalls d hold (requests ++ [r]) =
    requestCalls d hold requests ++ lockTaskCalls (afterRequests d hold requests) r.command := by
  rw [requestCalls, List.map_append, List.map_singleton, lockTaskLoopCalls_snoc, requestCalls, afterRequests]

theorem requests_driveStep (d : LockDriveState) (hold : UInt32) (requests : List Request) (r : Request) :
    DriveStep (afterRequests d hold requests) r.command (afterRequests d hold (requests ++ [r]))
      (lockTaskCalls (afterRequests d hold requests) r.command) := by
  rw [afterRequests_snoc]
  exact run_driveStep d hold (requests.map Request.command) r.command

/-- Neighbours on the ramp are at most 20 apart, and the one behind its first is not 20. -/
theorem profile_steps (r : Request) : ∀ p ∈ r.profile, ∀ q ∈ r.profile, [p, q] <:+: r.profile →
    ((q.1.toNat : Int) - p.1.toNat).natAbs ≤ 20 ∧ (p = (20, 20) → q.1 ≠ 20) := by
  cases r <;> decide

theorem last_ne_first (r : Request) : r.profile.getLast? ≠ some (20, 20) := by
  cases r <;> decide

theorem always_soft_advance {q : Position} : Always (fun b c => c.Soft d b) trace (advanceCalls hold r q) ↔
    (Off d (channels d trace) → q.1 = 20) ∧
      ∀ last, speedDriven trace = some last → ((q.1.toNat : Int) - last.toNat).natAbs ≤ 20 := by
  have hdelay (ticks : UInt32) : channels d (trace ++ [.vTaskDelay ticks]) = channels d trace := by
    rw [channels_append]
    rfl
  cases r with
  | motorOpen => by_cases hlow : q.1 ≤ 10 <;> simp [advanceCalls, hlow, LockCall.Soft, hdelay, LockCall.drives]
  | motorClose => simp [advanceCalls, LockCall.Soft]

/-- An iteration is soft unless it goes on from the first position with nothing driven yet. -/
theorem DriveStep.soft_iff (h : DriveStep s c t calls) (hs : Driven d s trace) (hc : c = r.command) :
    Always (fun b c => c.Soft d b) trace calls ↔ ¬ (s.status = r.moving ∧ speedDriven trace = none) := by
  cases h with
  | ignore hn => exact absurd hc (hn r)
  | start r' hrest =>
    have hnone := hs.rest hrest
    refine iff_of_true ?_ fun hm => LockState.not_atRest_of_moving hm.1 hrest
    simp [LockCall.Soft, hnone]
  | reverse r' hm =>
    obtain rfl := Request.command_injective hc
    refine iff_of_true ?_ fun hm' => ?_
    · simp [LockCall.Soft]
    · exact r'.opposite_moving_ne (hm.symm.trans hm'.1)
  | advance r' q hm hq =>
    obtain rfl := Request.command_injective hc
    obtain ⟨hnear, hfirst⟩ := profile_steps r' _ (hq.subset (by simp)) q (hq.subset (by simp)) hq
    rw [always_soft_advance, off_iff]
    rcases hs.moving r' hm with ⟨hnone, hp⟩ | ⟨hsome, -⟩
    · simp [hnone, hm, hfirst hp]
    · simpa [hsome] using hnear
  | finish r' hm hq =>
    refine iff_of_true ?_ fun hm' => ?_
    · simp [LockCall.Soft]
    · rcases hs.moving r' hm with ⟨-, hp⟩ | ⟨hsome, -⟩
      · rw [hp] at hq
        exact last_ne_first r' hq
      · rw [hsome] at hm'
        cases hm'.2

/-- An iteration that leaves a movement with nothing driven yet is the one that turns to it. -/
theorem DriveStep.undriven_iff (h : DriveStep s c t calls) {last : Request} (hc : c = last.command) :
    (t.status = r.moving ∧ speedDriven (trace ++ calls) = none) ↔ last = r ∧ s.status = r.opposite.moving := by
  cases h with
  | ignore hn => exact absurd hc (hn last)
  | start r' hrest =>
    refine iff_of_false (fun h => ?_) fun h => ?_
    · simp [LockCall.drives] at h
    · exact LockState.not_atRest_of_moving h.2 hrest
  | reverse r' hm =>
    obtain rfl := Request.command_injective hc
    constructor
    · rintro ⟨ht, -⟩
      obtain rfl := Request.moving_injective ht
      exact ⟨rfl, hm⟩
    · rintro ⟨rfl, -⟩
      refine ⟨rfl, ?_⟩
      simp [LockCall.drives]
  | advance r' q hm =>
    obtain rfl := Request.command_injective hc
    refine iff_of_false (fun h => ?_) fun h => ?_
    · have hnone := h.2
      rw [speedDriven_append, foldl_drives_advance] at hnone
      cases hnone
    · obtain ⟨rfl, hopp⟩ := h
      exact r'.opposite_moving_ne (hopp.symm.trans hm)
  | finish r' hm =>
    obtain rfl := Request.command_injective hc
    refine iff_of_false (fun h => r.moving_ne_rest r' h.1.symm) fun h => ?_
    obtain ⟨rfl, hopp⟩ := h
    exact r'.opposite_moving_ne (hopp.symm.trans hm)

/-- In a movement nothing is driven yet exactly when the last request reversed the other one. -/
theorem undriven_iff (d : LockDriveState) (hold : UInt32) (requests : List Request) (r : Request) :
    ((afterRequests d hold requests).status = r.moving ∧ speedDriven (requestCalls d hold requests) = none) ↔
      RepeatsReversal d hold requests r := by
  rcases List.eq_nil_or_concat requests with rfl | ⟨pre, last, h⟩
  · refine iff_of_false (fun h => Request.moving_ne_rest r .motorClose h.1.symm) fun ⟨pre, h, _⟩ => ?_
    simp at h
  · rw [List.concat_eq_append] at h
    subst h
    rw [requestCalls_snoc, (requests_driveStep d hold pre last).undriven_iff rfl]
    constructor
    · rintro ⟨rfl, hopp⟩
      exact ⟨pre, rfl, hopp⟩
    · rintro ⟨pre', h, hopp⟩
      obtain ⟨rfl, hlast⟩ := List.append_inj' h rfl
      exact ⟨by simpa using hlast, hopp⟩

/-- **Every movement starts softly** exactly when no request that reverses a movement is directly
followed by the same request, so that every movement a reversal begins is itself reversed at once. -/
theorem soft_start_iff (hold : UInt32) (requests : List Request) :
    Always (fun b c => c.Soft lockDriveInit b) [] (requestCalls lockDriveInit hold requests) ↔
      Always (fun b r => ¬ RepeatsReversal lockDriveInit hold b r) [] requests := by
  induction requests using List.reverseRecOn with
  | nil => exact iff_of_true always_nil always_nil
  | append_singleton requests r ih =>
    have hstep := requests_driveStep lockDriveInit hold requests r
    have hdriven : Driven lockDriveInit (afterRequests lockDriveInit hold requests)
        (requestCalls lockDriveInit hold requests) := driven lockDriveInit hold _
    rw [requestCalls_snoc, always_append, always_append, ih, List.nil_append, List.nil_append,
      hstep.soft_iff hdriven rfl, undriven_iff]
    simp

/-- An opening is reversed, and its first tick drives 40. -/
theorem soft_reversal_starts_at_forty :
    requestCalls lockDriveInit 5000 [.motorOpen, .motorClose, .motorClose] =
        [.lockDrive .forward 20, .xTimerStart, .lockDriveIdle, .xTimerStart, .lockDrive .reverse 40,
          .xTimerStart] ∧
      Off lockDriveInit (channels lockDriveInit [.lockDrive .forward 20, .xTimerStart, .lockDriveIdle,
        .xTimerStart]) ∧
      ¬ Always (fun b c => c.Soft lockDriveInit b) []
        (requestCalls lockDriveInit 5000 [.motorOpen, .motorClose, .motorClose]) := by
  have hoff : Off lockDriveInit (channels lockDriveInit [.lockDrive .forward 20, .xTimerStart, .lockDriveIdle,
      .xTimerStart]) := by decide
  refine ⟨by decide, hoff, fun h => ?_⟩
  have hforty := h [.lockDrive .forward 20, .xTimerStart, .lockDriveIdle, .xTimerStart] (.lockDrive .reverse 40)
    [.xTimerStart] (by decide)
  exact absurd (hforty.1 hoff) (by decide)

end GateNode.Lock
