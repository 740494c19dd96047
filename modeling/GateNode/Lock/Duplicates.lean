/-
A user's command along a movement under way. The queue does not tell it from
a tick, so each one takes a step of the ramp and the movement needs a tick
less. The speeds are the same, driven sooner.
-/
import GateNode.Lock.Commands
import GateNode.Lock.Stroke

namespace GateNode.Lock

/-- What `lock_task` receives in a step. -/
def System.received (s : System) : Event → List QueuedCommand
  | .taskReceive => if s.calls = [] then s.commandQueue.items.head?.toList else []
  | _ => []

/-- What it has received in a run from boot, in order. -/
def receivedAlong (d : LockDriveState) (hold : UInt32) (es : List Event) : List QueuedCommand :=
  Lts.collect (System.step d) System.received (.boot hold) es

/-- The speeds driven. -/
def speeds (calls : List LockCall) : List UInt8 :=
  calls.filterMap fun
    | .lockDrive _ speed => some speed
    | _ => none

/-- The expirations of a movement with no command but its first. -/
def Request.strokeTicks : Request → Nat
  | .motorOpen => 8
  | .motorClose => 5

/-- And the speeds it drives. -/
def Request.strokeSpeeds : Request → List UInt8
  | .motorOpen => [20, 40, 60, 50, 40, 30, 20, 10]
  | .motorClose => [20, 40, 60, 40, 20]

/-- A movement from rest to its own end: `first`, received behind `before`, starts it, and the last of
`mid` ends it. -/
structure Stroke (d : LockDriveState) (hold : UInt32) (r : Request) (before : List MotorCommand)
    (first : MotorCommand) (mid : List MotorCommand) : Prop where
  rest : (lockTaskLoop d (.boot hold) before).1.AtRest
  started : (lockTaskLoop d (.boot hold) (before ++ [first])).1.status = r.moving
  underway : Underway d (lockTaskLoop d (.boot hold) (before ++ [first])).1 r mid
  ended : (lockTaskLoop d (lockTaskLoop d (.boot hold) (before ++ [first])).1 mid).1.status = r.rest

variable {d : LockDriveState} {hold : UInt32} {es : List Event} {s t : System} {e : Event} {r : Request}

/-! ## What is received -/

/-- The lock once the assignments of a movement that begins are made. -/
def System.next (d : LockDriveState) (s : System) : LockState :=
  match s.beginning with
  | some m => (lockTask d s.lock m.command).1
  | none => s.lock

theorem System.Step.received (hok : s.Ok) (h : System.Step d s e t) :
    t.next d = (lockTaskLoop d (s.next d) ((s.received e).map (·.command))).1 ∧
      ∀ m ∈ s.received e, m ∈ s.commandQueue.items := by
  cases h with
  | userSend | timerExpire | callbackSend | taskCall => simp [System.received, System.next]
  | taskAssign m hm => simp [System.received, System.next, hm]
  | taskBegin m q hcalls hq | taskReceive m q hcalls hq =>
    have hreceived : s.received .taskReceive = [m] := by simp [System.received, hcalls, hq]
    have hnone := hok.settled hcalls
    rw [hreceived, hq]
    simp only [System.next, hnone]
    exact ⟨rfl, by simp⟩

/-- The lock's state is what the messages received make of it. -/
theorem run_lock (h : run d hold es = some s) :
    s.next d = (lockTaskLoop d (.boot hold) ((receivedAlong d hold es).map (·.command))).1 := by
  refine Lts.exec_history (I := fun es s => s.next d =
    (lockTaskLoop d (.boot hold) ((receivedAlong d hold es).map (·.command))).1) h rfl ?_
  intro es s e t hs ih hstep
  have ht := ((System.step_cases hstep).received (run_ok hs)).1
  rw [receivedAlong, Lts.collect_snoc hs, List.map_append, lockTaskLoop_append, ← receivedAlong, ← ih]
  exact ht

theorem received_request (h : run d hold es = some s) :
    ∀ m ∈ receivedAlong d hold es, ∃ r : Request, m.command = r.command := by
  refine Lts.exec_history (I := fun es _ => ∀ m ∈ receivedAlong d hold es, ∃ r : Request, m.command = r.command)
    h (by simp [receivedAlong]) ?_
  intro es s e t hs ih hstep m hm
  rw [receivedAlong, Lts.collect_snoc hs, List.mem_append] at hm
  rcases hm with hm | hm
  · exact ih m hm
  · exact (run_ok hs).queued m (((System.step_cases hstep).received (run_ok hs)).2 m hm)

/-! ## A stroke -/

theorem speeds_append (as bs : List LockCall) : speeds (as ++ bs) = speeds as ++ speeds bs := List.filterMap_append

theorem speeds_advance (hold : UInt32) (r : Request) (qs : List Position) :
    speeds (qs.flatMap (advanceCalls hold r)) = qs.map (·.1) := by
  induction qs with
  | nil => rfl
  | cons q qs ih =>
    have hone : speeds (advanceCalls hold r q) = [q.1] := by
      cases r with
      | motorOpen => by_cases hlow : q.1 ≤ 10 <;> simp [advanceCalls, speeds, hlow]
      | motorClose => rfl
    rw [List.flatMap_cons, speeds_append, ih, hone, List.map_cons, List.singleton_append]

variable {before mid : List MotorCommand} {first : MotorCommand}

/-- A stroke begins with its first command. -/
theorem Stroke.begins (h : Stroke d hold r before first mid) :
    (lockTaskLoop d (.boot hold) (before ++ [first])).1 = (lockTaskLoop d (.boot hold) before).1.begin r ∧
      lockTaskCalls (lockTaskLoop d (.boot hold) before).1 first = [.lockDrive r.direction 20, .xTimerStart] := by
  have hstarted := h.started
  rw [lockTaskLoop_snoc] at hstarted ⊢
  exact (run_driveStep d hold before first).starts h.rest hstarted

/-- Its speeds are those of the ramp, and it takes one command for each and one for the end. -/
theorem Stroke.spec (h : Stroke d hold r before first mid) :
    speeds (lockTaskLoopCalls d (lockTaskLoop d (.boot hold) before).1 (first :: mid)) = r.strokeSpeeds ∧
      r.opposite.command ∉ mid ∧ mid.count r.command = r.strokeTicks := by
  obtain ⟨hbegin, hfirst⟩ := h.begins
  have hremaining := LockState.Remaining.begin (lockTaskLoop d (.boot hold) before).1 r
  rw [← hbegin] at hremaining
  obtain ⟨hnot, hcount, hcalls⟩ := stroke hremaining h.underway h.ended
  have htask : (lockTask d (lockTaskLoop d (.boot hold) before).1 first).1 =
      (lockTaskLoop d (.boot hold) (before ++ [first])).1 := by rw [lockTaskLoop_snoc]
  refine ⟨?_, hnot, ?_⟩
  · rw [lockTaskLoopCalls, htask, speeds_append, hfirst, hcalls, speeds_append, speeds_advance]
    cases r <;> rfl
  · rw [hcount]
    cases r <;> rfl

/-- **A movement takes its expirations and its speeds** exactly when no user's command is received while
it lasts; the speeds it has in any case, and each such command saves an expiration. -/
theorem stroke_ticks_iff {s : System} (h : run lockDriveInit hold es = some s)
    {pre mid post : List QueuedCommand} {first : QueuedCommand}
    (hreceived : receivedAlong lockDriveInit hold es = pre ++ first :: (mid ++ post))
    (hstroke : Stroke lockDriveInit hold r (pre.map (·.command)) first.command (mid.map (·.command))) :
    (mid.countP (·.source = .timer) = r.strokeTicks ∧
      speeds (lockTaskLoopCalls lockDriveInit (lockTaskLoop lockDriveInit (.boot hold) (pre.map (·.command))).1
        (first.command :: mid.map (·.command))) = r.strokeSpeeds) ↔
      ∀ m ∈ mid, m.source ≠ .user := by
  obtain ⟨hspeeds, hnot, hcount⟩ := hstroke.spec
  have hall : ∀ c ∈ mid.map (·.command), r.command = c := by
    intro c hc
    obtain ⟨m, hm, rfl⟩ := List.mem_map.mp hc
    obtain ⟨r', hr'⟩ := received_request h m (by simp [hreceived, hm])
    rcases r.eq_or_eq_opposite r' with rfl | rfl
    · exact hr'.symm
    · exact absurd (List.mem_map.mpr ⟨m, hm, hr'⟩) hnot
  have hlen : mid.length = r.strokeTicks := by
    rw [← hcount, List.count_eq_length.mpr hall, List.length_map]
  rw [← hlen, List.countP_eq_length]
  simp only [hspeeds, and_true]
  refine forall₂_congr fun m _ => ?_
  cases m.source <;> decide

/-- What a closing by its ticks alone receives behind its first command. -/
def closingTicks : List QueuedCommand := List.replicate 5 ⟨.closeMotor, .timer⟩

theorem stroke_ticks_iff_closing :
    (closingTicks.countP (·.source = .timer) = 5 ∧
      speeds (lockTaskLoopCalls lockDriveInit (.boot 5000) (.closeMotor :: closingTicks.map (·.command))) =
        [20, 40, 60, 40, 20]) ↔ ∀ m ∈ closingTicks, m.source ≠ .user := by
  have hrun : (run lockDriveInit 5000 closingEvents).isSome := by decide +kernel
  obtain ⟨s, hs⟩ := Option.isSome_iff_exists.mp hrun
  have hreceived : receivedAlong lockDriveInit 5000 closingEvents =
      [] ++ ⟨.closeMotor, .user⟩ :: (closingTicks ++ []) := by decide +kernel
  exact stroke_ticks_iff (r := .motorClose) hs hreceived ⟨by decide, by decide, by decide, by decide⟩

/-- A closing whose user asks for it twice. -/
def duplicateEvents : List Event :=
  startEvents .motorClose ++ requestEvents .motorClose 3 ++ tickEvents 3 ++ tickEvents 3 ++ tickEvents 3 ++
    tickEvents 2

/-- It takes four expirations. -/
theorem duplicate_saves_expiration :
    let mid : List QueuedCommand := ⟨.closeMotor, .user⟩ :: List.replicate 4 ⟨.closeMotor, .timer⟩
    (run lockDriveInit 5000 duplicateEvents).isSome ∧
      receivedAlong lockDriveInit 5000 duplicateEvents = ⟨.closeMotor, .user⟩ :: mid ∧
      Stroke lockDriveInit 5000 .motorClose [] .closeMotor (mid.map (·.command)) ∧
      mid.countP (·.source = .timer) = 4 := by
  refine ⟨by decide +kernel, by decide +kernel, ⟨by decide, by decide, by decide, by decide⟩, by decide⟩

end GateNode.Lock
