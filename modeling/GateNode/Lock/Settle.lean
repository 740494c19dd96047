/-
When the lock comes to rest. A trigger is a command or a tick on its way to
`lock_task`; every iteration takes one and asks for at most one more, and the
one that ends a movement asks for none. So triggers of one movement run out,
whatever the order of the steps. Triggers of both movements need not: each
turns the lock round for the other, and neither movement gets on.
-/
import Mathlib.Data.List.Basic
import GateNode.Lib.Rank
import GateNode.Lock.Bound
import GateNode.Lock.Stranded

namespace GateNode.Lock

/-- Commands queued, a callback under way, a timer running, a timer about to be started. -/
def System.triggers (s : System) : Nat :=
  s.commandQueue.items.length + s.callback.toList.length + s.timerArmed.toNat + s.calls.count .xTimerStart

/-- How many iterations of a movement have been: as far along its profile as the lock stands, none at rest. -/
def LockState.passed (s : LockState) : Nat :=
  match s.status with
  | .opening => Request.motorOpen.profile.idxOf (s.speed, s.speedIncrement) + 1
  | .closing => Request.motorClose.profile.idxOf (s.speed, s.speedIncrement) + 1
  | _ => 0

/-- As above, a movement that begins having its first iteration behind it. -/
def System.passed (s : System) : Nat := if s.beginning = none then s.lock.passed else 1

/-- What is left to do: nine iterations a trigger, less those the movement has behind it, and on the way to each
the steps of its tick and its calls. -/
def System.work (s : System) : Nat :=
  8 * (9 * s.triggers - s.passed) +
    (s.calls.length + s.beginning.toList.length + 3 * s.calls.count .xTimerStart + 2 * s.timerArmed.toNat + s.callback.toList.length)

/-- The lock is bound for where `r` ends, and with nothing pending it is there. -/
structure System.Heading (r : Request) (s : System) : Prop extends s.Bound r where
  arrived : s.triggers = 0 → s.lock.status = r.rest
  short : s.calls.length + s.beginning.toList.length ≤ 4 ∧ s.calls.count .xTimerStart ≤ 1

variable {d : LockDriveState} {hold : UInt32} {s t u : System} {e : Event} {r : Request} {es : List Event}

/-! ## One iteration -/

/-- In a list without repetitions the neighbour's place is the next one. -/
theorem idxOf_of_infix {α : Type} [BEq α] [LawfulBEq α] {p q : α} {l : List α} (hl : l.Nodup) (h : [p, q] <:+: l) :
    l.idxOf q = l.idxOf p + 1 := by
  obtain ⟨a, b, rfl⟩ := h
  rw [List.append_assoc] at hl ⊢
  have hdisjoint := (List.nodup_append.mp hl).2.2
  have hp : p ∉ a := fun hmem => hdisjoint p hmem p (by simp) rfl
  have hq : q ∉ a := fun hmem => hdisjoint q hmem q (by simp) rfl
  have hne : p ≠ q := by
    have := (List.nodup_append.mp hl).2.1
    simp only [List.cons_append, List.nodup_cons, List.mem_cons, not_or] at this
    exact this.1.1
  rw [List.idxOf_append_of_notMem hp, List.idxOf_append_of_notMem hq]
  simp [List.idxOf_cons_ne, hne]

theorem nodup_profile (r : Request) : r.profile.Nodup := by cases r <;> decide

theorem length_profile_le (r : Request) : r.profile.length ≤ 8 := by cases r <;> decide

theorem passed_of_moving {s : LockState} (h : s.status = r.moving) :
    s.passed = r.profile.idxOf (s.speed, s.speedIncrement) + 1 := by
  cases r <;> simp only [LockState.passed, h, Request.moving]

theorem passed_of_atRest {s : LockState} (h : s.AtRest) : s.passed = 0 := by
  rcases h with h | h <;> rw [LockState.passed, h]

theorem LockOk.passed_le {s : LockState} (h : LockOk s) : s.passed ≤ 8 := by
  cases h with
  | rest r status => rw [passed_of_atRest (LockState.atRest_iff.mpr ⟨r, status⟩)]; omega
  | moving r status _ _ position =>
    rw [passed_of_moving status]
    have := List.idxOf_lt_length_of_mem position
    have := length_profile_le r
    omega

theorem count_driveCalls (direction : Direction) (speed : UInt8) :
    (driveCalls d direction speed).length = 2 ∧ (driveCalls d direction speed).count .xTimerStart = 0 := by
  simp [driveCalls, lockDrive_eq]

theorem count_holdCalls (s : LockState) (r : Request) (q : Position) :
    (holdCalls s r q).length ≤ 1 ∧ (holdCalls s r q).count .xTimerStart = 0 := by
  cases r with
  | motorOpen =>
    simp only [holdCalls]
    split <;> simp
  | motorClose => simp [holdCalls]

/-- The calls with which a movement begins from rest. -/
theorem count_startCalls {s : LockState} (h : s.AtRest) (r : Request) :
    (lockTask d s r.command).2.length = 3 ∧ (lockTask d s r.command).2.count .xTimerStart = 1 := by
  obtain ⟨hlen, hcount⟩ := count_driveCalls (d := d) r.direction 20
  rw [lockTask_start h]
  simp [hlen, hcount]

/-- An iteration towards `r` gets one position on and asks for a tick, or ends the movement and asks for none. -/
theorem LockStep.spends {s t : LockState} {calls : List TaskCall} (h : LockStep d s r.command t calls)
    (hne : s.status ≠ r.opposite.moving) :
    (t.status = r.moving ∧ t.passed = s.passed + 1 ∧ calls.length ≤ 4 ∧ calls.count .xTimerStart = 1) ∨
      (t.status = r.rest ∧ t.passed = 0 ∧ calls.length = 2 ∧ calls.count .xTimerStart = 0) := by
  generalize hc : r.command = c at h
  cases h with
  | ignore hn => exact absurd hc.symm (hn r)
  | start r' hrest =>
    obtain rfl := Request.command_injective hc
    obtain ⟨hlen, hcount⟩ := count_driveCalls (d := d) r.direction 20
    refine .inl ⟨rfl, ?_, ?_, ?_⟩
    · rw [passed_of_atRest hrest, passed_of_moving (r := r) rfl]
      cases r <;> rfl
    · rw [List.length_append, hlen]
      decide
    · rw [List.count_append, hcount]
      decide
  | reverse r' hs' =>
    obtain rfl := Request.command_injective hc
    exact absurd hs' hne
  | advance r' q hs' hq =>
    obtain rfl := Request.command_injective hc
    obtain ⟨hlen, hcount⟩ := count_driveCalls (d := d) r.direction q.1
    obtain ⟨hholdLen, hholdCount⟩ := count_holdCalls s r q
    refine .inl ⟨hs', ?_, ?_, ?_⟩
    · have hpassed : ({ s with speed := q.1, speedIncrement := q.2 } : LockState).passed = r.profile.idxOf q + 1 :=
        passed_of_moving (s := { s with speed := q.1, speedIncrement := q.2 }) hs'
      rw [hpassed, passed_of_moving hs', idxOf_of_infix (nodup_profile r) hq]
    · rw [List.length_append, List.length_append, hlen, List.length_singleton]
      omega
    · rw [List.count_append, List.count_append, hcount, hholdCount]
      decide
  | finish r' hs' =>
    obtain rfl := Request.command_injective hc
    refine .inr ⟨rfl, ?_, rfl, by simp [idleCalls, lockDriveIdle]⟩
    exact passed_of_atRest (LockState.atRest_iff.mpr ⟨r, rfl⟩)

/-! ## The triggers run out -/

theorem System.triggers_pos_of_start (h : .xTimerStart ∈ s.calls) : 0 < s.triggers := by
  have := List.count_pos_iff.mpr h
  unfold System.triggers
  omega

/-- A moving lock has its next tick to come. -/
theorem System.Ok.triggers_pos (hok : s.Ok) (h : s.lock.Moving) : 0 < s.triggers := by
  rcases hok.ticks h with ha | hc | hx | ⟨m, hm, -⟩
  · rw [System.triggers, ha, Bool.toNat_true]
    omega
  · obtain ⟨c, hc⟩ := Option.isSome_iff_exists.mp hc
    rw [System.triggers, hc, Option.toList_some, List.length_singleton]
    omega
  · exact System.triggers_pos_of_start hx
  · have := List.length_pos_of_mem hm
    unfold System.triggers
    omega

/-- As far as the lock has come, it has triggers to pay for it. -/
theorem System.Ok.passed_le_triggers (hok : s.Ok) : s.passed ≤ 9 * s.triggers := by
  unfold System.passed
  split
  · rcases hok.lockOk.moving_or_atRest with hm | hr
    · have := hok.lockOk.passed_le
      have := hok.triggers_pos hm
      omega
    · rw [passed_of_atRest hr]
      omega
  · next hb =>
    obtain ⟨m, hm⟩ := Option.ne_none_iff_exists'.mp hb
    have := System.triggers_pos_of_start (hok.begun m hm).1
    omega

/-- A step that is no user's keeps the lock heading where it does, and leaves it less to do. -/
theorem System.Heading.step (h : s.Heading r) (hok : s.Ok) (he : Unasked e) (hs : Step d s e t) :
    t.Heading r ∧ t.work < s.work := by
  have hpassed := hok.passed_le_triggers
  have hpassed' := (hok.step hs).passed_le_triggers
  have hbound := h.toBound.step hok (he r.opposite) hs
  cases hs with
  | userSend r' => exact absurd rfl (he r')
  | timerExpire ha hc =>
    refine ⟨⟨hbound, fun h0 => ?_, h.short⟩, ?_⟩
    · simp only [System.triggers, Option.toList_some, List.length_singleton] at h0
      omega
    · simp only [System.work, System.triggers, System.passed, ha, hc, Option.toList_some, Option.toList_none,
        List.length_nil, List.length_singleton, Bool.toNat_true, Bool.toNat_false]
      omega
  | callbackSend c hc q hq =>
    refine ⟨⟨hbound, fun h0 => ?_, h.short⟩, ?_⟩
    · simp only [System.triggers, hq, List.length_append, List.length_singleton] at h0
      omega
    · simp only [System.work, System.triggers, System.passed, hc, hq, Option.toList_some, Option.toList_none,
        List.length_nil, List.length_append, List.length_singleton]
      omega
  | taskBegin m q hcalls hq hb =>
    have hm : m.command = r.command := h.queued m (by rw [hq]; exact List.mem_cons_self)
    -- Heading towards `r`, the lock can only begin it from rest.
    have hrest : s.lock.AtRest := by
      rw [hm] at hb
      exact (LockState.begins_iff.mp hb).resolve_right h.along
    have hnone := hok.settled hcalls
    obtain ⟨hcallsLen, hcount⟩ := count_startCalls (d := d) hrest r
    have hlen : s.commandQueue.items.length = q.items.length + 1 := by rw [hq, List.length_cons]
    simp only [hm] at hbound ⊢
    refine ⟨⟨hbound, fun h0 => ?_, ?_⟩, ?_⟩
    · simp only [System.triggers, hcount] at h0
      omega
    · simp only [hcallsLen, hcount, Option.toList_some, List.length_singleton]
      omega
    · simp only [System.passed, hnone, if_true, passed_of_atRest hrest] at hpassed
      simp only [System.work, System.triggers, System.passed, hcalls, hnone, hlen, hcallsLen, hcount,
        passed_of_atRest hrest, Option.toList_some, Option.toList_none, List.count_nil, List.length_nil,
        List.length_singleton, if_true, reduceCtorEq, if_false]
      omega
  | taskReceive m q hcalls hq =>
    have hm : m.command = r.command := h.queued m (by rw [hq]; exact List.mem_cons_self)
    have hspends := (lockTask_step (d := d) hok.lockOk r.command).spends h.along
    have hle := hok.lockOk.passed_le
    have hlen : s.commandQueue.items.length = q.items.length + 1 := by rw [hq, List.length_cons]
    have hnone := hok.settled hcalls
    simp only [hm] at hbound hpassed' ⊢
    simp only [System.triggers, System.passed, hnone, if_true] at hpassed'
    refine ⟨⟨hbound, ?_, ?_⟩, ?_⟩
    · simp only [System.triggers]
      rcases hspends with ⟨-, -, -, hcount⟩ | ⟨hs, -⟩
      · omega
      · exact fun _ => hs
    · simp only [hnone, Option.toList_none, List.length_nil]
      omega
    · simp only [System.work, System.triggers, System.passed, hcalls, hlen, hnone, List.count_nil, List.length_nil,
        Option.toList_none, if_true] at hpassed ⊢
      omega
  | taskAssign m hm =>
    obtain ⟨r', -, hbegin⟩ := hok.assigned d hm
    have hpos := System.triggers_pos_of_start (hok.begun m hm).1
    have hone : (s.lock.begin r').passed = 1 := by cases r' <;> rfl
    refine ⟨⟨hbound, fun h0 => ?_, ?_⟩, ?_⟩
    · simp only [System.triggers] at h0 hpos
      omega
    · have hshort := h.short
      simp only [hm, Option.toList_some, List.length_singleton, Option.toList_none, List.length_nil] at hshort ⊢
      omega
    · simp only [System.work, System.triggers, System.passed, hm, hbegin, hone, Option.toList_some,
        Option.toList_none, List.length_singleton, List.length_nil, if_true, reduceCtorEq, if_false]
      omega
  | taskCall c cs hcalls =>
    obtain ⟨hlen, hcount⟩ := h.short
    simp only [System.triggers, System.passed, hcalls, List.count_cons] at hpassed
    simp only [System.triggers, System.passed] at hpassed'
    simp only [hcalls, List.length_cons, List.count_cons] at hlen hcount
    refine ⟨⟨hbound, fun h0 => h.arrived ?_, ?_⟩, ?_⟩
    · simp only [System.triggers, hcalls, List.count_cons] at h0 ⊢
      by_cases hc : c = .xTimerStart <;> simp_all
    · dsimp only
      omega
    · simp only [System.work, System.triggers, System.passed, hcalls, List.length_cons, List.count_cons]
      by_cases hc : c = .xTimerStart
      · subst hc
        simp only [beq_self_eq_true, if_true, decide_true, Bool.or_true, Bool.toNat_true] at hpassed hpassed' ⊢
        have := s.timerArmed.toNat_le
        omega
      · simp only [beq_iff_eq, hc, if_false, decide_false, Bool.or_false] at hpassed hpassed' ⊢
        omega

/-- A further request for the same movement changes nothing about it. -/
theorem System.Heading.userSend (h : s.Heading r) (hok : s.Ok) (hs : Step d s (.userSend r) t) : t.Heading r := by
  have hne : Event.userSend r ≠ .userSend r.opposite := by cases r <;> simp [Request.opposite]
  have hbound := h.toBound.step hok hne hs
  cases hs with
  | userSend _ q hq =>
    refine ⟨hbound, fun h0 => ?_, h.short⟩
    simp only [System.triggers, hq, List.length_append, List.length_singleton] at h0
    omega

/-- A request costs a trigger's iterations. -/
theorem System.Step.work_le (hs : Step d s (.userSend r) t) : t.work ≤ s.work + 72 := by
  cases hs with
  | userSend _ q hq =>
    simp only [System.work, System.triggers, System.passed, hq, List.length_append, List.length_singleton]
    omega

/-- Left to itself, a lock where nothing is under way does nothing. -/
theorem System.Quiescent.asked (hq : s.Quiescent) (hok : s.Ok) (hs : Step d s e t) : ¬ Unasked e := by
  obtain ⟨hitems, ha, hc, hcalls⟩ := hq
  cases hs with
  | userSend r => exact fun he => he r rfl
  | timerExpire ha' => rw [ha] at ha'; cases ha'
  | callbackSend c hc' => rw [hc] at hc'; cases hc'
  | taskBegin m q _ hitems' | taskReceive m q _ hitems' => rw [hitems] at hitems'; cases hitems'
  | taskAssign m hm => rw [hok.settled hcalls] at hm; cases hm
  | taskCall c cs hcalls' => rw [hcalls] at hcalls'; cases hcalls'

theorem System.Quiescent.work_eq (hq : s.Quiescent) (hok : s.Ok) : s.work = 0 := by
  obtain ⟨hitems, ha, hc, hcalls⟩ := hq
  simp [System.work, System.triggers, hitems, ha, hc, hcalls, hok.settled hcalls]

/-- The first request at a lock where nothing is under way. -/
theorem System.Quiescent.heading (hq : s.Quiescent) (hok : s.Ok) (hs : Step d s (.userSend r) t) : t.Heading r := by
  obtain ⟨r', hstatus, -⟩ := hq.atRest hok
  obtain ⟨hitems, ha, hc, hcalls⟩ := hq
  have hnone := hok.settled hcalls
  cases hs with
  | userSend _ q hitems' =>
    rw [hitems, List.nil_append] at hitems'
    refine ⟨⟨fun m hm => ?_, by simp [hc], by simp [hnone], by simp [ha, hcalls], ?_⟩, fun h0 => ?_,
      by simp [hcalls, hnone]⟩
    · rw [hitems', List.mem_singleton] at hm
      rw [hm]
    · rw [show s.lock.status = r'.rest from hstatus]
      exact (r.opposite.moving_ne_rest r').symm
    · simp only [System.triggers, hitems', List.length_singleton] at h0
      omega

/-- A lock asked for `r` only, since nothing was under way, is heading there. -/
theorem heading_of_requests (hrun : run d hold es = some s) (hq : s.Quiescent) {asks : List Event}
    (hasks : ∀ r', .userSend r' ∈ asks → r' = r) (hsome : asks ≠ []) (ht : Lts.exec (System.step d) s asks = some t) :
    t.Heading r := by
  have hheading : (asks = [] ∧ t = s) ∨ t.Heading r := by
    refine Lts.exec_history (I := fun asks t => (∀ r', .userSend r' ∈ asks → r' = r) →
      (asks = [] ∧ t = s) ∨ t.Heading r) ht (fun _ => .inl ⟨rfl, rfl⟩) ?_ hasks
    intro asks t e u ht ih hstep hasks
    have hok : t.Ok := run_ok (Lts.exec_append_eq_some.mpr ⟨s, hrun, ht⟩)
    have hcases := System.step_cases hstep
    have hlast (r' : Request) (he : e = .userSend r') : r' = r := hasks r' (by rw [he]; simp)
    refine .inr ?_
    rcases ih fun r' hr' => hasks r' (List.mem_append_left _ hr') with ⟨-, rfl⟩ | hheading
    · rcases unasked_or e with he | ⟨r', rfl⟩
      · exact absurd he (hq.asked hok hcases)
      · obtain rfl := hlast r' rfl
        exact hq.heading hok hcases
    · rcases unasked_or e with he | ⟨r', rfl⟩
      · exact (hheading.step hok he hcases).1
      · obtain rfl := hlast r' rfl
        exact hheading.userSend hok hcases
  exact hheading.resolve_left fun h => hsome h.1

theorem System.Heading.work_le (h : s.Heading r) : s.work ≤ 946 := by
  have hqueue := s.commandQueue.bound
  have hcallback : s.callback.toList.length ≤ 1 := by cases s.callback <;> simp
  have harmed := s.timerArmed.toNat_le
  obtain ⟨hlen, hcount⟩ := h.short
  simp only [System.work, System.triggers, queueSize] at hqueue ⊢
  omega

/-- With nothing under way any more, the lock rests where it was heading. -/
theorem System.Heading.status_eq (h : s.Heading r) (hq : s.Quiescent) : s.lock.status = r.rest := by
  refine h.arrived ?_
  obtain ⟨hitems, ha, hc, hcalls⟩ := hq
  simp [System.triggers, hitems, ha, hc, hcalls]

/-- While anything is under way, something other than a user can move. -/
theorem System.progress (h : ¬ s.Quiescent) : ∃ e t, Unasked e ∧ s.step d e = some t := by
  suffices henabled : ∃ e, Unasked e ∧ (s.step d e).isSome = true by
    obtain ⟨e, he, hsome⟩ := henabled
    obtain ⟨t, ht⟩ := Option.isSome_iff_exists.mp hsome
    exact ⟨e, t, he, ht⟩
  cases hcalls : s.calls with
  | cons c cs =>
    cases hb : s.beginning with
    | none => exact ⟨.taskCall, by simp [Unasked], by simp [System.step, hcalls, hb]⟩
    | some m =>
      cases hidles : c.idles with
      | true => exact ⟨.taskCall, by simp [Unasked], by simp [System.step, hcalls, hidles]⟩
      | false => exact ⟨.taskAssign, by simp [Unasked], by simp [System.step, hcalls, hb, hidles]⟩
  | nil =>
    cases hreceive : s.commandQueue.receive with
    | some m =>
      refine ⟨.taskReceive, by simp [Unasked], ?_⟩
      simp only [System.step, hcalls, if_true, hreceive, Option.isSome_map, Option.isSome_some]
    | none =>
      have hitems := Fifo.receive_eq_none.mp hreceive
      cases hc : s.callback with
      | some c =>
        cases hsend : s.commandQueue.send ⟨c, .timer⟩ with
        | none =>
          rw [Fifo.send_eq_none, hitems] at hsend
          exact absurd hsend (by decide)
        | some q => exact ⟨.callbackSend, by simp [Unasked], by simp [System.step, hc, hsend]⟩
      | none =>
        cases ha : s.timerArmed with
        | true => exact ⟨.timerExpire, by simp [Unasked], by simp [System.step, ha, hc]⟩
        | false => exact absurd ⟨hitems, ha, hc, hcalls⟩ h

/-- **Asked for one movement, the lock comes to rest at its end**, whatever the order of the steps. From a lock where
nothing is under way, after any number of requests for `r` and for nothing else, at any moments: without another,
there are at most 946 steps to take, there is always one to take while anything is under way, and once nothing is the
lock rests where `r` ends. -/
theorem lock_settles (d : LockDriveState) (hold : UInt32) (es asks later : List Event) (s t u : System) (r : Request)
    (hrun : run d hold es = some s) (hq : s.Quiescent) (hasks : ∀ r', .userSend r' ∈ asks → r' = r)
    (hsome : asks ≠ []) (ht : Lts.exec (System.step d) s asks = some t) (hlater : ∀ r', .userSend r' ∉ later)
    (hu : Lts.exec (System.step d) t later = some u) :
    later.length ≤ 946 ∧ (u.Quiescent → u.lock.status = r.rest) ∧
      (¬ u.Quiescent → ∃ e v, Unasked e ∧ u.step d e = some v) := by
  have hok : t.Ok := run_ok (Lts.exec_append_eq_some.mpr ⟨s, hrun, ht⟩)
  have hheading := heading_of_requests hrun hq hasks hsome ht
  have hunasked : Lts.Along (System.step d) (fun _ => Unasked) t later :=
    Lts.along_of_forall fun e he _ r' her => hlater r' (her ▸ he)
  obtain ⟨⟨-, hu'⟩, hlen⟩ := Lts.length_add_rank_le (I := fun s => s.Ok ∧ s.Heading r) System.work hu
    hunasked ⟨hok, hheading⟩ fun v e w hv he hstep => by
      have hcases := System.step_cases hstep
      obtain ⟨hheading', hlt⟩ := hv.2.step hv.1 he hcases
      exact ⟨⟨hv.1.step hcases, hheading'⟩, hlt⟩
  have hle := hheading.work_le
  exact ⟨by omega, hu'.status_eq, System.progress⟩

/-- Two requests to close at boot, and the first iteration. -/
theorem lock_settles_closing :
    ∃ t u, Lts.exec (System.step lockDriveInit) (.boot 5000) [.userSend .motorClose, .userSend .motorClose] = some t ∧
      Lts.exec (System.step lockDriveInit) t [.taskReceive, .taskAssign] = some u ∧
      [Event.taskReceive, .taskAssign].length ≤ 946 ∧ (u.Quiescent → u.lock.status = Request.motorClose.rest) ∧
      (¬ u.Quiescent → ∃ e v, Unasked e ∧ u.step lockDriveInit e = some v) :=
  ⟨_, _, rfl, rfl, lock_settles lockDriveInit 5000 [] [.userSend .motorClose, .userSend .motorClose] _ _ _ _ .motorClose
    rfl (by decide) (fun r => by cases r <;> decide) (by decide) rfl (fun r => by cases r <;> decide) rfl⟩

/-! ## Triggers of both movements -/

/-- The request whose command is received while the opposite movement is under way. -/
def System.reversals (s : System) : Event → List Request
  | .taskReceive => [.motorOpen, .motorClose].filter fun r =>
      (s.commandQueue.items.head?.map (·.command) = some r.command) ∧ s.lock.status = r.opposite.moving
  | _ => []

/-- The timer expires behind an iteration that turns the lock round, and its tick is queued. -/
def roundEvents : List Event := reverseEvents ++ [.timerExpire, .callbackSend]

/-- One opening is asked for, and one closing before the opening's first tick is received. -/
def contendingEvents : List Event :=
  startEvents .motorOpen ++ [.userSend .motorClose, .timerExpire, .callbackSend]

/-- Commands for both movements are queued, and the lock is opening. -/
def System.contending (hold : UInt32) (source : Source) (output : Option Nat) : System where
  lock := (LockState.boot hold).begin .motorOpen
  ledc := { channel0 := ⟨speedToDuty 20, output⟩ }
  commandQueue := ⟨[⟨.closeMotor, source⟩, ⟨.openMotor, .timer⟩], by simp [queueSize]⟩

theorem run_contending (hold : UInt32) :
    run lockDriveInit hold contendingEvents = some (.contending hold .user (some (speedToDuty 20))) := rfl

/-- Two rounds turn the lock to close, and to open again. -/
theorem exec_contending (hold : UInt32) (source : Source) (output : Option Nat) :
    Lts.exec (System.step lockDriveInit) (.contending hold source output) (roundEvents ++ roundEvents) =
      some (.contending hold .timer none) := rfl

/-- **Asked for both movements, the lock need never come to rest**: one opening and one closing, and it can turn
from one to the other any number of times, with the motor off and no further request. -/
theorem contending_never_settles (hold : UInt32) (n : Nat) :
    (∀ r, contendingEvents.count (.userSend r) = 1) ∧
      ∃ later t, (∀ r, .userSend r ∉ later) ∧ run lockDriveInit hold (contendingEvents ++ later) = some t ∧
        n ≤ (Lts.collect (System.step lockDriveInit) System.reversals (.boot hold) (contendingEvents ++ later)).length ∧
        t.lock.status = .opening ∧ ∀ ch, ¬ t.ledc.On ch := by
  have hround := exec_contending hold .timer none
  have hrun : run lockDriveInit hold (contendingEvents ++ (roundEvents ++ roundEvents)) =
      some (.contending hold .timer none) :=
    Lts.exec_append_eq_some.mpr ⟨_, run_contending hold, exec_contending hold .user (some (speedToDuty 20))⟩
  refine ⟨fun r => by cases r <;> rfl,
    roundEvents ++ roundEvents ++ (List.replicate n (roundEvents ++ roundEvents)).flatten, .contending hold .timer none,
    fun r hr => ?_, ?_, ?_, rfl, fun ch => ?_⟩
  · have hunasked : .userSend r ∉ roundEvents ++ roundEvents := by cases r <;> decide
    rcases List.mem_append.mp hr with hr | hr
    · exact hunasked hr
    · obtain ⟨l, hl, hr⟩ := List.mem_flatten.mp hr
      rw [List.eq_of_mem_replicate hl] at hr
      exact hunasked hr
  · rw [← List.append_assoc]
    exact Lts.exec_append_eq_some.mpr ⟨_, hrun, Lts.exec_flatten_replicate hround n⟩
  · have htwo : (Lts.collect (System.step lockDriveInit) System.reversals (.contending hold .timer none)
        (roundEvents ++ roundEvents)).length = 2 := rfl
    rw [← List.append_assoc, Lts.collect_append hrun, List.length_append, Lts.length_collect_flatten_replicate hround,
      htwo]
    omega
  · cases ch <;> exact nofun

end GateNode.Lock
