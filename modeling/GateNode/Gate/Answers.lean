/-
What the gate's answers are worth. One that says OPEN follows a command to
open, as does every drive of that channel. And asked for one movement only,
the gate comes to answer that it is made: handling a message costs its place
in the event loop for one on the lock's queue, so handling and moving come
to an end.
-/
import GateNode.Lock.Settle
import GateNode.Gate.Messages

namespace GateNode.Gate

/-- No message waits, and nothing is under way in the lock. -/
def System.Quiescent (s : System) : Prop := s.messages = [] ∧ s.lock.Quiescent

instance (s : System) : Decidable s.Quiescent := by unfold System.Quiescent; infer_instance

/-- The answer where a movement ends. -/
def answered : Lock.Request → Lock.LockInterfaceStatus
  | .motorOpen => .statusOpen
  | .motorClose => .statusClose

/-- What is left to do, were all messages commands. -/
def System.work (s : System) : Nat := s.lock.work + 73 * s.messages.length

/-- What the users among the lock's events ask for. -/
def sent (es : List Lock.Event) : List Lock.Request :=
  es.filterMap fun
    | .userSend r => some r
    | _ => none

variable {d : Lock.LockDriveState} {hold : UInt32} {s t u : System} {e : Event} {es : List Event} {r : Lock.Request}

theorem mem_sent {es : List Lock.Event} : r ∈ sent es ↔ .userSend r ∈ es := by
  rw [sent, List.mem_filterMap]
  constructor
  · rintro ⟨e, he, hr⟩
    split at hr
    · cases hr
      exact he
    · cases hr
  · intro h
    exact ⟨_, h, rfl⟩

/-- The lock is asked for what the messages handled ask for. -/
theorem sent_lockEvents (h : Lts.exec (System.step d) s es = some t) :
    sent (Lts.collect (System.step d) System.lockEvents s es) =
      (Lts.collect (System.step d) System.handled s es).filterMap Message.request := by
  refine Lts.exec_history (I := fun es _ => sent (Lts.collect (System.step d) System.lockEvents s es) =
    (Lts.collect (System.step d) System.handled s es).filterMap Message.request) h rfl ?_
  intro es t e u ht ih hstep
  have hsent : sent (t.lockEvents e) = (t.handled e).filterMap Message.request := by
    cases System.step_cases hstep with
    | arrive => rfl
    | command m rest hm r hr => simp [System.lockEvents, System.handled, sent, hm, hr]
    | other m rest hm hr => simp [System.lockEvents, System.handled, sent, hm, hr]
    | lock e he =>
      cases e with
      | userSend r => exact absurd rfl (he r)
      | timerExpire | callbackSend | taskReceive | taskAssign | taskCall => rfl
  rw [Lts.collect_snoc ht, Lts.collect_snoc ht, List.filterMap_append, ← hsent, ← ih]
  exact List.filterMap_append

theorem userSend_mem_iff (h : Lts.exec (System.step d) s es = some t) :
    .userSend r ∈ Lts.collect (System.step d) System.lockEvents s es ↔
      ∃ m ∈ Lts.collect (System.step d) System.handled s es, m.request = some r := by
  rw [← mem_sent, sent_lockEvents h, List.mem_filterMap]

/-! ## Nothing unasked -/

/-- The status is one the lock has had. -/
theorem run_not_status (hd : d.channelForward ≠ d.channelReverse) (h : run d hold es = some s)
    (hes : ∀ m ∈ handledAlong d hold es, m.request ≠ some .motorOpen) : s.status ≠ .opened := by
  refine Lts.exec_history (I := fun es s => (∀ m ∈ handledAlong d hold es, m.request ≠ some .motorOpen) →
    s.status ≠ .opened) h (fun _ => nofun) ?_ hes
  intro es s e t hs ih hstep hes
  have ht : run d hold (es ++ [e]) = some t := Lts.exec_snoc.mpr ⟨s, hs, hstep⟩
  have hwithout : t.lock.Without d .motorOpen :=
    Lock.run_without hd (run_lock ht) fun hmem => by
      obtain ⟨m, hm, hr⟩ := (userSend_mem_iff ht).mp hmem
      exact hes m hm hr
  have hbefore := ih fun m hm => hes m (by rw [handledAlong_snoc hs]; exact List.mem_append_left _ hm)
  cases System.step_cases hstep with
  | arrive | command | other => exact hbefore
  | lock e he l hl =>
    simp only [System.moved] at hwithout ⊢
    split
    · exact hbefore
    · intro hopened
      cases hwithout.rest hopened

/-- **The gate does nothing it was not asked for**: a channel is on only after a message asking for its movement was
handled, and an answer says OPEN only behind one asking to open. -/
theorem nothing_unasked (hold : UInt32) (es : List Event) (s : System)
    (hrun : run Lock.lockDriveInit hold es = some s) :
    (∀ r : Lock.Request, s.lock.ledc.On (Lock.lockDriveInit.channel r.direction) →
      ∃ m ∈ handledAlong Lock.lockDriveInit hold es, m.request = some r) ∧
    ∀ pre a post, answersAlong Lock.lockDriveInit hold es = pre ++ a :: post → a.status = .statusOpen →
      ∃ done rest, es = done ++ .handle :: rest ∧ pre = answersAlong Lock.lockDriveInit hold done ∧
        ∃ m ∈ handledAlong Lock.lockDriveInit hold done, m.request = some .motorOpen := by
  refine ⟨fun r hon => ?_, fun pre a post hsplit hopen => ?_⟩
  · by_contra hnone
    refine (Lock.run_without (r := r) (by decide) (run_lock hrun) fun hmem => hnone ?_).off hon
    exact (userSend_mem_iff hrun).mp hmem
  · obtain ⟨done, e, rest, t, p, q, rfl, ht, hanswer, rfl⟩ := Lts.collect_split hsplit
    have hhandle : e = .handle := by
      cases e with
      | handle => rfl
      | arrive | lock => simp [System.answer] at hanswer
    subst hhandle
    have hlen : (p ++ a :: q).length ≤ 1 := by
      rw [← hanswer, System.answer, List.length_map]
      refine (List.length_filter_le _ _).trans ?_
      cases t.messages <;> simp
    have hp : p = [] := by
      rw [List.length_append, List.length_cons] at hlen
      exact List.eq_nil_of_length_eq_zero (by omega)
    refine ⟨done, rest, rfl, by rw [hp, List.append_nil]; rfl, ?_⟩
    by_contra hnone
    have hstatus : t.status ≠ .opened :=
      run_not_status (by decide) ht fun m hm hr => hnone ⟨m, hm, hr⟩
    have hmem : a ∈ t.answer .handle := by rw [hanswer]; simp
    obtain ⟨m, -, rfl⟩ := List.mem_map.mp hmem
    refine hstatus ?_
    simp only [Lock.getLockStatus] at hopen
    split at hopen
    · cases hopen
    · next h => exact h
    · cases hopen

/-- An opening to its end, and the answer then. -/
def openingEvents : List Event :=
  [.arrive ⟨.commandOpenGate, homeNodeMac⟩, .handle] ++
    (([Lock.Event.taskReceive, .taskAssign, .taskCall, .taskCall, .taskCall] ++
      (List.replicate 6 (Lock.tickEvents 3)).flatten ++ Lock.tickEvents 4 ++ Lock.tickEvents 2).map .lock) ++
    [.arrive ⟨.commandSendGateStatus, homeNodeMac⟩, .handle]

theorem nothing_unasked_opening : ∃ s, run Lock.lockDriveInit 5000 openingEvents = some s ∧
    answersAlong Lock.lockDriveInit 5000 openingEvents = [⟨homeNodeMac, .statusOpen⟩] ∧
    (∀ r : Lock.Request, s.lock.ledc.On (Lock.lockDriveInit.channel r.direction) →
      ∃ m ∈ handledAlong Lock.lockDriveInit 5000 openingEvents, m.request = some r) ∧
    ∀ pre a post, answersAlong Lock.lockDriveInit 5000 openingEvents = pre ++ a :: post → a.status = .statusOpen →
      ∃ done rest, openingEvents = done ++ .handle :: rest ∧ pre = answersAlong Lock.lockDriveInit 5000 done ∧
        ∃ m ∈ handledAlong Lock.lockDriveInit 5000 done, m.request = some .motorOpen :=
  ⟨_, rfl, rfl, nothing_unasked 5000 openingEvents _ rfl⟩

/-! ## What is asked is done -/

/-- Where the lock stands when it was asked for nothing but `r` since nothing was under way. -/
theorem quiescent_or_heading (hrun : run d hold es = some s) (hq : s.Quiescent) {asks : List Event}
    (hasks : ∀ m ∈ arrived asks, ∀ r', m.request = some r' → r' = r)
    (ht : Lts.exec (System.step d) s asks = some t) :
    (∀ m ∈ t.messages, ∀ r', m.request = some r' → r' = r) ∧ (t.lock.Quiescent ∨ t.lock.Heading r) ∧
      (t.messages = [] → (∃ m ∈ arrived asks, m.request = some r) → t.lock.Heading r) := by
  have hhandled := handled_messages ht
  rw [hq.1, List.nil_append] at hhandled
  have hlock := Lts.exec_part System.lock ht fun _ _ _ hstep => (System.step_cases hstep).lock_exec
  have hsends (r' : Lock.Request)
      (hmem : .userSend r' ∈ Lts.collect (System.step d) System.lockEvents s asks) : r' = r := by
    obtain ⟨m, hm, hr⟩ := (userSend_mem_iff ht).mp hmem
    exact hasks m (by rw [← hhandled]; exact List.mem_append_left _ hm) r' hr
  refine ⟨fun m hm => hasks m (by rw [← hhandled]; exact List.mem_append_right _ hm), ?_, fun hnone hsome => ?_⟩
  · by_cases hnil : Lts.collect (System.step d) System.lockEvents s asks = []
    · rw [hnil, Lts.exec_nil, Option.some.injEq] at hlock
      exact .inl (hlock ▸ hq.2)
    · exact .inr (Lock.heading_of_requests (run_lock hrun) hq.2 hsends hnil hlock)
  · rw [hnone, List.append_nil] at hhandled
    rw [← hhandled] at hsome
    exact Lock.heading_of_requests (run_lock hrun) hq.2 hsends
      (List.ne_nil_of_mem ((userSend_mem_iff ht).mpr hsome)) hlock

/-- Without another message every step leaves less to do. -/
theorem System.Step.work_lt (h : Step d s e t) (hok : s.lock.Ok) (hlock : s.lock.Quiescent ∨ s.lock.Heading r)
    (hmessages : ∀ m ∈ s.messages, ∀ r', m.request = some r' → r' = r) (he : arrived [e] = []) :
    (t.lock.Quiescent ∨ t.lock.Heading r) ∧ (∀ m ∈ t.messages, ∀ r', m.request = some r' → r' = r) ∧
      t.work < s.work := by
  cases h with
  | arrive m => cases he
  | command m rest hm r' hr l hl =>
    obtain rfl : r' = r := hmessages m (by rw [hm]; exact List.mem_cons_self) r' hr
    have hstep := Lock.System.step_cases hl
    have hwork := hstep.work_le
    refine ⟨.inr ?_, fun m' hm' => hmessages m' (by rw [hm]; exact List.mem_cons_of_mem m hm'), ?_⟩
    · rcases hlock with hq | hheading
      · exact hq.heading hok hstep
      · exact hheading.userSend hok hstep
    · simp only [work, hm, List.length_cons]
      omega
  | other m rest hm hr =>
    refine ⟨hlock, fun m' hm' => hmessages m' (by rw [hm]; exact List.mem_cons_of_mem m hm'), ?_⟩
    simp only [work, hm, List.length_cons]
    omega
  | lock e he' l hl =>
    have hstep := Lock.System.step_cases hl
    rcases hlock with hq | hheading
    · exact absurd he' (hq.asked hok hstep)
    · obtain ⟨hheading', hlt⟩ := hheading.step hok he' hstep
      refine ⟨.inr hheading', hmessages, ?_⟩
      simp only [work, moved]
      omega

/-- While a message waits or the lock is at work, a step other than an arrival can be taken. -/
theorem System.progress (h : ¬ s.Quiescent) : ∃ e t, arrived [e] = [] ∧ s.step d e = some t := by
  by_cases hq : s.lock.Quiescent
  · cases hm : s.messages with
    | nil => exact absurd ⟨hm, hq⟩ h
    | cons m rest =>
      cases hr : m.request with
      | none => exact ⟨.handle, _, rfl, by simp only [step, hm, hr]; rfl⟩
      | some r =>
        cases hsend : s.lock.commandQueue.send ⟨r.command, .user⟩ with
        | none =>
          rw [Fifo.send_eq_none, hq.1] at hsend
          exact absurd hsend (by decide)
        | some q => exact ⟨.handle, _, rfl, by simp only [step, hm, hr, Lock.System.step, hsend]; rfl⟩
  · obtain ⟨e, l, he, hl⟩ := Lock.System.progress (d := d) hq
    exact ⟨.lock e, s.moved l, rfl, by rw [step_lock he, hl]; rfl⟩

/-- **Asked for one movement, the gate comes to answer that it is made.** From a gate where nothing is under way, after
messages that ask for `r` and for no other movement, any number of them at any moments: without another message at most
`946 + 73 * n` steps are left, with `n` messages waiting, there is always one to take while anything is under way, and
once nothing is, whoever asks is answered that the gate is where `r` ends. -/
theorem answers_settle (d : Lock.LockDriveState) (hold : UInt32) (es asks later : List Event) (s t u : System)
    (r : Lock.Request) (hrun : run d hold es = some s) (hq : s.Quiescent)
    (hasks : ∀ m ∈ arrived asks, ∀ r', m.request = some r' → r' = r)
    (hsome : ∃ m ∈ arrived asks, m.request = some r) (ht : Lts.exec (System.step d) s asks = some t)
    (hlater : arrived later = []) (hu : Lts.exec (System.step d) t later = some u) :
    later.length ≤ 946 + 73 * t.messages.length ∧
      (¬ u.Quiescent → ∃ e v, arrived [e] = [] ∧ u.step d e = some v) ∧
      (u.Quiescent → ∀ m : Message, m.asks = true →
        Lts.collect (System.step d) System.answer u [.arrive m, .handle] = [⟨m.mac, answered r⟩]) := by
  have hrunt : run d hold (es ++ asks) = some t := Lts.exec_append_eq_some.mpr ⟨s, hrun, ht⟩
  have hrunu : run d hold (es ++ asks ++ later) = some u := Lts.exec_append_eq_some.mpr ⟨t, hrunt, hu⟩
  have harrived : arrived (asks ++ later) = arrived asks := by
    rw [arrived, List.filterMap_append, ← arrived, ← arrived, hlater, List.append_nil]
  refine ⟨?_, System.progress, fun hquiet m hm => ?_⟩
  · obtain ⟨hmessages, hlock, -⟩ := quiescent_or_heading hrun hq hasks ht
    have hnone : Lts.Along (System.step d) (fun _ e => arrived [e] = []) t later :=
      Lts.along_of_forall fun e he _ => by
        have := List.filterMap_eq_nil_iff.mp hlater e he
        simp [arrived, this]
    have hlen := (Lts.length_add_rank_le (I := fun s => s.lock.Ok ∧ (s.lock.Quiescent ∨ s.lock.Heading r) ∧
      ∀ m ∈ s.messages, ∀ r', m.request = some r' → r' = r) System.work hu hnone
      ⟨run_ok hrunt, hlock, hmessages⟩ fun v e w hv he hstep => by
        have hcases := System.step_cases hstep
        obtain ⟨hlock', hmessages', hlt⟩ := hcases.work_lt hv.1 hv.2.1 hv.2.2 he
        exact ⟨⟨Lts.exec_invariant (I := Lock.System.Ok) hcases.lock_exec hv.1 fun _ _ _ hok hs =>
          hok.step (Lock.System.step_cases hs), hlock', hmessages'⟩, hlt⟩).2
    have hle : t.lock.work ≤ 946 := by
      rcases hlock with hquiet | hheading
      · rw [hquiet.work_eq (run_ok hrunt)]
        omega
      · exact hheading.work_le
    simp only [System.work] at hlen
    omega
  · have hheading := (quiescent_or_heading hrun hq (by rwa [harrived])
      (Lts.exec_append_eq_some.mpr ⟨t, ht, hu⟩)).2.2 hquiet.1 (by rwa [harrived])
    have hstatus : u.status = r.rest := by
      rcases run_status hrunu with hcalls | hstatus
      · rw [hquiet.2.2.2.2] at hcalls
        cases hcalls
      · rw [hstatus, hheading.status_eq hquiet.2]
    simp only [Lts.collect, System.answer, System.step, hquiet.1, List.nil_append, List.head?_cons,
      Option.toList_some, List.filter_cons, hm, if_true, Message.request_of_asks hm, hstatus]
    cases r <;> rfl

theorem answers_settle_closing :
    ∃ t u, Lts.exec (System.step Lock.lockDriveInit) (.boot 5000) [.arrive ⟨.commandCloseGate, homeNodeMac⟩] = some t ∧
      Lts.exec (System.step Lock.lockDriveInit) t [.handle, .lock .taskReceive] = some u ∧
      [Event.handle, .lock .taskReceive].length ≤ 946 + 73 * t.messages.length ∧
      (¬ u.Quiescent → ∃ e v, arrived [e] = [] ∧ u.step Lock.lockDriveInit e = some v) ∧
      (u.Quiescent → ∀ m : Message, m.asks = true →
        Lts.collect (System.step Lock.lockDriveInit) System.answer u [.arrive m, .handle] =
          [⟨m.mac, answered .motorClose⟩]) :=
  ⟨_, _, rfl, rfl, answers_settle Lock.lockDriveInit 5000 [] [.arrive ⟨.commandCloseGate, homeNodeMac⟩]
    [.handle, .lock .taskReceive] _ _ _ .motorClose rfl (by decide)
    (fun m hm r hr => by
      obtain rfl := List.mem_singleton.mp hm
      cases hr
      rfl)
    ⟨_, List.mem_singleton.mpr rfl, rfl⟩ rfl rfl rfl⟩

end GateNode.Gate
