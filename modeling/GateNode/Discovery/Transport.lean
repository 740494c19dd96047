/-
Who starts a discovery while ESP-NOW is down. The delegate task takes it down
and up again before its own start; the loop of `app_main` looks at the time
only, so it is its periodic start that can fall in between. When it does can
be told from the run alone: from the ticks the loop read, and from how far
the delegate task is in which job.
-/
import GateNode.Lib.Since
import GateNode.Discovery.System

namespace GateNode.Discovery

open History

/-! ## What is asked of a run -/

/-- If the step calls `start_discovery`, ESP-NOW is up. -/
def StartsOnTransport (before : List Event) (e : Event) : Prop :=
  ∀ s t channel, run before = some s → s.step e = some t → t.scans = s.scans ++ [channel] → s.transport = true

/-! ## What a run shows -/

/-- The tick count at the loop's last call of `start_discovery`, at first that of its wake: an iteration
calls when its reading is more than the period behind. -/
def lastCall (es : List Event) : Option UInt32 :=
  es.foldl (fun last e =>
    match e, last with
    | .mainWake ticks, _ => some ticks
    | .mainLoop ticks, some last =>
      if currentTimeMs ticks - currentTimeMs last > rediscoveryPeriodMs then some ticks else some last
    | _, last => last) none

/-- What the discoveries found, one after the other; each has a job posted. -/
def totals (es : List Event) : List UInt8 :=
  es.filterMap fun
    | .discoveryComplete total => some total
    | _ => none

def jobsReceived (es : List Event) : Nat := es.count .delegateReceive

/-- What the discovery found whose job the delegate task is at. -/
def jobTotal (es : List Event) : Option UInt8 := ((totals es).take (jobsReceived es)).getLast?

/-- How many of its calls it has made. -/
def jobCalls (es : List Event) : Nat :=
  es.foldl (fun n e =>
    match e with
    | .delegateReceive => 0
    | .delegateCall => n + 1
    | _ => n) 0

/-- The delegate task is in a restart, behind its `esp_now_transport_deinit`, the first of its calls, and
before its `esp_now_transport_init`, the sixth. -/
def InRestart (es : List Event) : Prop := jobTotal es = some 0 ∧ 1 ≤ jobCalls es ∧ jobCalls es ≤ 5

instance (es : List Event) : Decidable (InRestart es) := by unfold InRestart; infer_instance

/-- An iteration of the loop more than the period behind the last call does not come in the middle of a
restart. -/
def PeriodOutsideRestart (before : List Event) (e : Event) : Prop :=
  ∀ ticks last, e = .mainLoop ticks → lastCall before = some last →
    currentTimeMs ticks - currentTimeMs last > rediscoveryPeriodMs → ¬ InRestart before

instance (before : List Event) : ∀ e, Decidable (PeriodOutsideRestart before e)
  | .mainLoop ticks =>
    match hbefore : lastCall before with
    | none => isTrue fun _ _ _ hlast => nomatch hbefore.symm.trans hlast
    | some last =>
      decidable_of_iff (currentTimeMs ticks - currentTimeMs last > rediscoveryPeriodMs → ¬ InRestart before)
        ⟨fun h _ _ he hlast => by cases he; cases hbefore.symm.trans hlast; exact h,
          fun h => h ticks last rfl hbefore⟩
  | .discoveryComplete _ | .handlerCall | .delegateReceive | .delegateCall | .mainWake _ => isTrue nofun

variable {s t : System} {e : Event} {es : List Event}

theorem lastCall_snoc (es : List Event) (e : Event) :
    lastCall (es ++ [e]) =
      match e, lastCall es with
      | .mainWake ticks, _ => some ticks
      | .mainLoop ticks, some last =>
        if currentTimeMs ticks - currentTimeMs last > rediscoveryPeriodMs then some ticks else some last
      | _, last => last := by
  rw [lastCall, List.foldl_append]
  rfl

theorem totals_snoc (es : List Event) (e : Event) : totals (es ++ [e]) = totals es ++ totals [e] :=
  List.filterMap_append

theorem jobsReceived_snoc (es : List Event) (e : Event) :
    jobsReceived (es ++ [e]) = jobsReceived es + if e = .delegateReceive then 1 else 0 := by
  rw [jobsReceived, List.count_append, List.count_singleton, ← jobsReceived]
  simp

theorem jobCalls_snoc (es : List Event) (e : Event) :
    jobCalls (es ++ [e]) =
      match e with
      | .delegateReceive => 0
      | .delegateCall => jobCalls es + 1
      | _ => jobCalls es := by
  rw [jobCalls, List.foldl_append]
  rfl

/-! ## The loop's clock -/

/-- `previous_time` is the reading at the loop's last call. -/
theorem run_previousTime (h : run es = some s) : s.previousTime = (lastCall es).map currentTimeMs := by
  refine Lts.exec_history (I := fun es s => s.previousTime = (lastCall es).map currentTimeMs) h rfl ?_
  intro es s e t _ ih hstep
  rw [lastCall_snoc]
  cases System.step_cases hstep with
  | mainWake => rfl
  | discoveryComplete | delegatePost | guiInform | delegateReceive => exact ih
  | delegateCall c cs hc => cases c <;> exact ih
  | rediscover ticks hdue =>
    obtain ⟨previous, hprevious, hdue⟩ := hdue
    rw [ih] at hprevious
    obtain ⟨last, hlast, rfl⟩ := Option.map_eq_some_iff.mp hprevious
    simp only [hlast, if_pos hdue, Option.map_some]
  | mainLoop ticks hp hdue =>
    rw [ih, Option.isSome_map] at hp
    obtain ⟨last, hlast⟩ := Option.isSome_iff_exists.mp hp
    have hnot : ¬ currentTimeMs ticks - currentTimeMs last > rediscoveryPeriodMs :=
      fun h => hdue ⟨_, by rw [ih, hlast]; rfl, h⟩
    simp only [ih, hlast, if_neg hnot]

theorem due_iff_lastCall (h : run es = some s) {ticks : UInt32} :
    s.Due ticks ↔ ∃ last, lastCall es = some last ∧
      currentTimeMs ticks - currentTimeMs last > rediscoveryPeriodMs := by
  rw [System.Due, run_previousTime h]
  simp

/-! ## The delegate task's place -/

/-- The job is past its `esp_now_transport_deinit` and has its `esp_now_transport_init` to come. -/
def Restarting (calls : List DelegateCall) : Prop :=
  (∃ channel, .espNowTransportInit channel ∈ calls) ∧ .espNowTransportDeinit ∉ calls

/-- The jobs not yet received are those of the discoveries behind the ones whose jobs were, and the delegate
task has made the calls of its job that the run shows. -/
structure JobsOk (es : List Event) (s : System) : Prop where
  received : jobsReceived es ≤ (totals es).length
  waiting : ((totals es).drop (jobsReceived es)).map (fun total => decide (total = 0)) =
    (s.delegateQueue.items ++ s.handling.filterMap HandlerCall.job).map DelegateJob.isRestart
  idle : jobTotal es = none → s.calls = []
  current : ∀ total, jobTotal es = some total →
    ∃ job : DelegateJob, job.isRestart = decide (total = 0) ∧ s.calls = job.calls.drop (jobCalls es)

theorem JobsOk.boot : JobsOk [] .boot where
  received := Nat.le_refl 0
  waiting := rfl
  idle _ := rfl
  current _ h := by cases h

/-- A step that neither completes a discovery nor is the delegate task's. -/
theorem JobsOk.keep (h : JobsOk es s) (htotals : totals [e] = []) (hreceive : e ≠ .delegateReceive)
    (hcall : e ≠ .delegateCall) (hcalls : t.calls = s.calls)
    (hjobs : t.delegateQueue.items ++ t.handling.filterMap HandlerCall.job =
      s.delegateQueue.items ++ s.handling.filterMap HandlerCall.job) : JobsOk (es ++ [e]) t := by
  have hcount : jobsReceived (es ++ [e]) = jobsReceived es := by
    rw [jobsReceived_snoc, if_neg hreceive, Nat.add_zero]
  have htotals' : totals (es ++ [e]) = totals es := by rw [totals_snoc, htotals, List.append_nil]
  have htotal : jobTotal (es ++ [e]) = jobTotal es := by rw [jobTotal, htotals', hcount, jobTotal]
  have hmade : jobCalls (es ++ [e]) = jobCalls es := by
    rw [jobCalls_snoc]
    cases e <;> first | rfl | contradiction
  refine ⟨?_, ?_, ?_, ?_⟩
  · rw [hcount, htotals']
    exact h.received
  · rw [hcount, htotals', hjobs]
    exact h.waiting
  · rw [htotal, hcalls]
    exact h.idle
  · rw [htotal, hmade, hcalls]
    exact h.current

theorem JobsOk.complete (h : JobsOk es s) (total : UInt8) (hh : s.handling = []) :
    JobsOk (es ++ [.discoveryComplete total])
      { s with
        channel := (routineDiscoveryEventsHandler s.channel total).1
        handling := (routineDiscoveryEventsHandler s.channel total).2
        scans := s.scans.tail } := by
  have hcount : jobsReceived (es ++ [.discoveryComplete total]) = jobsReceived es := jobsReceived_snoc es _
  have htotals : totals (es ++ [.discoveryComplete total]) = totals es ++ [total] := totals_snoc es _
  have htotal : jobTotal (es ++ [.discoveryComplete total]) = jobTotal es := by
    rw [jobTotal, htotals, hcount, List.take_append_of_le_length h.received, jobTotal]
  have hmade : jobCalls (es ++ [.discoveryComplete total]) = jobCalls es := jobCalls_snoc es _
  have hjobs : ((routineDiscoveryEventsHandler s.channel total).2.filterMap HandlerCall.job).map
      DelegateJob.isRestart = [decide (total = 0)] := by
    unfold routineDiscoveryEventsHandler
    by_cases h0 : total = 0 <;> simp [h0, HandlerCall.job, DelegateJob.isRestart]
  have hwaiting := h.waiting
  rw [hh, List.filterMap_nil, List.append_nil] at hwaiting
  refine ⟨?_, ?_, ?_, ?_⟩
  · rw [hcount, htotals, List.length_append]
    exact Nat.le_add_right_of_le h.received
  · rw [hcount, htotals, List.drop_append_of_le_length h.received, List.map_append, hwaiting, List.map_append, hjobs]
    rfl
  · rw [htotal]
    exact h.idle
  · rw [htotal, hmade]
    exact h.current

theorem JobsOk.receive (h : JobsOk es s) (job : DelegateJob) (q : Fifo DelegateJob delegateQueueLength)
    (hq : s.delegateQueue.items = job :: q.items) :
    JobsOk (es ++ [.delegateReceive]) { s with calls := job.calls, delegateQueue := q } := by
  have hcount : jobsReceived (es ++ [.delegateReceive]) = jobsReceived es + 1 := jobsReceived_snoc es _
  have htotals : totals (es ++ [.delegateReceive]) = totals es := by simp [totals]
  have hwaiting := h.waiting
  rw [hq, List.cons_append, List.map_cons] at hwaiting
  -- The oldest of those waiting is the job received.
  cases hdrop : (totals es).drop (jobsReceived es) with
  | nil => rw [hdrop] at hwaiting; cases hwaiting
  | cons total rest =>
    rw [hdrop, List.map_cons, List.cons.injEq] at hwaiting
    obtain ⟨hjob, hrest⟩ := hwaiting
    have hget : (totals es)[jobsReceived es]? = some total := by
      rw [← List.head?_drop, hdrop, List.head?_cons]
    have hlt : jobsReceived es < (totals es).length := (List.getElem?_eq_some_iff.mp hget).1
    have htotal : jobTotal (es ++ [.delegateReceive]) = some total := by
      rw [jobTotal, hcount, htotals, List.take_add_one, hget, Option.toList_some, List.getLast?_concat]
    refine ⟨?_, ?_, ?_, ?_⟩
    · rw [hcount, htotals]
      exact hlt
    · rw [hcount, htotals, ← List.tail_drop, hdrop, List.tail_cons]
      exact hrest
    · rw [htotal]
      exact nofun
    · rw [htotal]
      rintro _ ⟨⟩
      refine ⟨job, hjob.symm, ?_⟩
      rw [jobCalls_snoc, List.drop_zero]

theorem JobsOk.call (h : JobsOk es s) (c : DelegateCall) (cs : List DelegateCall) (hc : s.calls = c :: cs) :
    JobsOk (es ++ [.delegateCall]) { c.apply s with calls := cs } := by
  have hcount : jobsReceived (es ++ [.delegateCall]) = jobsReceived es := jobsReceived_snoc es _
  have htotals : totals (es ++ [.delegateCall]) = totals es := by simp [totals]
  have htotal : jobTotal (es ++ [.delegateCall]) = jobTotal es := by rw [jobTotal, htotals, hcount, jobTotal]
  have hframe : (c.apply s).delegateQueue = s.delegateQueue ∧ (c.apply s).handling = s.handling := by
    cases c <;> exact ⟨rfl, rfl⟩
  refine ⟨?_, ?_, ?_, ?_⟩
  · rw [hcount, htotals]
    exact h.received
  · rw [hcount, htotals, hframe.1, hframe.2]
    exact h.waiting
  · rw [htotal]
    intro hnone
    rw [h.idle hnone] at hc
    cases hc
  · rw [htotal]
    intro total hsome
    obtain ⟨job, hjob, hcalls⟩ := h.current total hsome
    refine ⟨job, hjob, ?_⟩
    rw [jobCalls_snoc, ← List.tail_drop, ← hcalls, hc, List.tail_cons]

theorem run_jobsOk (h : run es = some s) : JobsOk es s := by
  refine Lts.exec_history (I := JobsOk) h .boot ?_
  intro es s e t _ ih hstep
  cases System.step_cases hstep with
  | discoveryComplete total hh => exact ih.complete total hh
  | delegatePost job rest q hh hq =>
    refine ih.keep rfl nofun nofun rfl ?_
    rw [hq, hh, List.append_assoc]
    rfl
  | guiInform event rest hh =>
    refine ih.keep rfl nofun nofun rfl ?_
    rw [hh]
    rfl
  | delegateReceive job q hc hq => exact ih.receive job q hq
  | delegateCall c cs hc => exact ih.call c cs hc
  | mainWake | rediscover | mainLoop => exact ih.keep rfl nofun nofun rfl rfl

theorem not_restarting_nil : ¬ Restarting [] := by simp [Restarting]

theorem restarting_drop (job : DelegateJob) (n : Nat) :
    Restarting (job.calls.drop n) ↔ job.isRestart = true ∧ 1 ≤ n ∧ n ≤ 5 := by
  cases job with
  | restartDiscoveryOnNewChannel channel =>
    match n with
    | 0 | 1 | 2 | 3 | 4 | 5 | 6 => simp [Restarting, DelegateJob.calls, DelegateJob.isRestart]
    | n + 7 => simp [Restarting, DelegateJob.calls, DelegateJob.isRestart]
  | restartWifiApsta channel =>
    refine iff_of_false ?_ (by simp [DelegateJob.isRestart])
    rintro ⟨⟨c, hmem⟩, -⟩
    have := List.mem_of_mem_drop hmem
    simp [DelegateJob.calls] at this

/-- The delegate task is in the middle of a restart exactly when the run shows it there. -/
theorem restarting_iff (h : run es = some s) : Restarting s.calls ↔ InRestart es := by
  have hjobs := run_jobsOk h
  unfold InRestart
  cases htotal : jobTotal es with
  | none =>
    rw [hjobs.idle htotal]
    exact iff_of_false not_restarting_nil nofun
  | some total =>
    obtain ⟨job, hjob, hcalls⟩ := hjobs.current total htotal
    rw [hcalls, restarting_drop, hjob]
    simp

/-! ## ESP-NOW -/

/-- The delegate task is in a job, and ESP-NOW is down in the middle of a restart only. -/
structure System.TransportOk (s : System) : Prop where
  job : ∃ job : DelegateJob, s.calls <:+ job.calls
  transport : s.transport = false ↔ Restarting s.calls

theorem not_restarting_calls (job : DelegateJob) : ¬ Restarting job.calls := by
  cases job <;> simp [Restarting, DelegateJob.calls]

/-- The calls of a job, taken one by one, keep the transport as the rest of the job says. -/
theorem restarting_call {job : DelegateJob} {c : DelegateCall} {cs : List DelegateCall} {s : System}
    (h : c :: cs <:+ job.calls) (hs : s.transport = false ↔ Restarting (c :: cs)) :
    (c.apply s).transport = false ↔ Restarting cs := by
  cases job with
  | restartDiscoveryOnNewChannel channel =>
    simp only [DelegateJob.calls, List.suffix_cons_iff, List.suffix_nil, List.cons.injEq, reduceCtorEq,
      or_false] at h
    rcases h with ⟨rfl, rfl⟩ | ⟨rfl, rfl⟩ | ⟨rfl, rfl⟩ | ⟨rfl, rfl⟩ | ⟨rfl, rfl⟩ | ⟨rfl, rfl⟩ | ⟨rfl, rfl⟩ <;>
      simp_all [Restarting, DelegateCall.apply]
  | restartWifiApsta channel =>
    simp only [DelegateJob.calls, List.suffix_cons_iff, List.suffix_nil, List.cons.injEq, reduceCtorEq,
      or_false] at h
    rcases h with ⟨rfl, rfl⟩ | ⟨rfl, rfl⟩ | ⟨rfl, rfl⟩ | ⟨rfl, rfl⟩ <;>
      simp_all [Restarting, DelegateCall.apply]

theorem System.TransportOk.boot : System.boot.TransportOk where
  job := ⟨.restartWifiApsta 0, List.nil_suffix⟩
  transport := iff_of_false nofun not_restarting_nil

theorem System.TransportOk.step (h : s.TransportOk) (hs : s.Step e t) : t.TransportOk := by
  cases hs with
  | delegateReceive job q hc hq =>
    refine ⟨⟨job, List.suffix_rfl⟩, iff_of_false ?_ (not_restarting_calls job)⟩
    intro hdown
    have hrest := h.transport.mp hdown
    rw [hc] at hrest
    exact not_restarting_nil hrest
  | delegateCall c cs hc =>
    obtain ⟨job, hjob⟩ := h.job
    have htransport := h.transport
    rw [hc] at hjob htransport
    exact ⟨⟨job, (List.suffix_cons c cs).trans hjob⟩, restarting_call hjob htransport⟩
  | _ => exact ⟨h.job, h.transport⟩

theorem run_transportOk (h : run es = some s) : s.TransportOk :=
  Lts.exec_invariant h .boot fun _ _ _ ht hstep => ht.step (System.step_cases hstep)

theorem run_transport (h : run es = some s) : s.transport = true ↔ ¬ InRestart es := by
  rw [← Bool.not_eq_false, (run_transportOk h).transport, restarting_iff h]

/-- The start at the end of a job finds ESP-NOW up. -/
theorem System.TransportOk.start (h : s.TransportOk) {cs : List DelegateCall} (hc : s.calls = .startDiscovery :: cs) :
    s.transport = true := by
  obtain ⟨job, hjob⟩ := h.job
  rw [hc] at hjob
  have hcs : cs = [] := by
    cases job with
    | restartDiscoveryOnNewChannel channel => simpa [DelegateJob.calls, List.suffix_cons_iff] using hjob
    | restartWifiApsta channel => simp [DelegateJob.calls, List.suffix_cons_iff] at hjob
  have hrest : ¬ Restarting s.calls := by
    rw [hc, hcs]
    simp [Restarting]
  rw [← Bool.not_eq_false, h.transport]
  exact hrest

/-! ## The run -/

/-- Who starts a discovery: the loop, when its period is over, or the job of a restart at its end. -/
theorem System.Step.starts {channel : UInt8} (h : s.Step e t) (ht : t.scans = s.scans ++ [channel]) :
    (∃ ticks, e = .mainLoop ticks ∧ s.Due ticks) ∨ ∃ cs, s.calls = .startDiscovery :: cs := by
  cases h with
  | rediscover ticks hdue => exact .inl ⟨ticks, rfl, hdue⟩
  | discoveryComplete total =>
    have hlen := congrArg List.length ht
    simp only [List.length_tail, List.length_append, List.length_singleton] at hlen
    omega
  | delegateCall c cs hc =>
    cases c with
    | startDiscovery => exact .inr ⟨cs, hc⟩
    | _ => simp [DelegateCall.apply] at ht
  | _ => simp at ht

/-- A period is over, the discovery the loop starts finds nothing, and its restart is at the first delay. -/
def restartBegun : List Event :=
  [.discoveryComplete 1, .handlerCall, .handlerCall, .delegateReceive, .delegateCall, .delegateCall, .delegateCall,
    .delegateCall, .mainWake 1000, .mainLoop 101020, .discoveryComplete 0, .handlerCall, .delegateReceive,
    .delegateCall]

end GateNode.Discovery
