/-
The scan of the channels as the delegate task carries it out. A job is posted
with the address of the handler's static and copied at the post, so what is
run later is the channel of then; jobs run in the order posted; and the
static goes around 1..13 by one channel a failure.
-/
import GateNode.Discovery.Channel
import GateNode.Discovery.SoftAp
import GateNode.Lib.Dotted

namespace GateNode.Discovery

/-- The job, of its kind, with the argument `channel`. -/
def DelegateJob.onChannel (channel : UInt8) : DelegateJob → DelegateJob
  | .restartDiscoveryOnNewChannel _ => .restartDiscoveryOnNewChannel channel
  | .restartWifiApsta _ => .restartWifiApsta channel

def DelegateJob.restartChannel : DelegateJob → Option UInt8
  | .restartDiscoveryOnNewChannel channel => some channel
  | .restartWifiApsta _ => none

/-- The job a step posts, with the value the static has at that step. -/
def System.posts (s : System) : Event → List DelegateJob
  | .handlerCall =>
    match s.handling with
    | .delegatePost job :: _ => [job.onChannel s.channel]
    | _ => []
  | _ => []

/-- The job a step starts to run. -/
def System.executes (s : System) : Event → List DelegateJob
  | .delegateReceive => s.delegateQueue.items.take 1
  | _ => []

/-- The call of the delegate task a step makes. -/
def System.makes (s : System) : Event → List DelegateCall
  | .delegateCall => s.calls.take 1
  | _ => []

def posted (es : List Event) : List DelegateJob := Lts.collect System.step System.posts .boot es

def executed (es : List Event) : List DelegateJob := Lts.collect System.step System.executes .boot es

def callsMade (es : List Event) : List DelegateCall := Lts.collect System.step System.makes .boot es

/-- The channels of the restarts run. -/
def restarts (es : List Event) : List UInt8 := (executed es).filterMap DelegateJob.restartChannel

/-- The channels of the restarts a state has still to run. -/
def System.pendingRestarts (s : System) : List UInt8 :=
  (s.delegateQueue.items ++ s.handling.filterMap HandlerCall.job).filterMap DelegateJob.restartChannel

/-- How many discoveries have found nothing. -/
def failures (es : List Event) : Nat := es.count (.discoveryComplete 0)

/-- The channel the failure behind `n` others leads to. -/
def scanChannel (n : Nat) : UInt8 := nextChannel^[n + 1] 0

/-! ## The channels -/

theorem nextChannel_ofNat (n : Nat) : nextChannel (UInt8.ofNat (n % 13 + 1)) = UInt8.ofNat ((n + 1) % 13 + 1) := by
  have hlt : n % 13 < 13 := Nat.mod_lt n (by decide)
  have hstep : (n + 1) % 13 = (n % 13 + 1) % 13 := by omega
  rw [hstep]
  generalize n % 13 = k at hlt
  decide +revert

theorem scanChannel_eq (n : Nat) : scanChannel n = UInt8.ofNat (n % 13 + 1) := by
  induction n with
  | zero => rfl
  | succ n ih =>
    rw [scanChannel, Function.iterate_succ_apply']
    rw [scanChannel] at ih
    rw [ih, nextChannel_ofNat]

theorem toNat_scanChannel (n : Nat) : (scanChannel n).toNat = n % 13 + 1 := by
  rw [scanChannel_eq, UInt8.toNat_ofNat', Nat.mod_eq_of_lt]
  omega

theorem scanChannel_bounds (n : Nat) : 1 ≤ scanChannel n ∧ scanChannel n ≤ maxWifiChannel := by
  have h := toNat_scanChannel n
  rw [UInt8.le_iff_toNat_le, UInt8.le_iff_toNat_le]
  show 1 ≤ (scanChannel n).toNat ∧ (scanChannel n).toNat ≤ 13
  omega

/-- Up to thirteen failures in a row go to as many channels. -/
theorem nodup_scanChannel (n : Nat) {k : Nat} (hk : k ≤ 13) : ((List.range' n k).map scanChannel).Nodup := by
  rw [List.Nodup, List.pairwise_map]
  refine List.Pairwise.imp_of_mem ?_ List.pairwise_lt_range'
  intro i j hi hj hlt heq
  have hi' := toNat_scanChannel i
  have hj' := toNat_scanChannel j
  rw [heq] at hi'
  rw [List.mem_range'_1] at hi hj
  omega

/-- The decimal text of a channel of the scan fills at most the three bytes of `channel_string`, NUL included. -/
theorem length_decimal_scanChannel (n : Nat) : (Dotted.decimal (scanChannel n).toNat ++ [0]).length ≤ 3 := by
  have hle : (scanChannel n).toNat ≤ 13 := by
    rw [toNat_scanChannel]
    omega
  have hlen : (Dotted.decimal 13).length = 2 := by decide +kernel
  have := Dotted.length_decimal_le hle
  simp only [List.length_append, List.length_singleton]
  omega

/-! ## Runs -/

theorem failures_snoc (es : List Event) (e : Event) :
    failures (es ++ [e]) = failures es + if e = .discoveryComplete 0 then 1 else 0 := by
  rw [failures, List.count_append, List.count_singleton, ← failures]
  simp

/-- What a run has posted and executed, and where its scan is. -/
structure Scanned (es : List Event) (s : System) : Prop where
  channel : s.channel = nextChannel^[failures es] 0
  current : ∀ job, .delegatePost job ∈ s.handling → job.onChannel s.channel = job
  order : executed es ++ s.delegateQueue.items = posted es
  scan : (posted es ++ s.handling.filterMap HandlerCall.job).filterMap DelegateJob.restartChannel =
    (List.range (failures es)).map scanChannel
  calls : callsMade es ++ s.calls = (executed es).flatMap DelegateJob.calls

theorem Scanned.boot : Scanned [] .boot where
  channel := rfl
  current := nofun
  order := rfl
  scan := rfl
  calls := rfl

theorem handler_jobs (channel total : UInt8) :
    (∀ job, .delegatePost job ∈ (routineDiscoveryEventsHandler channel total).2 →
        job.onChannel (routineDiscoveryEventsHandler channel total).1 = job) ∧
      ((routineDiscoveryEventsHandler channel total).2.filterMap HandlerCall.job).filterMap
        DelegateJob.restartChannel = if total = 0 then [nextChannel channel] else [] := by
  unfold routineDiscoveryEventsHandler
  by_cases h : total = 0
  · simp only [h, if_true]
    refine ⟨fun job hjob => ?_, rfl⟩
    rw [List.mem_singleton] at hjob
    cases hjob
    rfl
  · simp only [h, if_false]
    refine ⟨fun job hjob => ?_, rfl⟩
    rw [List.mem_cons, List.mem_singleton] at hjob
    rcases hjob with hjob | hjob
    · cases hjob
      rfl
    · cases hjob

/-- A step that is no completion and leaves the posts to come alone keeps the scan. -/
theorem Scanned.snoc {es : List Event} {s t : System} {e : Event} (h : Scanned es s) (hrun : run es = some s)
    (he : e ≠ .discoveryComplete 0) (hchannel : t.channel = s.channel)
    (hhandling : ∀ c ∈ t.handling, c ∈ s.handling)
    (hqueue : s.executes e ++ t.delegateQueue.items = s.delegateQueue.items ++ s.posts e)
    (hposts : s.posts e ++ t.handling.filterMap HandlerCall.job = s.handling.filterMap HandlerCall.job)
    (hcalls : s.makes e ++ t.calls = s.calls ++ (s.executes e).flatMap DelegateJob.calls) :
    Scanned (es ++ [e]) t := by
  have hfail : failures (es ++ [e]) = failures es := by rw [failures_snoc, if_neg he, Nat.add_zero]
  have hposted : posted (es ++ [e]) = posted es ++ s.posts e := Lts.collect_snoc hrun
  have hexecuted : executed (es ++ [e]) = executed es ++ s.executes e := Lts.collect_snoc hrun
  have hmade : callsMade (es ++ [e]) = callsMade es ++ s.makes e := Lts.collect_snoc hrun
  constructor
  · rw [hfail, hchannel, h.channel]
  · intro job hjob
    rw [hchannel]
    exact h.current job (hhandling _ hjob)
  · rw [hposted, hexecuted, List.append_assoc, hqueue, ← List.append_assoc, h.order]
  · rw [hposted, hfail, List.append_assoc, hposts, h.scan]
  · rw [hmade, hexecuted, List.flatMap_append, List.append_assoc, hcalls, ← List.append_assoc, h.calls]

theorem Scanned.step {es : List Event} {s t : System} {e : Event} (h : Scanned es s) (hrun : run es = some s)
    (hs : s.Step e t) : Scanned (es ++ [e]) t := by
  cases hs with
  | discoveryComplete total hh =>
    obtain ⟨hcurrent, hjobs⟩ := handler_jobs s.channel total
    have hposted : posted (es ++ [.discoveryComplete total]) = posted es :=
      (Lts.collect_snoc hrun).trans (List.append_nil _)
    have hexecuted : executed (es ++ [.discoveryComplete total]) = executed es :=
      (Lts.collect_snoc hrun).trans (List.append_nil _)
    have hmade : callsMade (es ++ [.discoveryComplete total]) = callsMade es :=
      (Lts.collect_snoc hrun).trans (List.append_nil _)
    have hscan := h.scan
    rw [hh, List.filterMap_nil, List.append_nil] at hscan
    refine ⟨?_, hcurrent, by rw [hposted, hexecuted]; exact h.order, ?_, by rw [hmade, hexecuted]; exact h.calls⟩
    · rw [failures_snoc]
      by_cases h0 : total = 0
      · subst h0
        rw [if_pos rfl, Function.iterate_succ_apply', ← h.channel]
        rfl
      · have hne : Event.discoveryComplete total ≠ .discoveryComplete 0 := fun he => h0 (Event.discoveryComplete.inj he)
        rw [if_neg hne, Nat.add_zero, ← h.channel, routineDiscoveryEventsHandler, if_neg h0]
    · show (posted _ ++ (routineDiscoveryEventsHandler s.channel total).2.filterMap HandlerCall.job).filterMap _ = _
      rw [hposted, List.filterMap_append, hscan, hjobs, failures_snoc]
      by_cases h0 : total = 0
      · subst h0
        rw [if_pos rfl, if_pos rfl, List.range_succ, List.map_append, List.map_singleton, scanChannel,
          Function.iterate_succ_apply', ← h.channel]
      · have hne : Event.discoveryComplete total ≠ .discoveryComplete 0 := fun he => h0 (Event.discoveryComplete.inj he)
        rw [if_neg h0, if_neg hne, List.append_nil, Nat.add_zero]
  | delegatePost job rest q hh hq =>
    have hcurrent := h.current job (by rw [hh]; exact List.mem_cons_self)
    have hposts : s.posts .handlerCall = [job] := by simp only [System.posts, hh, hcurrent]
    refine h.snoc hrun (by simp) rfl (fun c hc => by rw [hh]; exact List.mem_cons_of_mem _ hc) ?_ ?_ ?_
    · rw [hposts]
      exact hq
    · rw [hposts, hh]
      rfl
    · exact (List.append_nil _).symm
  | guiInform event rest hh =>
    have hposts : s.posts .handlerCall = [] := by simp only [System.posts, hh]
    refine h.snoc hrun (by simp) rfl (fun c hc => by rw [hh]; exact List.mem_cons_of_mem _ hc) ?_ ?_ ?_
    · rw [hposts]
      exact (List.append_nil _).symm
    · rw [hposts, hh]
      rfl
    · exact (List.append_nil _).symm
  | delegateReceive job q hc hq =>
    have hexec : s.executes .delegateReceive = [job] := by
      show s.delegateQueue.items.take 1 = [job]
      rw [hq]
      rfl
    refine h.snoc hrun (by simp) rfl (fun c hc => hc) ?_ rfl ?_
    · rw [hexec, hq]
      exact (List.append_nil _).symm
    · rw [hexec, hc]
      exact (List.append_nil _).symm
  | delegateCall c cs hc =>
    have hframe : (c.apply s).handling = s.handling ∧ (c.apply s).delegateQueue = s.delegateQueue ∧
        (c.apply s).channel = s.channel := by
      cases c <;> exact ⟨rfl, rfl, rfl⟩
    obtain ⟨hhandling, hqueue, hchannel⟩ := hframe
    refine h.snoc hrun (by simp) hchannel (fun d hd => hhandling ▸ hd) ?_ ?_ ?_
    · show (c.apply s).delegateQueue.items = _
      rw [hqueue]
      exact (List.append_nil _).symm
    · show (c.apply s).handling.filterMap HandlerCall.job = _
      rw [hhandling]
    · show s.calls.take 1 ++ cs = s.calls ++ []
      rw [hc]
      exact (List.append_nil _).symm
  | mainWake | rediscover | mainLoop =>
    refine h.snoc hrun (by simp) rfl (fun c hc => hc) ?_ rfl ?_
    · exact (List.append_nil _).symm
    · exact (List.append_nil _).symm

theorem scanned_run {es : List Event} {s : System} (h : run es = some s) : Scanned es s :=
  Lts.exec_history (I := Scanned) h .boot fun _ _ _ _ ht hes hstep => hes.step ht (System.step_cases hstep)

theorem Scanned.restarts {es : List Event} {s : System} (h : Scanned es s) :
    restarts es ++ s.pendingRestarts = (List.range (failures es)).map scanChannel := by
  rw [← h.scan, Discovery.restarts, System.pendingRestarts, ← List.filterMap_append, ← List.append_assoc, h.order]

theorem System.pendingRestarts_eq_nil {s : System} (h : s.work = 0) : s.pendingRestarts = [] := by
  obtain ⟨hh, hq, -⟩ := empty_of_work_eq_zero h
  rw [pendingRestarts, hh, hq]
  rfl

/-- A stretch of the failures' channels no longer than the cycle repeats none. -/
theorem nodup_window {k : Nat} {before window after : List UInt8}
    (h : (List.range k).map scanChannel = before ++ window ++ after) (hlen : window.length ≤ 13) : window.Nodup := by
  have hk : before.length + window.length + after.length = k := by
    have := congrArg List.length h
    simp only [List.length_map, List.length_range, List.length_append] at this
    omega
  have hwindow : window = (List.range' before.length window.length).map scanChannel := by
    have hdrop := congrArg (fun l => (l.drop before.length).take window.length) h
    simp only [List.append_assoc, List.drop_left, List.take_left] at hdrop
    refine hdrop.symm.trans ?_
    rw [← List.map_drop, ← List.map_take, List.range_eq_range', List.drop_range',
      List.take_range'_of_length_ge (by omega), Nat.mul_one, Nat.zero_add]
  rw [hwindow]
  exact nodup_scanChannel before.length hlen

/-- **The channel scan is fair and stays in range**, whatever the order of the steps. Jobs are run in the order
posted, each with the static's value at its post, and are run call by call. The restarts are those of the failures
so far, one each, in order; every one is on a channel whose text fits, and no thirteen in a row meet twice on one.
With nothing left to do every failure has had its restart, and there is always a way there. -/
theorem channel_scan_fair (es : List Event) (s : System) (h : run es = some s) :
    executed es ++ s.delegateQueue.items = posted es ∧
      callsMade es ++ s.calls = (executed es).flatMap DelegateJob.calls ∧
      restarts es ++ s.pendingRestarts = (List.range (failures es)).map scanChannel ∧
      (∀ channel ∈ restarts es ++ s.pendingRestarts,
        1 ≤ channel ∧ channel ≤ maxWifiChannel ∧ (Dotted.decimal channel.toNat ++ [0]).length ≤ 3) ∧
      (∀ before window after, restarts es ++ s.pendingRestarts = before ++ window ++ after →
        window.length ≤ 13 → window.Nodup) ∧
      (s.work = 0 → s.pendingRestarts = []) ∧
      ∃ es' t, run (es ++ es') = some t ∧ t.work = 0 := by
  have hs := scanned_run h
  refine ⟨hs.order, hs.calls, hs.restarts, ?_, ?_, System.pendingRestarts_eq_nil, ?_⟩
  · intro channel hc
    rw [hs.restarts] at hc
    obtain ⟨n, -, rfl⟩ := List.mem_map.mp hc
    exact ⟨(scanChannel_bounds n).1, (scanChannel_bounds n).2, length_decimal_scanChannel n⟩
  · intro before window after heq hlen
    rw [hs.restarts] at heq
    exact nodup_window heq hlen
  · obtain ⟨es', t, ht, -, hdone⟩ := s.drain
    exact ⟨es', t, Lts.exec_append_eq_some.mpr ⟨s, h, ht⟩, hdone⟩

/-- The second failure moves the static on while the first restart waits. -/
def overtaken : List Event :=
  [.discoveryComplete 0, .handlerCall, .discoveryComplete 0, .handlerCall, .delegateReceive]

theorem channel_scan_fair_overtaken :
    ∃ s, run overtaken = some s ∧ s.channel = 2 ∧ restarts overtaken = [1] ∧
      (executed overtaken ++ s.delegateQueue.items = posted overtaken ∧
        callsMade overtaken ++ s.calls = (executed overtaken).flatMap DelegateJob.calls ∧
        restarts overtaken ++ s.pendingRestarts = (List.range (failures overtaken)).map scanChannel ∧
        (∀ channel ∈ restarts overtaken ++ s.pendingRestarts,
          1 ≤ channel ∧ channel ≤ maxWifiChannel ∧ (Dotted.decimal channel.toNat ++ [0]).length ≤ 3) ∧
        (∀ before window after, restarts overtaken ++ s.pendingRestarts = before ++ window ++ after →
          window.length ≤ 13 → window.Nodup) ∧
        (s.work = 0 → s.pendingRestarts = []) ∧
        ∃ es' t, run (overtaken ++ es') = some t ∧ t.work = 0) :=
  ⟨_, rfl, rfl, rfl, channel_scan_fair overtaken _ rfl⟩

end GateNode.Discovery
