/-
The searches for the home node. A search that fails is started anew on the
next channel, by way of the handler, the delegate queue and the delegate task;
none is dropped on the way and none is doubled. Only a find ends one, and only
the loop of `app_main` adds one.
-/
import GateNode.Lib.Rank
import GateNode.Discovery.Channel
import GateNode.Discovery.SoftAp

namespace GateNode.Discovery

open Lts

def HandlerCall.postsRestart : HandlerCall → Bool
  | .delegatePost job => job.isRestart
  | .guiInform _ => false

def DelegateCall.isStart : DelegateCall → Bool
  | .startDiscovery => true
  | _ => false

/-- The searches under way, and those about to be started anew. -/
def System.searches (s : System) : Nat :=
  s.scans.length + s.handling.countP HandlerCall.postsRestart + s.delegateQueue.items.countP DelegateJob.isRestart +
    s.calls.countP DelegateCall.isStart

/-- The step ends a search that found something. -/
def System.found (_ : System) : Event → List Unit
  | .discoveryComplete total => if total = 0 then [] else [()]
  | _ => []

instance (s : System) (ticks : UInt32) : Decidable (s.Due ticks) :=
  decidable_of_iff (s.previousTime.any fun p => currentTimeMs ticks - p > rediscoveryPeriodMs) (by
    cases h : s.previousTime <;> simp [System.Due, h])

/-- The loop of `app_main` starts one. -/
def System.rediscovers (s : System) : Event → List Unit
  | .mainLoop ticks => if s.Due ticks then [()] else []
  | _ => []

/-- A step of the event loop or of the delegate task. -/
def Event.Own : Event → Prop
  | .handlerCall | .delegateReceive | .delegateCall => True
  | .discoveryComplete _ | .mainWake _ | .mainLoop _ => False

variable {s t : System} {e : Event} {es : List Event}

/-! ## One step -/

theorem countP_isStart (job : DelegateJob) : job.calls.countP DelegateCall.isStart = job.isRestart.toNat := by
  cases job <;> rfl

theorem countP_postsRestart (channel total : UInt8) :
    (routineDiscoveryEventsHandler channel total).2.countP HandlerCall.postsRestart = if total = 0 then 1 else 0 := by
  unfold routineDiscoveryEventsHandler
  split <;> rfl

/-- A call leaves the handler and the queue alone, and the start at the end of a restart is a search. -/
theorem searches_call (c : DelegateCall) :
    (c.apply s).handling = s.handling ∧ (c.apply s).delegateQueue = s.delegateQueue ∧
      (c.apply s).scans.length = s.scans.length + c.isStart.toNat := by
  cases c <;> simp [DelegateCall.apply, DelegateCall.isStart]

/-- **No step loses or doubles a search**, as long as each completes once. -/
theorem System.Step.searches (h : s.Step e t) (hone : s.Completes e) :
    t.searches + (s.found e).length = s.searches + (s.rediscovers e).length := by
  unfold System.searches
  cases h with
  | discoveryComplete total hh =>
    have hscans : 0 < s.scans.length := List.length_pos_iff.mpr hone
    simp only [System.found, System.rediscovers, countP_postsRestart, hh, List.length_tail, List.countP_nil]
    split <;> simp <;> omega
  | delegatePost job rest q hh hq =>
    have hpost : (HandlerCall.delegatePost job :: rest).countP HandlerCall.postsRestart =
        rest.countP HandlerCall.postsRestart + job.isRestart.toNat := by
      cases job <;> simp [List.countP_cons, HandlerCall.postsRestart, DelegateJob.isRestart]
    have hqueue : q.items.countP DelegateJob.isRestart =
        s.delegateQueue.items.countP DelegateJob.isRestart + job.isRestart.toNat := by
      rw [hq, List.countP_append]
      cases job <;> simp [DelegateJob.isRestart]
    simp only [System.found, System.rediscovers, hh, hpost, hqueue]
    omega
  | guiInform event rest hh =>
    have hpost : (HandlerCall.guiInform event :: rest).countP HandlerCall.postsRestart =
        rest.countP HandlerCall.postsRestart := by simp [HandlerCall.postsRestart]
    simp only [System.found, System.rediscovers, hh, hpost]
  | delegateReceive job q hc hq =>
    have hqueue : s.delegateQueue.items.countP DelegateJob.isRestart =
        q.items.countP DelegateJob.isRestart + job.isRestart.toNat := by
      rw [hq]
      cases job <;> simp [List.countP_cons, DelegateJob.isRestart]
    simp only [System.found, System.rediscovers, hc, hqueue, countP_isStart, List.countP_nil]
    omega
  | delegateCall c cs hc =>
    obtain ⟨hhandling, hqueue, hscans⟩ := searches_call (s := s) c
    have hcalls : (c :: cs).countP DelegateCall.isStart = cs.countP DelegateCall.isStart + c.isStart.toNat := by
      cases c <;> simp [List.countP_cons, DelegateCall.isStart]
    simp only [System.found, System.rediscovers, hc, hhandling, hqueue, hscans, hcalls]
    omega
  | mainWake => rfl
  | rediscover ticks hdue =>
    simp only [System.found, System.rediscovers, if_pos hdue, List.length_append, List.length_singleton,
      List.length_nil]
    omega
  | mainLoop ticks hp hdue => simp only [System.found, System.rediscovers, if_neg hdue]

/-- By their own steps the event loop and the delegate task come nearer to the end of what they have to do, and by no
others. -/
theorem System.Step.work_lt_iff (h : s.Step e t) : t.work < s.work ↔ e.Own := by
  cases h with
  | discoveryComplete total hh =>
    refine iff_of_false ?_ id
    simp only [work, hh, List.length_nil]
    omega
  | mainWake | rediscover | mainLoop => exact iff_of_false (Nat.lt_irrefl _) id
  | delegatePost job rest q hh hq =>
    refine iff_of_true ?_ trivial
    have hlen : job.calls.length ≤ 7 := by cases job <;> simp [DelegateJob.calls]
    simp only [work, hh, hq, List.map_append, List.sum_append, List.map_cons, List.map_nil, List.sum_cons, List.sum_nil,
      List.length_cons]
    omega
  | guiInform event rest hh =>
    refine iff_of_true ?_ trivial
    simp only [work, hh, List.length_cons]
    omega
  | delegateReceive job q hc hq =>
    refine iff_of_true ?_ trivial
    simp only [work, hc, hq, List.map_cons, List.sum_cons, List.length_nil]
    omega
  | delegateCall c cs hc =>
    refine iff_of_true ?_ trivial
    obtain ⟨hhandling, hqueue, -⟩ := searches_call (s := s) c
    simp only [work, hc, hhandling, hqueue, List.length_cons]
    omega

/-! ## Runs -/

/-- **Searches are conserved**: at every moment those under way or about to be started anew, and those that found
something, are the one of the boot and those the loop of `app_main` started. -/
theorem searches_conserved (es : List Event) (s : System) (hrun : run es = some s)
    (hone : Along System.step System.Completes .boot es) :
    s.searches + (collect System.step System.found .boot es).length =
      1 + (collect System.step System.rediscovers .boot es).length :=
  (balance (I := fun _ => True) System.searches hrun hone trivial fun _ _ _ _ he hstep =>
    ⟨trivial, (System.step_cases hstep).searches he⟩).2

/-- A rediscovery that fails, and one that does not. -/
def rediscoveryEvents : List Event :=
  foundOnce ++ [.mainWake 1000, .mainLoop 101020, .discoveryComplete 0, .handlerCall]

theorem searches_conserved_rediscovery :
    ∃ s, run rediscoveryEvents = some s ∧ s.searches = 1 ∧
      s.searches + (collect System.step System.found .boot rediscoveryEvents).length =
        1 + (collect System.step System.rediscovers .boot rediscoveryEvents).length :=
  ⟨_, rfl, by decide, searches_conserved rediscoveryEvents _ rfl (by decide +kernel)⟩

/-- Where the search stands before its first find. -/
theorem System.Scanning.search {failed : Prop} (h : s.Scanning failed) :
    s.searches = 1 ∧ s.work ≤ 9 ∧ (s.scans = [] → s.work ≠ 0) := by
  unfold System.searches System.work
  cases h with
  | first hf hboot => simp [hboot, System.boot]
  | scan hf hh hq hc hs => simp [hh, hq, hc, hs]
  | post hf hh hq hc hs => simp [hh, hq, hc, hs, HandlerCall.postsRestart, DelegateJob.isRestart]
  | queued hf hh hq hc hs => simp [hh, hq, hc, hs, DelegateJob.isRestart, DelegateJob.calls]
  | restart hf hh hq hs hc hne =>
    simp only [hh, hq, hs, List.length_nil, List.countP_nil, List.map_nil, List.sum_nil]
    have hlen := hc.length_le
    simp only [DelegateJob.calls, List.length_cons, List.length_nil] at hlen
    refine ⟨?_, by omega, fun _ => ?_⟩
    · simp only [DelegateJob.calls, List.suffix_cons_iff, List.suffix_nil] at hc
      rcases hc with hc | hc | hc | hc | hc | hc | hc | hc
      all_goals first
        | exact absurd hc hne
        | simp [hc, List.countP_cons, DelegateCall.isStart]
    · have := List.length_pos_iff.mpr hne
      omega

/-- **Until the home node is found the search goes on**: there is exactly one, `app_main` starts no other, and where
none is under way the next is after at most nine steps of the event loop and the delegate task, with always one of them
to take. -/
theorem search_goes_on (es : List Event) (s : System) (hrun : run es = some s)
    (hone : Along System.step System.Completes .boot es) (hnone : ∀ total, .discoveryComplete total ∈ es → total = 0) :
    s.searches = 1 ∧ s.previousTime = none ∧
      (∀ later t, exec System.step s later = some t → (∀ e ∈ later, e.Own) → later.length ≤ 9) ∧
      (s.scans = [] → ∃ e t, e.Own ∧ s.step e = some t) := by
  have hok := scanOk_run hrun hone hnone
  obtain ⟨hsearches, hwork, hidle⟩ := hok.scanning.search
  refine ⟨hsearches, hok.previousTime, fun later t ht hown => ?_, fun hscans => ?_⟩
  · have halong : Along System.step (fun _ e => e.Own) s later := along_of_forall fun e he _ => hown e he
    have hlen := (length_add_rank_le (I := fun _ => True) System.work ht halong trivial fun _ _ _ _ he hstep =>
      ⟨trivial, (System.step_cases hstep).work_lt_iff.mpr he⟩).2
    omega
  · obtain ⟨e, t, ht, -, hlt⟩ := s.progress (hidle hscans)
    exact ⟨e, t, (System.step_cases ht).work_lt_iff.mp hlt, ht⟩

theorem search_goes_on_failure :
    ∃ s, run [.discoveryComplete 0, .handlerCall] = some s ∧ s.scans = [] ∧ s.searches = 1 ∧ s.previousTime = none ∧
      (∀ later t, exec System.step s later = some t → (∀ e ∈ later, e.Own) → later.length ≤ 9) ∧
      (s.scans = [] → ∃ e t, e.Own ∧ s.step e = some t) :=
  ⟨_, rfl, rfl, search_goes_on [.discoveryComplete 0, .handlerCall] _ rfl (by decide) (by simp)⟩

end GateNode.Discovery
