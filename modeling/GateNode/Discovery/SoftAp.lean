/-
How often the access point is initialised. Each DISCOVERY_COMPLETE that found
a device posts one job, and each such job is run once, so `wifi_init_softap`
is executed as often as discoveries found something: once more for every
periodic rediscovery that does.
-/
import Mathlib.Algebra.GroupWithZero.Nat
import GateNode.Discovery.System

namespace GateNode.Discovery

/-- A discovery that found a device. -/
def Event.isFound : Event → Bool
  | .discoveryComplete total => total != 0
  | _ => false

def DelegateJob.isApsta : DelegateJob → Bool
  | .restartWifiApsta _ => true
  | _ => false

def HandlerCall.postsApsta : HandlerCall → Bool
  | .delegatePost job => job.isApsta
  | _ => false

def DelegateCall.isSoftap : DelegateCall → Bool
  | .wifiInitSoftap _ => true
  | _ => false

/-- The step executes `wifi_init_softap`, with this channel. -/
def System.softap (s : System) : Event → List UInt8
  | .delegateCall =>
    match s.calls with
    | .wifiInitSoftap channel :: _ => [channel]
    | _ => []
  | _ => []

/-- The executions of `wifi_init_softap` in a run. -/
def softaps (es : List Event) : List UInt8 := Lts.collect System.step System.softap .boot es

/-- The executions still to come of what has been posted or is about to be. -/
def System.pendingSoftaps (s : System) : Nat :=
  s.handling.countP HandlerCall.postsApsta + s.delegateQueue.items.countP DelegateJob.isApsta +
    s.calls.countP DelegateCall.isSoftap

theorem countP_calls (job : DelegateJob) : job.calls.countP DelegateCall.isSoftap = job.isApsta.toNat := by
  cases job <;> rfl

theorem countP_handler (channel total : UInt8) :
    (routineDiscoveryEventsHandler channel total).2.countP HandlerCall.postsApsta = (total != 0).toNat := by
  unfold routineDiscoveryEventsHandler
  by_cases h : total = 0
  · simp only [h, if_true]
    rfl
  · have hne : (total != 0) = true := bne_iff_ne.mpr h
    rw [if_neg h, hne]
    rfl

/-- What a step executes it takes from what is pending; a discovery that found something adds one. -/
theorem System.Step.softap {s t : System} {e : Event} (h : s.Step e t) :
    (s.softap e).length + t.pendingSoftaps = s.pendingSoftaps + e.isFound.toNat := by
  unfold System.pendingSoftaps
  cases h with
  | discoveryComplete total hh =>
    have hpost := countP_handler s.channel total
    simp only [System.softap, Event.isFound, hh, List.length_nil, List.countP_nil, hpost]
    omega
  | delegatePost job rest q hh hq =>
    have hpost : (HandlerCall.delegatePost job :: rest).countP HandlerCall.postsApsta =
        rest.countP HandlerCall.postsApsta + job.isApsta.toNat := by
      cases hj : job.isApsta <;> simp [HandlerCall.postsApsta, hj]
    have hqueue : q.items.countP DelegateJob.isApsta =
        s.delegateQueue.items.countP DelegateJob.isApsta + job.isApsta.toNat := by
      rw [hq, List.countP_append]
      cases hj : job.isApsta <;> simp [hj]
    simp only [System.softap, Event.isFound, hh, hpost, hqueue, List.length_nil, Bool.toNat_false]
    omega
  | guiInform event rest hh =>
    have hpost : (HandlerCall.guiInform event :: rest).countP HandlerCall.postsApsta =
        rest.countP HandlerCall.postsApsta := List.countP_cons_of_neg Bool.false_ne_true
    simp only [System.softap, Event.isFound, hh, hpost, List.length_nil, Bool.toNat_false]
    omega
  | delegateReceive job q hc hq =>
    have hqueue : s.delegateQueue.items.countP DelegateJob.isApsta =
        q.items.countP DelegateJob.isApsta + job.isApsta.toNat := by
      rw [hq]
      cases hj : job.isApsta <;> simp [hj]
    simp only [System.softap, Event.isFound, hc, hqueue, countP_calls, List.length_nil, List.countP_nil,
      Bool.toNat_false]
    omega
  | delegateCall c cs hc =>
    have hframe : (c.apply s).handling = s.handling ∧ (c.apply s).delegateQueue = s.delegateQueue := by
      cases c <;> exact ⟨rfl, rfl⟩
    have hcall : (s.softap .delegateCall).length + cs.countP DelegateCall.isSoftap =
        (c :: cs).countP DelegateCall.isSoftap := by
      unfold System.softap
      rw [hc]
      cases c <;> simp [List.countP_cons, DelegateCall.isSoftap, Nat.add_comm]
    rw [hc, hframe.1, hframe.2, ← hcall]
    simp only [Event.isFound, Bool.toNat_false]
    omega
  | mainWake | rediscover | mainLoop =>
    simp only [System.softap, Event.isFound, List.length_nil, Bool.toNat_false]
    omega

theorem softaps_add_pending {es : List Event} {s : System} (h : run es = some s) :
    (softaps es).length + s.pendingSoftaps = es.countP Event.isFound := by
  refine Lts.exec_history (I := fun es s => (softaps es).length + s.pendingSoftaps = es.countP Event.isFound) h rfl ?_
  intro es t e u ht hes hstep
  have hone := (System.step_cases hstep).softap
  rw [softaps, Lts.collect_snoc ht, List.length_append, List.countP_append, List.countP_singleton]
  rw [softaps] at hes
  cases he : e.isFound <;> simp only [he, Bool.toNat_true, Bool.toNat_false, if_true, Bool.false_eq_true, if_false]
    at hone ⊢ <;> omega

/-! ## What has been posted is run -/

/-- The steps the handler and the delegate task have still to take, the jobs to come included. -/
def System.work (s : System) : Nat :=
  9 * s.handling.length + (s.delegateQueue.items.map fun job => job.calls.length + 1).sum + s.calls.length

/-- While there is work one of the two can take a step, which is no discovery result. -/
theorem System.progress {s : System} (h : s.work ≠ 0) :
    ∃ e t, s.step e = some t ∧ e.isFound = false ∧ t.work < s.work := by
  cases hc : s.calls with
  | cons c cs =>
    have hframe : (c.apply s).handling = s.handling ∧ (c.apply s).delegateQueue = s.delegateQueue := by
      cases c <;> exact ⟨rfl, rfl⟩
    refine ⟨.delegateCall, { c.apply s with calls := cs }, by simp only [step, hc], rfl, ?_⟩
    simp only [work, hc, hframe.1, hframe.2, List.length_cons]
    omega
  | nil =>
    cases hq : s.delegateQueue.receive with
    | some r =>
      obtain ⟨job, q⟩ := r
      have hitems := Fifo.receive_eq_some.mp hq
      refine ⟨.delegateReceive, { s with calls := job.calls, delegateQueue := q }, ?_, rfl, ?_⟩
      · simp only [step, hc, hq, if_true, Option.map_some]
      · simp only [work, hc, hitems, List.map_cons, List.sum_cons, List.length_nil]
        omega
    | none =>
      have hempty := Fifo.receive_eq_none.mp hq
      cases hh : s.handling with
      | nil => exact absurd (by simp [work, hh, hc, hempty]) h
      | cons call rest =>
        cases call with
        | delegatePost job =>
          -- The queue is empty, so there is room.
          obtain ⟨q, hsend⟩ : ∃ q, s.delegateQueue.send job = some q :=
            ⟨_, dif_pos (by rw [hempty]; decide)⟩
          have hitems := (Fifo.send_eq_some.mp hsend).2
          have hlen : job.calls.length ≤ 7 := by cases job <;> simp [DelegateJob.calls]
          refine ⟨.handlerCall, { s with handling := rest, delegateQueue := q }, ?_, rfl, ?_⟩
          · simp only [step, hh, hsend, Option.map_some]
          · simp only [work, hh, hc, hitems, hempty, List.nil_append, List.map_cons, List.map_nil, List.sum_cons,
              List.sum_nil, List.length_cons, List.length_nil]
            omega
        | guiInform event =>
          refine ⟨.handlerCall, { s with handling := rest }, by simp only [step, hh], rfl, ?_⟩
          simp only [work, hh, List.length_cons]
          omega

/-- Without a further discovery result, everything posted is run to its end. -/
theorem System.drain (s : System) :
    ∃ es t, Lts.exec step s es = some t ∧ es.countP Event.isFound = 0 ∧ t.work = 0 := by
  induction hn : s.work using Nat.strongRecOn generalizing s with
  | ind n ih =>
    by_cases h0 : s.work = 0
    · exact ⟨[], s, rfl, rfl, h0⟩
    · obtain ⟨e, t, ht, he, hlt⟩ := s.progress h0
      obtain ⟨es, u, hu, hes, hdone⟩ := ih t.work (by omega) t rfl
      refine ⟨e :: es, u, Lts.exec_cons_eq_some.mpr ⟨t, ht, hu⟩, ?_, hdone⟩
      rw [List.countP_cons, hes, he]
      rfl

/-- With no work left the handler, the queue and the running job are all empty. -/
theorem System.empty_of_work_eq_zero {s : System} (h : s.work = 0) :
    s.handling = [] ∧ s.delegateQueue.items = [] ∧ s.calls = [] := by
  unfold work at h
  have hh : s.handling = [] := List.length_eq_zero_iff.mp (by omega)
  have hc : s.calls = [] := List.length_eq_zero_iff.mp (by omega)
  refine ⟨hh, ?_, hc⟩
  cases hitems : s.delegateQueue.items with
  | nil => rfl
  | cons job rest =>
    rw [hitems, List.map_cons, List.sum_cons] at h
    omega

theorem System.pendingSoftaps_eq_zero {s : System} (h : s.work = 0) : s.pendingSoftaps = 0 := by
  obtain ⟨hh, hq, hc⟩ := empty_of_work_eq_zero h
  simp [pendingSoftaps, hh, hc, hq]

/-- **`wifi_init_softap` is executed at most once, however the run goes on from here, exactly while
no more than one discovery has found a device.** -/
theorem softap_at_most_once_iff (es : List Event) (s : System) (h : run es = some s) :
    (∀ es' t, es'.countP Event.isFound = 0 → run (es ++ es') = some t → (softaps (es ++ es')).length ≤ 1) ↔
      es.countP Event.isFound ≤ 1 := by
  constructor
  · intro honce
    obtain ⟨es', t, ht, hes', hdone⟩ := s.drain
    have hrun : run (es ++ es') = some t := Lts.exec_append_eq_some.mpr ⟨s, h, ht⟩
    have hsum := softaps_add_pending hrun
    rw [System.pendingSoftaps_eq_zero hdone, List.countP_append, hes'] at hsum
    have hle := honce es' t hes' hrun
    omega
  · intro hfound es' t hes' ht
    have hsum := softaps_add_pending ht
    rw [List.countP_append, hes'] at hsum
    omega

/-- The boot scan, from the home node's answer to the access point. -/
def foundOnce : List Event :=
  [.discoveryComplete 1, .handlerCall, .handlerCall, .delegateReceive, .delegateCall, .delegateCall, .delegateCall,
    .delegateCall]

theorem softap_at_most_once_boot :
    ∃ s, run foundOnce = some s ∧
      ((∀ es' t, es'.countP Event.isFound = 0 → run (foundOnce ++ es') = some t →
          (softaps (foundOnce ++ es')).length ≤ 1) ↔
        foundOnce.countP Event.isFound ≤ 1) :=
  ⟨_, rfl, softap_at_most_once_iff foundOnce _ rfl⟩

/-- The first periodic rediscovery finds the home node again. -/
theorem rediscovery_inits_softap_again :
    (∃ s, run (foundOnce ++ [.mainWake 1000, .mainLoop 101020] ++ foundOnce) = some s) ∧
      (softaps (foundOnce ++ [.mainWake 1000, .mainLoop 101020] ++ foundOnce)).length = 2 :=
  ⟨⟨_, rfl⟩, rfl⟩

end GateNode.Discovery
