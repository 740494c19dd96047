/-
The channel the access point comes up on. It is the handler's static, which a
failed discovery brings in step with the radio: the job the failure posts
sets the radio to it. Before the first failure nothing has, and the static is
not the channel the radio started on.
-/
import Mathlib.Logic.Function.Iterate
import GateNode.Discovery.System

namespace GateNode.Discovery

/-- A completion is that of a discovery under way. -/
def System.Completes (s : System) : Event → Prop
  | .discoveryComplete _ => s.scans ≠ []
  | _ => True

instance (s : System) : ∀ e, Decidable (s.Completes e)
  | .discoveryComplete _ => inferInstanceAs (Decidable (s.scans ≠ []))
  | .handlerCall | .delegateReceive | .delegateCall | .mainWake _ | .mainLoop _ => isTrue trivial

/-- A discovery found nothing. -/
def Failed (es : List Event) : Prop := .discoveryComplete 0 ∈ es

/-! ## The scan of the channels -/

/-- Where the scan is: one discovery is under way, or what its failure causes on the way to the next. -/
inductive System.Scanning (failed : Prop) (s : System) : Prop
  | first (hf : ¬ failed) (hs : s = .boot)
  | scan (hf : failed) (hh : s.handling = []) (hq : s.delegateQueue.items = []) (hc : s.calls = [])
      (hs : s.scans = [s.radio]) (hr : s.radio = s.channel)
  | post (hf : failed) (hh : s.handling = [.delegatePost (.restartDiscoveryOnNewChannel s.channel)])
      (hq : s.delegateQueue.items = []) (hc : s.calls = []) (hs : s.scans = [])
  | queued (hf : failed) (hh : s.handling = [])
      (hq : s.delegateQueue.items = [.restartDiscoveryOnNewChannel s.channel]) (hc : s.calls = []) (hs : s.scans = [])
  | restart (hf : failed) (hh : s.handling = []) (hq : s.delegateQueue.items = []) (hs : s.scans = [])
      (hc : s.calls <:+ (DelegateJob.restartDiscoveryOnNewChannel s.channel).calls) (hne : s.calls ≠ [])
      (hr : .wifiSetChannel s.channel ∉ s.calls → s.radio = s.channel)

/-- `app_main` waits for the signal while the scan goes on. -/
structure System.ScanOk (failed : Prop) (s : System) : Prop where
  scanning : s.Scanning failed
  signal : s.signal = false
  previousTime : s.previousTime = none

theorem handler_failure (channel : UInt8) :
    (routineDiscoveryEventsHandler channel 0).2 =
      [.delegatePost (.restartDiscoveryOnNewChannel (routineDiscoveryEventsHandler channel 0).1)] := rfl

theorem System.ScanOk.complete {failed : Prop} {s : System} (h : s.ScanOk failed) (hs : s.scans ≠ []) :
    ({ s with
        channel := (routineDiscoveryEventsHandler s.channel 0).1
        handling := (routineDiscoveryEventsHandler s.channel 0).2
        scans := s.scans.tail } : System).ScanOk True := by
  refine ⟨?_, h.signal, h.previousTime⟩
  cases h.scanning with
  | first hf hboot => rw [hboot]; exact .post trivial rfl rfl rfl rfl
  | scan hf hh hq hc hscans hr =>
    refine .post trivial (handler_failure s.channel) hq hc ?_
    rw [hscans, List.tail_cons]
  | post | queued | restart => contradiction

/-- The calls of a restart bring the radio to the job's channel and end in a discovery on it. -/
theorem System.Scanning.call {failed : Prop} {s : System} {c : DelegateCall} {cs : List DelegateCall}
    (h : s.Scanning failed) (hc : s.calls = c :: cs) :
    ({ c.apply s with calls := cs } : System).Scanning failed ∧ (c.apply s).signal = s.signal ∧
      (c.apply s).previousTime = s.previousTime := by
  cases h with
  | first hf hboot => rw [hboot] at hc; cases hc
  | scan hf hh hq hcalls | post hf hh hq hcalls | queued hf hh hq hcalls => rw [hcalls] at hc; cases hc
  | restart hf hh hq hs hsuffix hne hr =>
    rw [hc] at hsuffix hr
    have hrest := (List.suffix_cons c cs).trans hsuffix
    simp only [DelegateJob.calls, List.suffix_cons_iff, List.suffix_nil, List.cons.injEq, reduceCtorEq,
      or_false] at hsuffix
    rcases hsuffix with ⟨rfl, rfl⟩ | ⟨rfl, rfl⟩ | ⟨rfl, rfl⟩ | ⟨rfl, rfl⟩ | ⟨rfl, rfl⟩ | ⟨rfl, rfl⟩ | ⟨rfl, rfl⟩
    · exact ⟨.restart hf hh hq hs hrest nofun (fun hn => (hn (by simp [DelegateCall.apply])).elim), rfl, rfl⟩
    · exact ⟨.restart hf hh hq hs hrest nofun (fun hn => (hn (by simp [DelegateCall.apply])).elim), rfl, rfl⟩
    · exact ⟨.restart hf hh hq hs hrest nofun (fun _ => rfl), rfl, rfl⟩
    · exact ⟨.restart hf hh hq hs hrest nofun (fun _ => hr (by simp)), rfl, rfl⟩
    · exact ⟨.restart hf hh hq hs hrest nofun (fun _ => hr (by simp)), rfl, rfl⟩
    · exact ⟨.restart hf hh hq hs hrest nofun (fun _ => hr (by simp)), rfl, rfl⟩
    · refine ⟨.scan hf hh hq rfl ?_ (hr (by simp)), rfl, rfl⟩
      show s.scans ++ [s.radio] = [s.radio]
      rw [hs, List.nil_append]

/-- One step of the scan, which goes on as long as nothing is found. -/
theorem System.ScanOk.step {failed : Prop} {s t : System} {e : Event} (h : s.ScanOk failed) (hs : s.Step e t)
    (hcomplete : s.Completes e) (hfail : ∀ total, e = .discoveryComplete total → total = 0) :
    t.ScanOk (failed ∨ e = .discoveryComplete 0) := by
  cases hs with
  | discoveryComplete total hh =>
    obtain rfl := hfail total rfl
    have ht := h.complete hcomplete
    rwa [show (failed ∨ Event.discoveryComplete 0 = .discoveryComplete 0) = True by simp]
  | mainWake ticks hsignal => rw [h.signal] at hsignal; cases hsignal
  | rediscover ticks hdue =>
    obtain ⟨p, hp, -⟩ := hdue
    rw [h.previousTime] at hp
    cases hp
  | mainLoop ticks hp => rw [h.previousTime] at hp; cases hp
  | delegatePost job rest q hh hq =>
    refine ⟨?_, h.signal, h.previousTime⟩
    simp only [reduceCtorEq, or_false]
    cases h.scanning with
    | first hf hboot => rw [hboot] at hh; cases hh
    | scan hf hnone | queued hf hnone | restart hf hnone => rw [hnone] at hh; cases hh
    | post hf hpost hempty hc hs =>
      rw [hpost, List.cons.injEq] at hh
      obtain ⟨⟨⟩, rfl⟩ := hh
      rw [hempty, List.nil_append] at hq
      exact .queued hf rfl hq hc hs
  | guiInform event rest hh =>
    cases h.scanning with
    | first hf hboot => rw [hboot] at hh; cases hh
    | scan hf hnone | queued hf hnone | restart hf hnone => rw [hnone] at hh; cases hh
    | post hf hpost => rw [hpost] at hh; cases hh
  | delegateReceive job q hc hq =>
    refine ⟨?_, h.signal, h.previousTime⟩
    simp only [reduceCtorEq, or_false]
    cases h.scanning with
    | first hf hboot => rw [hboot] at hq; cases hq
    | scan hf hh hempty | post hf hh hempty | restart hf hh hempty => rw [hempty] at hq; cases hq
    | queued hf hh hone hcalls hs =>
      rw [hone, List.cons.injEq] at hq
      obtain ⟨rfl, hrest⟩ := hq
      exact .restart hf hh hrest.symm hs List.suffix_rfl (List.cons_ne_nil _ _)
        (fun hn => (hn (by simp [DelegateJob.calls])).elim)
  | delegateCall c cs hc =>
    obtain ⟨hscanning, hsignal, hprevious⟩ := h.scanning.call hc
    simp only [reduceCtorEq, or_false]
    exact ⟨hscanning, hsignal.trans h.signal, hprevious.trans h.previousTime⟩

theorem scanOk_run {es : List Event} {s : System} (h : run es = some s)
    (hcomplete : Lts.Along System.step System.Completes .boot es)
    (hfail : ∀ total, .discoveryComplete total ∈ es → total = 0) : s.ScanOk (Failed es) := by
  refine Lts.exec_history (I := fun es s => Lts.Along System.step System.Completes .boot es →
    (∀ total, .discoveryComplete total ∈ es → total = 0) → s.ScanOk (Failed es)) h ?_ ?_ hcomplete hfail
  · exact fun _ _ => ⟨.first List.not_mem_nil rfl, rfl, rfl⟩
  · intro es t e u ht ih hstep hcomplete hfail
    obtain ⟨hes, he⟩ := (Lts.along_snoc ht).mp hcomplete
    have hok := ih hes fun total hmem => hfail total (List.mem_append_left _ hmem)
    have hnext := hok.step (System.step_cases hstep) he fun total heq => hfail total (by simp [heq])
    rwa [show Failed (es ++ [e]) = (Failed es ∨ e = .discoveryComplete 0) by simp [Failed, eq_comm]]

/-- **The access point's channel is the one the home node was found on exactly when a discovery failed
before**: when the first success comes, whatever the order of the steps on the way to it. -/
theorem ap_channel_iff (es : List Event) (s : System) (total : UInt8) (h : run es = some s)
    (hcomplete : Lts.Along System.step System.Completes .boot (es ++ [.discoveryComplete total]))
    (hfail : ∀ total, .discoveryComplete total ∈ es → total = 0) (htotal : total ≠ 0) :
    s.scans = [s.radio] ∧
      ((routineDiscoveryEventsHandler s.channel total).2 =
          [.delegatePost (.restartWifiApsta s.radio), .guiInform .systemBootDone] ↔
        .discoveryComplete 0 ∈ es) := by
  obtain ⟨hes, hlast⟩ := (Lts.along_snoc h).mp hcomplete
  have hok := scanOk_run h hes hfail
  have hscans : s.scans ≠ [] := hlast
  have hpost : (routineDiscoveryEventsHandler s.channel total).2 =
      [.delegatePost (.restartWifiApsta s.channel), .guiInform .systemBootDone] := by
    rw [routineDiscoveryEventsHandler, if_neg htotal]
  rw [hpost]
  cases hok.scanning with
  | first hf hboot =>
    rw [hboot]
    refine ⟨rfl, iff_of_false ?_ hf⟩
    decide
  | scan hf hh hq hc hs hr => exact ⟨hs, iff_of_true (by rw [hr]) hf⟩
  | post hf hh hq hc hs | queued hf hh hq hc hs | restart hf hh hq hs => exact absurd hs hscans

/-! ## Scans of any length -/

/-- A failure, and the restart it causes. -/
def failure : List Event := [.discoveryComplete 0, .handlerCall, .delegateReceive] ++ List.replicate 7 .delegateCall

/-- The channel after a failure. -/
def nextChannel (channel : UInt8) : UInt8 := (routineDiscoveryEventsHandler channel 0).1

theorem exec_failure (channel radio : UInt8) :
    Lts.exec System.step { channel := channel, radio := radio, scans := [radio] } failure =
      some { channel := nextChannel channel, radio := nextChannel channel, scans := [nextChannel channel] } := rfl

/-- Any number of failures is a run, from one channel to the next. -/
theorem run_failures (n : Nat) :
    ∃ radio, run (List.replicate n failure).flatten =
      some { channel := nextChannel^[n] 0, radio := radio, scans := [radio] } := by
  induction n with
  | zero => exact ⟨espnowChannel, rfl⟩
  | succ n ih =>
    obtain ⟨radio, hrun⟩ := ih
    refine ⟨nextChannel^[n + 1] 0, ?_⟩
    rw [run] at hrun ⊢
    rw [List.replicate_succ', List.flatten_append, List.flatten_singleton, Lts.exec_append, hrun, Option.bind_some,
      exec_failure, Function.iterate_succ_apply']

/-- The home node answers after fourteen failures, once round all channels. -/
theorem ap_channel_fourteenth :
    ∃ radio, run (List.replicate 14 failure).flatten = some { channel := 1, radio := radio, scans := [radio] } ∧
      (routineDiscoveryEventsHandler 1 1).2 = [.delegatePost (.restartWifiApsta radio), .guiInform .systemBootDone] := by
  obtain ⟨radio, hrun⟩ := run_failures 14
  have hchannel : nextChannel^[14] 0 = 1 := by decide
  rw [hchannel] at hrun
  have hfail : ∀ total, .discoveryComplete total ∈ (List.replicate 14 failure).flatten → total = 0 := by
    simp [failure]
  obtain ⟨-, hiff⟩ := ap_channel_iff _ _ 1 hrun (by decide +kernel) hfail (by decide)
  exact ⟨radio, hrun, hiff.mpr (by decide)⟩

/-- It answers at once, on channel 1, and the access point is asked for on channel 0. -/
theorem ap_channel_first :
    run [] = some .boot ∧ System.boot.scans = [1] ∧
      (routineDiscoveryEventsHandler System.boot.channel 1).2 =
        [.delegatePost (.restartWifiApsta 0), .guiInform .systemBootDone] :=
  ⟨rfl, rfl, rfl⟩

end GateNode.Discovery
