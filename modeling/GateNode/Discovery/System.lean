/-
Discovery, from boot on: the handler of DISCOVERY_COMPLETE with its static
`channel`, the delegate queue and the task that runs its jobs, and the loop
of `app_main`. Every order of their steps is a run; what a discovery finds,
and when it completes, is in the label.

The model starts behind the `start_discovery` of `app_main`.
-/
import GateNode.Lib.Lts
import GateNode.Lib.Fifo

namespace GateNode.Discovery

def maxWifiChannel : UInt8 := 13

/-- `ESPNOW_CHANNEL`, which is also the channel `wifi_station_init` sets. -/
def espnowChannel : UInt8 := 1

def delegateQueueLength : Nat := 4

/-! ## The handler and the jobs -/

/-- `delegate_job_t`; the argument is copied into the job when it is posted. -/
inductive DelegateJob
  | restartDiscoveryOnNewChannel (channel : UInt8)
  | restartWifiApsta (channel : UInt8)
deriving DecidableEq, Repr

inductive GuiEvent
  | systemSearchingHomeNode (channel : UInt8)
  | systemBootDone
deriving DecidableEq, Repr

inductive HandlerCall
  | delegatePost (job : DelegateJob)
  | guiInform (event : GuiEvent)
deriving DecidableEq, Repr

/-- `routine_discovery_events_handler` on a DISCOVERY_COMPLETE with `total` devices: the static it
leaves and the calls it makes. -/
def routineDiscoveryEventsHandler (channel total : UInt8) : UInt8 × List HandlerCall :=
  if total = 0 then
    let channel := channel + 1
    let channel := if channel > maxWifiChannel then 1 else channel
    (channel, [.delegatePost (.restartDiscoveryOnNewChannel channel)])
  else
    (channel, [.delegatePost (.restartWifiApsta channel), .guiInform .systemBootDone])

inductive DelegateCall
  | espNowTransportDeinit
  | vTaskDelay (ms : Nat)
  | wifiSetChannel (channel : UInt8)
  | guiInform (event : GuiEvent)
  | espNowTransportInit (channel : UInt8)
  | startDiscovery
  | wifiStop
  | wifiInitSoftap (channel : UInt8)
  | syncManagerSignalSet
deriving DecidableEq, Repr

def DelegateJob.calls : DelegateJob → List DelegateCall
  /- `delegated_to_task_restart_discovery_on_new_channel` -/
  | .restartDiscoveryOnNewChannel channel =>
    [.espNowTransportDeinit, .vTaskDelay 1000, .wifiSetChannel channel,
      .guiInform (.systemSearchingHomeNode channel), .vTaskDelay 1000, .espNowTransportInit channel, .startDiscovery]
  /- `delegated_to_task_restart_wifi_apsta` -/
  | .restartWifiApsta channel =>
    [.wifiStop, .vTaskDelay 2000, .wifiInitSoftap channel, .syncManagerSignalSet]

def DelegateJob.isRestart : DelegateJob → Bool
  | .restartDiscoveryOnNewChannel _ => true
  | .restartWifiApsta _ => false

def HandlerCall.job : HandlerCall → Option DelegateJob
  | .delegatePost job => some job
  | .guiInform _ => none

/-! ## The loop of `app_main` -/

def configTickRateHz : UInt32 := 100

/-- `(xTaskGetTickCount() * 1000) / configTICK_RATE_HZ`, of the count read. -/
def currentTimeMs (ticks : UInt32) : UInt32 := ticks * 1000 / configTickRateHz

def rediscoveryPeriodMs : UInt32 := 1000000

/-! ## All of it -/

structure System where
  /-- The static of the handler. -/
  channel : UInt8 := 0
  /-- What is left of the handler's run; empty while the event loop is free to hand it the next event. -/
  handling : List HandlerCall := []
  delegateQueue : Fifo DelegateJob delegateQueueLength := .empty
  /-- What is left of the job `delegate_run_task` is at. -/
  calls : List DelegateCall := []
  /-- The channel the radio is on. -/
  radio : UInt8 := espnowChannel
  /-- ESP-NOW is initialised. -/
  transport : Bool := true
  /-- The discoveries under way, each by the channel the radio was on when it was started. -/
  scans : List UInt8 := []
  /-- SYNC_EVENT_DISCOVERY_COMPLETE is set. -/
  signal : Bool := false
  /-- `previous_time`, once `app_main` is past its wait for the signal. -/
  previousTime : Option UInt32 := none
deriving DecidableEq

def System.boot : System where
  scans := [espnowChannel]

/-- What a call of the delegate task does; of `vTaskDelay` the step is its return. -/
def DelegateCall.apply (s : System) : DelegateCall → System
  | .espNowTransportDeinit => { s with transport := false }
  | .espNowTransportInit _ => { s with transport := true }
  | .wifiSetChannel channel => { s with radio := channel }
  | .wifiInitSoftap channel => { s with radio := channel }
  | .startDiscovery => { s with scans := s.scans ++ [s.radio] }
  | .syncManagerSignalSet => { s with signal := true }
  | .vTaskDelay _ | .guiInform _ | .wifiStop => s

inductive Event
  /-- The oldest discovery under way completes, and the handler runs up to its first call. -/
  | discoveryComplete (total : UInt8)
  | handlerCall
  | delegateReceive
  | delegateCall
  /-- `app_main` gets the signal and reads the tick count. -/
  | mainWake (ticks : UInt32)
  /-- An iteration of its loop. -/
  | mainLoop (ticks : UInt32)
deriving DecidableEq, Repr

/-- The loop finds that the period has passed. -/
def System.Due (s : System) (ticks : UInt32) : Prop :=
  ∃ previousTime ∈ s.previousTime, currentTimeMs ticks - previousTime > rediscoveryPeriodMs

/-- One step; `delegate_post` waits for room, so one that finds none is not enabled. -/
def System.step (s : System) : Event → Option System
  | .discoveryComplete total =>
    if s.handling = [] then
      some { s with
        channel := (routineDiscoveryEventsHandler s.channel total).1
        handling := (routineDiscoveryEventsHandler s.channel total).2
        scans := s.scans.tail }
    else
      none
  | .handlerCall =>
    match s.handling with
    | [] => none
    | .delegatePost job :: rest =>
      (s.delegateQueue.send job).map fun q => { s with handling := rest, delegateQueue := q }
    | .guiInform _ :: rest => some { s with handling := rest }
  | .delegateReceive =>
    if s.calls = [] then
      s.delegateQueue.receive.map fun (job, q) => { s with calls := job.calls, delegateQueue := q }
    else
      none
  | .delegateCall =>
    match s.calls with
    | [] => none
    | c :: cs => some { c.apply s with calls := cs }
  | .mainWake ticks =>
    if s.signal = true ∧ s.previousTime = none then
      some { s with signal := false, previousTime := some (currentTimeMs ticks) }
    else
      none
  | .mainLoop ticks =>
    s.previousTime.map fun previousTime =>
      if currentTimeMs ticks - previousTime > rediscoveryPeriodMs then
        { s with scans := s.scans ++ [s.radio], previousTime := some (currentTimeMs ticks) }
      else
        s

/-- What a step can do. -/
inductive System.Step (s : System) : Event → System → Prop
  | discoveryComplete (total : UInt8) (hh : s.handling = []) :
      Step s (.discoveryComplete total)
        { s with
          channel := (routineDiscoveryEventsHandler s.channel total).1
          handling := (routineDiscoveryEventsHandler s.channel total).2
          scans := s.scans.tail }
  | delegatePost (job : DelegateJob) (rest : List HandlerCall) (q : Fifo DelegateJob delegateQueueLength)
      (hh : s.handling = .delegatePost job :: rest) (hq : q.items = s.delegateQueue.items ++ [job]) :
      Step s .handlerCall { s with handling := rest, delegateQueue := q }
  | guiInform (event : GuiEvent) (rest : List HandlerCall) (hh : s.handling = .guiInform event :: rest) :
      Step s .handlerCall { s with handling := rest }
  | delegateReceive (job : DelegateJob) (q : Fifo DelegateJob delegateQueueLength) (hc : s.calls = [])
      (hq : s.delegateQueue.items = job :: q.items) :
      Step s .delegateReceive { s with calls := job.calls, delegateQueue := q }
  | delegateCall (c : DelegateCall) (cs : List DelegateCall) (hc : s.calls = c :: cs) :
      Step s .delegateCall { c.apply s with calls := cs }
  | mainWake (ticks : UInt32) (hsignal : s.signal = true) (hp : s.previousTime = none) :
      Step s (.mainWake ticks) { s with signal := false, previousTime := some (currentTimeMs ticks) }
  | rediscover (ticks : UInt32) (hdue : s.Due ticks) :
      Step s (.mainLoop ticks)
        { s with scans := s.scans ++ [s.radio], previousTime := some (currentTimeMs ticks) }
  | mainLoop (ticks : UInt32) (hp : s.previousTime.isSome = true) (hdue : ¬ s.Due ticks) : Step s (.mainLoop ticks) s

theorem System.step_cases {s t : System} {e : Event} (h : s.step e = some t) : Step s e t := by
  cases e with
  | discoveryComplete total =>
    simp only [step] at h
    split at h
    · next hh =>
      cases h
      exact .discoveryComplete total hh
    · cases h
  | handlerCall =>
    simp only [step] at h
    split at h
    · cases h
    · next job rest hh =>
      obtain ⟨q, hq, rfl⟩ := Option.map_eq_some_iff.mp h
      exact .delegatePost job rest q hh (Fifo.send_eq_some.mp hq).2
    · next event rest hh =>
      cases h
      exact .guiInform event rest hh
  | delegateReceive =>
    simp only [step] at h
    split at h
    · next hc =>
      obtain ⟨⟨job, q⟩, hq, rfl⟩ := Option.map_eq_some_iff.mp h
      exact .delegateReceive job q hc (Fifo.receive_eq_some.mp hq)
    · cases h
  | delegateCall =>
    simp only [step] at h
    split at h
    · cases h
    · next c cs hc =>
      cases h
      exact .delegateCall c cs hc
  | mainWake ticks =>
    simp only [step] at h
    split at h
    · next hw =>
      cases h
      exact .mainWake ticks hw.1 hw.2
    · cases h
  | mainLoop ticks =>
    obtain ⟨p, hp, rfl⟩ := Option.map_eq_some_iff.mp h
    split
    · next hdue => exact .rediscover ticks ⟨p, hp, hdue⟩
    · next hdue =>
      refine .mainLoop ticks (by rw [hp]; rfl) ?_
      rintro ⟨p', hp', hdue'⟩
      rw [hp] at hp'
      cases hp'
      exact hdue hdue'

/-- The steps of a run from boot. -/
abbrev run (es : List Event) : Option System := Lts.exec System.step .boot es

end GateNode.Discovery
