/-
From an event to the display, in two stages: `gui_inform` queues the event;
`gui_op_task` takes it apart into `ui_*` calls, which store a label's text and
queue a job; `ui_worker_task` runs the jobs, and a job of a label draws what
is stored there by then. Every order of their steps is a run.
-/
import Mathlib.Logic.Function.Basic
import GateNode.Lib.CString
import GateNode.Lib.Fifo
import GateNode.Lib.Lts
import GateNode.Lib.Writes

namespace GateNode.Gui

open CString

/-! ## Events -/

/-- `gui_event_t`. -/
inductive GuiEvent
  | systemBooting
  | systemSearchingHomeNode
  | systemBootDone
  | systemWifiApInit
deriving DecidableEq, Repr

def guiMaxStringSize : Nat := 50

structure GuiEventData where
  string : List UInt8 := List.replicate guiMaxStringSize 0
  val : Int := 0
deriving DecidableEq, Repr

structure GuiOpInfo where
  event : GuiEvent
  evtData : GuiEventData
deriving DecidableEq, Repr

/-- What `gui_inform` queues; the data is copied, and zero where there is none. -/
def guiInform (event : GuiEvent) (evtData : Option GuiEventData) : GuiOpInfo := ⟨event, evtData.getD {}⟩

/-! ## Screens -/

inductive Screen
  | boot
  | home
deriving DecidableEq, Repr

/-- The children of the two screens that are labels, in the order of the source. -/
inductive Label
  | bootMain
  | bootChannelNo
  | bootDiscovery
  | homeApSsid
  | homeMain
  | homeDiscovery
deriving DecidableEq, Repr

def uiMaxStringLength : Nat := 30

/-- `snprintf(text, UI_MAX_STRING_LENGTH, "%s", string)`. -/
def labelText (string : List UInt8) : List UInt8 := (cstr string).take (uiMaxStringLength - 1)

/-- What can be seen: the screen that is loaded, and the text each label shows. -/
inductive Place
  | screen
  | label (l : Label)
deriving DecidableEq, Repr

@[reducible] def Place.Value : Place → Type
  | .screen => Option Screen
  | .label _ => List UInt8

abbrev Display := ∀ p : Place, p.Value

/-- A call of a `ui_*` function by `gui_op_task`. -/
inductive UiCall
  | loadScreen (screen : Screen)
  | setLabel (l : Label) (string : List UInt8)
  | setWifiState (state : UInt8)
deriving DecidableEq, Repr

def uiBootLoadScreen : UiCall := .loadScreen .boot
def uiBootSetMainLabel (string : List UInt8) : UiCall := .setLabel .bootMain string
def uiBootSetChannelInfoLabel (string : List UInt8) : UiCall := .setLabel .bootChannelNo string
def uiBootSetDiscoveryInfoLabel (string : List UInt8) : UiCall := .setLabel .bootDiscovery string
def uiHomeLoadScreen : UiCall := .loadScreen .home
def uiHomeSetMainLabel (string : List UInt8) : UiCall := .setLabel .homeMain string
def uiHomeSetWifiSsidLabel (string : List UInt8) : UiCall := .setLabel .homeApSsid string
def uiHomeSetWifiState (state : UInt8) : UiCall := .setWifiState state

/-- The cases of `gui_op_task`. -/
def guiOpTask (op : GuiOpInfo) : List UiCall :=
  match op.event with
  | .systemBooting =>
    [uiBootLoadScreen, uiBootSetMainLabel (ofString "booting"), uiBootSetChannelInfoLabel (ofString "...."),
      uiBootSetDiscoveryInfoLabel (ofString "....")]
  | .systemSearchingHomeNode =>
    [uiBootSetMainLabel op.evtData.string, uiBootSetChannelInfoLabel (ofString (toString op.evtData.val))]
  | .systemBootDone =>
    [uiHomeLoadScreen, uiHomeSetMainLabel (ofString "Welcome"), uiHomeSetWifiSsidLabel (ofString "starting"),
      uiHomeSetWifiState 4]
  | .systemWifiApInit => [uiHomeSetWifiSsidLabel op.evtData.string, uiHomeSetWifiState 0]

/-! ## Jobs -/

/-- `notify_msg_t`: the callback and its argument. -/
inductive Job
  | loadScreen (screen : Screen)
  | setLabel (l : Label)
  | setWifiState (state : UInt8)
deriving DecidableEq, Repr

/-- The job a call queues; the state of the icon is always 2. -/
def UiCall.job : UiCall → Job
  | .loadScreen screen => .loadScreen screen
  | .setLabel l _ => .setLabel l
  | .setWifiState _ => .setWifiState 2

/-- What a job draws, of the texts stored. -/
def Job.effect (text : Label → List UInt8) : Job → Option (Sigma Place.Value)
  | .loadScreen screen => some ⟨.screen, some screen⟩
  | .setLabel l => some ⟨.label l, text l⟩
  | .setWifiState _ => none

/-- What a call would draw if it drew at once. -/
def UiCall.effect : UiCall → Option (Sigma Place.Value)
  | .loadScreen screen => some ⟨.screen, some screen⟩
  | .setLabel l string => some ⟨.label l, labelText string⟩
  | .setWifiState _ => none

/-- The calls drawn at once, one after the other. -/
def synchronously (display : Display) (calls : List UiCall) : Display := Writes.putAll UiCall.effect display calls

/-! ## All of it -/

def guiOpQueueLength : Nat := 10

def notifyQueueLength : Nat := 16

structure System where
  guiOpQueue : Fifo GuiOpInfo guiOpQueueLength := .empty
  /-- What is left of the event `gui_op_task` is at. -/
  calls : List UiCall := []
  /-- The first of the calls has stored its text. -/
  stored : Bool := false
  /-- The `text` of each label. -/
  text : Label → List UInt8 := fun _ => []
  notifyQueue : Fifo Job notifyQueueLength := .empty
  /-- The job `ui_worker_task` is at. -/
  job : Option Job := none
  display : Display

/-- Both screens are created, and show what LVGL shows of itself. -/
def System.boot (display : Display) : System := { display := display }

/-- The call goes on to its job: it has no text to store, or has stored it. -/
def UiCall.Stored (stored : Bool) : UiCall → Prop
  | .setLabel _ _ => stored = true
  | _ => True

instance (stored : Bool) : ∀ c : UiCall, Decidable (c.Stored stored)
  | .setLabel _ _ => inferInstanceAs (Decidable (stored = true))
  | .loadScreen _ | .setWifiState _ => isTrue trivial

inductive Event
  /-- `gui_inform` returns ESP_OK. -/
  | inform (op : GuiOpInfo)
  /-- It finds no room in time, and returns ESP_FAIL. -/
  | informFails (op : GuiOpInfo)
  | guiReceive
  /-- The `snprintf` of a label's call. -/
  | storeText
  /-- `ui_worker_process_job`, which does not wait for room. -/
  | processJob
  | workerReceive
  /-- The callback, under the lock. -/
  | workerRun
deriving DecidableEq, Repr

def System.step (s : System) : Event → Option System
  | .inform op => (s.guiOpQueue.send op).map fun q => { s with guiOpQueue := q }
  | .informFails op => if s.guiOpQueue.send op = none then some s else none
  | .guiReceive =>
    if s.calls = [] then
      s.guiOpQueue.receive.map fun (op, q) => { s with calls := guiOpTask op, guiOpQueue := q }
    else
      none
  | .storeText =>
    match s.calls, s.stored with
    | .setLabel l string :: _, false =>
      some { s with text := Function.update s.text l (labelText string), stored := true }
    | _, _ => none
  | .processJob =>
    match s.calls with
    | [] => none
    | c :: rest =>
      if c.Stored s.stored then
        -- No caller looks at the `false` of a full queue.
        some { s with calls := rest, stored := false, notifyQueue := (s.notifyQueue.send c.job).getD s.notifyQueue }
      else
        none
  | .workerReceive =>
    if s.job = none then
      s.notifyQueue.receive.map fun (j, q) => { s with job := some j, notifyQueue := q }
    else
      none
  | .workerRun => s.job.map fun j => { s with display := Writes.put s.display (j.effect s.text), job := none }

/-- The steps of a run from boot. -/
abbrev run (display : Display) (es : List Event) : Option System := Lts.exec System.step (.boot display) es

/-- Both queues are empty, and both tasks wait for them. -/
structure System.Quiet (s : System) : Prop where
  guiOpQueue : s.guiOpQueue.items = []
  calls : s.calls = []
  notifyQueue : s.notifyQueue.items = []
  job : s.job = none

/-- The events accepted: those `gui_inform` returned ESP_OK for. -/
def accepted (es : List Event) : List GuiOpInfo :=
  es.filterMap fun
    | .inform op => some op
    | _ => none

/-- The calls of the accepted events, in order. -/
def acceptedCalls (es : List Event) : List UiCall := (accepted es).flatMap guiOpTask

/-! ## What a step can do -/

inductive System.Step (s : System) : Event → System → Prop
  | inform (op : GuiOpInfo) (q : Fifo GuiOpInfo guiOpQueueLength) (hq : q.items = s.guiOpQueue.items ++ [op]) :
      Step s (.inform op) { s with guiOpQueue := q }
  | informFails (op : GuiOpInfo) : Step s (.informFails op) s
  | guiReceive (op : GuiOpInfo) (q : Fifo GuiOpInfo guiOpQueueLength) (hc : s.calls = [])
      (hq : s.guiOpQueue.items = op :: q.items) : Step s .guiReceive { s with calls := guiOpTask op, guiOpQueue := q }
  | storeText (l : Label) (string : List UInt8) (rest : List UiCall) (hc : s.calls = .setLabel l string :: rest)
      (hs : s.stored = false) :
      Step s .storeText { s with text := Function.update s.text l (labelText string), stored := true }
  | queued (c : UiCall) (rest : List UiCall) (q : Fifo Job notifyQueueLength) (hc : s.calls = c :: rest)
      (hs : c.Stored s.stored) (hroom : s.notifyQueue.items.length < notifyQueueLength)
      (hq : q.items = s.notifyQueue.items ++ [c.job]) :
      Step s .processJob { s with calls := rest, stored := false, notifyQueue := q }
  | dropped (c : UiCall) (rest : List UiCall) (hc : s.calls = c :: rest) (hs : c.Stored s.stored)
      (hfull : notifyQueueLength ≤ s.notifyQueue.items.length) :
      Step s .processJob { s with calls := rest, stored := false }
  | workerReceive (j : Job) (q : Fifo Job notifyQueueLength) (hj : s.job = none)
      (hq : s.notifyQueue.items = j :: q.items) : Step s .workerReceive { s with job := some j, notifyQueue := q }
  | workerRun (j : Job) (hj : s.job = some j) :
      Step s .workerRun { s with display := Writes.put s.display (j.effect s.text), job := none }

theorem System.step_cases {s t : System} {e : Event} (h : s.step e = some t) : Step s e t := by
  cases e with
  | inform op =>
    obtain ⟨q, hq, rfl⟩ := Option.map_eq_some_iff.mp h
    exact .inform op q (Fifo.send_eq_some.mp hq).2
  | informFails op =>
    simp only [step] at h
    split at h
    · cases h
      exact .informFails op
    · cases h
  | guiReceive =>
    simp only [step] at h
    split at h
    · next hc =>
      obtain ⟨⟨op, q⟩, hq, rfl⟩ := Option.map_eq_some_iff.mp h
      exact .guiReceive op q hc (Fifo.receive_eq_some.mp hq)
    · cases h
  | storeText =>
    simp only [step] at h
    split at h
    · next l string rest hc hs =>
      cases h
      exact .storeText l string rest hc hs
    · cases h
  | processJob =>
    simp only [step] at h
    split at h
    · cases h
    · next c rest hc =>
      split at h
      · next hs =>
        cases h
        cases hsend : s.notifyQueue.send c.job with
        | some q =>
          obtain ⟨hroom, hq⟩ := Fifo.send_eq_some.mp hsend
          exact .queued c rest q hc hs hroom hq
        | none => exact .dropped c rest hc hs (Fifo.send_eq_none.mp hsend)
      · cases h
  | workerReceive =>
    simp only [step] at h
    split at h
    · next hj =>
      obtain ⟨⟨j, q⟩, hq, rfl⟩ := Option.map_eq_some_iff.mp h
      exact .workerReceive j q hj (Fifo.receive_eq_some.mp hq)
    · cases h
  | workerRun =>
    obtain ⟨j, hj, rfl⟩ := Option.map_eq_some_iff.mp h
    exact .workerRun j hj

end GateNode.Gui
