/-
When `ota_task` reads a packet's buffer and when it gives it back. The
iterations once more, with the pointer a packet came in, every access to it
and the post at the end; without these they are the iterations of `Task`.
The one post stands behind the switch, so every way out of it leads there.
-/
import GateNode.Ota.BootImage

namespace GateNode.Ota

open Lts

/-- `msg.data`, an address. -/
abbrev Pointer := UInt32

/-- `msg.data` and the `msg.len` bytes it points to. -/
structure Packet where
  ptr : Pointer
  data : List UInt8
deriving DecidableEq

/-- The message with the bytes alone. -/
def OtaMsg.bytes : OtaMsg Packet → OtaMsg (List UInt8)
  | .dataArrivalStarting => .dataArrivalStarting
  | .dataPacketArrived p => .dataPacketArrived p.data
  | .dataCompletion => .dataCompletion

/-- What an iteration does that others can see, and its reads of a buffer. -/
inductive TaskEvent
  /-- The `memcpy` of `new_app_info` out of the buffer. -/
  | headerCopy (buffer : Pointer)
  /-- A call on images, with the buffer it reads. -/
  | call (c : OtaCall) (buffer : Option Pointer)
  /-- OTA_SERVICE_ROUTINE_EVENT_DATA_BUFFER_USED is posted. -/
  | dataBufferUsed (buffer : Pointer)
deriving DecidableEq

/-! ## One iteration -/

/-- The block under `image_header_was_checked == false`. -/
def checkHeaderEvents (s : OtaTask) (idf : Idf) (p : Packet) : List TaskEvent × OtaTask × Bool :=
  if p.data.length > imageHeadersSize + appDescSize then
    if isFirmwareUpdated (version idf.runningAppInfo) (version (newAppInfo p.data)) = false then
      ([.headerCopy p.ptr], { s with nextState := .idle }, false)
    else if isItLastInvalidApp idf (version (newAppInfo p.data)) = true then
      ([.headerCopy p.ptr], { s with nextState := .idle }, false)
    else
      let t := { s with imageHeaderWasChecked := true, updateHandle := idf.updateHandle }
      let events := [.headerCopy p.ptr, .call (.otaBegin s.updatePartition idf.updateHandle idf.otaBegin) none]
      match idf.otaBegin with
      | .espOk => (events, t, true)
      | .espFail => (events, { t with nextState := .idle }, false)
  else
    ([], { s with nextState := .idle }, false)

def writePacketEvents (s : OtaTask) (idf : Idf) (p : Packet) : List TaskEvent × OtaTask :=
  let write := .call (.otaWrite s.updateHandle p.data idf.otaWrite) (some p.ptr)
  match idf.otaWrite with
  | .espOk => ([write], s)
  | .espFail => ([write, .call (.otaAbort s.updateHandle) none], { s with nextState := .idle })

def packetArrivedEvents (s : OtaTask) (idf : Idf) (p : Packet) : List TaskEvent × OtaTask :=
  if s.imageHeaderWasChecked then
    writePacketEvents s idf p
  else
    match checkHeaderEvents s idf p with
    | (events, t, true) => (events ++ (writePacketEvents t idf p).1, (writePacketEvents t idf p).2)
    | (events, t, false) => (events, t)

/-- The switch: what it does, and the variables it leaves unless the device restarts. -/
def switchEvents (s : OtaTask) (idf : Idf) (msg : OtaMsg Packet) : List TaskEvent × Option OtaTask :=
  match s.state, msg with
  | .idle, msg => ([], some (idleCase s idf msg.bytes))
  | .active, .dataArrivalStarting => ([], some s)
  | .active, .dataPacketArrived p => ((packetArrivedEvents s idf p).1, some (packetArrivedEvents s idf p).2)
  | .active, .dataCompletion => ((completion s idf).1.map fun c => .call c none, (completion s idf).2)

/-- The iteration; behind the switch the state is set and the buffer given back. -/
def taskIteration (s : OtaTask) (idf : Idf) (msg : OtaMsg Packet) : List TaskEvent × Option OtaTask :=
  match switchEvents s idf msg with
  | (events, none) => (events, none)
  | (events, some t) =>
    let post := match msg with
      | .dataPacketArrived p => [.dataBufferUsed p.ptr]
      | _ => []
    (events ++ post, some { t with state := t.nextState })

abbrev TaskStep := OtaMsg Packet × Idf

def taskStep (s : OtaTask) (l : TaskStep) : Option OtaTask := (taskIteration s l.2 l.1).2

def taskEvents (s : OtaTask) (l : TaskStep) : List TaskEvent := (taskIteration s l.2 l.1).1

/-! ## The iterations of `Task` -/

def TaskEvent.otaCall : TaskEvent → Option OtaCall
  | .call c _ => some c
  | _ => none

variable {s t : OtaTask} {idf : Idf} {p : Packet} {msg : OtaMsg Packet}

theorem checkHeaderEvents_calls :
    (checkHeaderEvents s idf p).2 = (checkHeader s idf p.data).2 ∧
      (checkHeaderEvents s idf p).1.filterMap TaskEvent.otaCall = (checkHeader s idf p.data).1 := by
  unfold checkHeaderEvents checkHeader headerAccepted
  by_cases hlen : p.data.length > imageHeadersSize + appDescSize
  · cases hnew : isFirmwareUpdated (version idf.runningAppInfo) (version (newAppInfo p.data)) with
    | false => simp [hlen, TaskEvent.otaCall]
    | true =>
      cases hinvalid : isItLastInvalidApp idf (version (newAppInfo p.data)) with
      | true => simp [hlen, TaskEvent.otaCall]
      | false => cases idf.otaBegin <;> simp [hlen, TaskEvent.otaCall, List.filterMap_cons]
  · simp [hlen]

theorem writePacketEvents_calls :
    (writePacketEvents s idf p).2 = (writePacket s idf p.data).2 ∧
      (writePacketEvents s idf p).1.filterMap TaskEvent.otaCall = (writePacket s idf p.data).1 := by
  unfold writePacketEvents writePacket
  cases idf.otaWrite <;> exact ⟨rfl, rfl⟩

theorem packetArrivedEvents_calls :
    (packetArrivedEvents s idf p).2 = (packetArrived s idf p.data).2 ∧
      (packetArrivedEvents s idf p).1.filterMap TaskEvent.otaCall = (packetArrived s idf p.data).1 := by
  unfold packetArrivedEvents packetArrived
  cases hchecked : s.imageHeaderWasChecked with
  | true => exact writePacketEvents_calls
  | false =>
    simp only [Bool.false_eq_true, if_false]
    obtain ⟨hleft, hcalls⟩ := @checkHeaderEvents_calls s idf p
    revert hleft hcalls
    generalize checkHeaderEvents s idf p = ours
    generalize checkHeader s idf p.data = theirs
    obtain ⟨events, t, _ | _⟩ := ours <;> obtain ⟨calls, t', _ | _⟩ := theirs <;> intro hleft hcalls <;> cases hleft
    · exact ⟨rfl, hcalls⟩
    · obtain ⟨hleft, hwrite⟩ := @writePacketEvents_calls t idf p
      refine ⟨hleft, ?_⟩
      rw [List.filterMap_append, hwrite, hcalls]

/-- Without the pointers these are the iterations of `Task`. -/
theorem taskIteration_refines (s : OtaTask) (idf : Idf) (msg : OtaMsg Packet) :
    (taskIteration s idf msg).2 = (otaIteration s idf msg.bytes).2 ∧
      (taskIteration s idf msg).1.filterMap TaskEvent.otaCall = (otaIteration s idf msg.bytes).1 := by
  unfold taskIteration switchEvents otaIteration
  cases hs : s.state with
  | idle => cases msg <;> exact ⟨rfl, rfl⟩
  | active =>
    cases msg with
    | dataArrivalStarting => exact ⟨rfl, rfl⟩
    | dataPacketArrived p =>
      obtain ⟨hleft, hcalls⟩ := @packetArrivedEvents_calls s idf p
      simp only [OtaMsg.bytes, activeCase, hleft, Option.map_some, true_and]
      rw [List.filterMap_append, hcalls]
      exact List.append_nil _
    | dataCompletion =>
      have hcalls (calls : List OtaCall) :
          (calls.map fun c => TaskEvent.call c none).filterMap TaskEvent.otaCall = calls := by
        rw [List.filterMap_map]
        exact List.filterMap_some
      simp only [OtaMsg.bytes, activeCase]
      obtain ⟨calls, _ | t⟩ := completion s idf
      · exact ⟨rfl, hcalls calls⟩
      · simp only [Option.map_some, List.append_nil, true_and]
        exact hcalls calls

/-! ## What becomes of a buffer -/

/-- The buffer a post gives back. -/
def TaskEvent.given : TaskEvent → Option Pointer
  | .dataBufferUsed buffer => some buffer
  | _ => none

/-- The buffer it reads. -/
def TaskEvent.reads : TaskEvent → Option Pointer
  | .headerCopy buffer => some buffer
  | .call _ buffer => buffer
  | .dataBufferUsed _ => none

/-- It gives nothing back, and reads no buffer but this one. -/
def TaskEvent.OnlyReads (buffer : Pointer) (e : TaskEvent) : Prop :=
  e.given = none ∧ ∀ b ∈ e.reads, b = buffer

/-- The pointer of a packet's message. -/
def OtaMsg.pointer : OtaMsg Packet → Option Pointer
  | .dataPacketArrived p => some p.ptr
  | _ => none

/-- The events of a message: of a packet, reads of its buffer and behind them the one post of it; of any other,
neither a read nor a post. -/
def OfMessage (msg : OtaMsg Packet) (events : List TaskEvent) : Prop :=
  match msg.pointer with
  | some buffer => ∃ reads, events = reads ++ [.dataBufferUsed buffer] ∧ ∀ e ∈ reads, e.OnlyReads buffer
  | none => ∀ e ∈ events, e.given = none ∧ e.reads = none

theorem onlyReads_headerCopy (buffer : Pointer) : (TaskEvent.headerCopy buffer).OnlyReads buffer := by
  refine ⟨rfl, fun b hb => ?_⟩
  cases hb
  rfl

theorem onlyReads_write (c : OtaCall) (buffer : Pointer) : (TaskEvent.call c (some buffer)).OnlyReads buffer := by
  refine ⟨rfl, fun b hb => ?_⟩
  cases hb
  rfl

theorem onlyReads_call (c : OtaCall) (buffer : Pointer) : (TaskEvent.call c none).OnlyReads buffer := ⟨rfl, nofun⟩

theorem checkHeaderEvents_reads : ∀ e ∈ (checkHeaderEvents s idf p).1, e.OnlyReads p.ptr := by
  have hcopy := onlyReads_headerCopy p.ptr
  unfold checkHeaderEvents
  split
  · split
    · exact List.forall_mem_singleton.mpr hcopy
    · split
      · exact List.forall_mem_singleton.mpr hcopy
      · cases idf.otaBegin with
        | espOk | espFail =>
          exact List.forall_mem_cons.mpr ⟨hcopy, List.forall_mem_singleton.mpr (onlyReads_call _ _)⟩
  · exact nofun

theorem writePacketEvents_reads : ∀ e ∈ (writePacketEvents s idf p).1, e.OnlyReads p.ptr := by
  have hwrite (c : OtaCall) := onlyReads_write c p.ptr
  unfold writePacketEvents
  cases idf.otaWrite with
  | espOk => exact List.forall_mem_singleton.mpr (hwrite _)
  | espFail => exact List.forall_mem_cons.mpr ⟨hwrite _, List.forall_mem_singleton.mpr (onlyReads_call _ _)⟩

theorem packetArrivedEvents_reads : ∀ e ∈ (packetArrivedEvents s idf p).1, e.OnlyReads p.ptr := by
  unfold packetArrivedEvents
  split
  · exact writePacketEvents_reads
  · have hheader := @checkHeaderEvents_reads s idf p
    revert hheader
    generalize checkHeaderEvents s idf p = checked
    obtain ⟨events, t, _ | _⟩ := checked
    · exact id
    · intro hheader e he
      rcases List.mem_append.mp he with he | he
      · exact hheader e he
      · exact writePacketEvents_reads e he

/-- One iteration reads the buffer it was handed, and gives it back at its end. -/
theorem taskIteration_ofMessage (s : OtaTask) (idf : Idf) (msg : OtaMsg Packet) :
    OfMessage msg (taskIteration s idf msg).1 := by
  unfold taskIteration switchEvents
  cases msg with
  | dataArrivalStarting => cases s.state <;> exact nofun
  | dataPacketArrived p =>
    cases s.state with
    | idle => exact ⟨[], rfl, nofun⟩
    | active => exact ⟨_, rfl, packetArrivedEvents_reads⟩
  | dataCompletion =>
    cases s.state with
    | idle => exact nofun
    | active =>
      have hcalls (calls : List OtaCall) : ∀ e ∈ calls.map fun c => TaskEvent.call c none,
          e.given = none ∧ e.reads = none := by
        intro e he
        obtain ⟨c, -, rfl⟩ := List.mem_map.mp he
        exact ⟨rfl, rfl⟩
      show OfMessage .dataCompletion _
      simp only
      obtain ⟨calls, _ | t⟩ := completion s idf
      · exact hcalls calls
      · simp only [List.append_nil]
        exact hcalls calls

theorem OfMessage.given {events : List TaskEvent} (h : OfMessage msg events) :
    events.filterMap TaskEvent.given = msg.pointer.toList := by
  unfold OfMessage at h
  cases hp : msg.pointer with
  | none =>
    rw [hp] at h
    exact List.filterMap_eq_nil_iff.mpr fun e he => (h e he).1
  | some buffer =>
    rw [hp] at h
    obtain ⟨reads, rfl, hreads⟩ := h
    rw [List.filterMap_append, List.filterMap_eq_nil_iff.mpr fun e he => (hreads e he).1]
    rfl

/-- **Every buffer is given back exactly once and only after use.** Whatever comes in whatever state, the buffers
posted are those of the packets received, in their order; and each message's part of the events is reads of its
own buffer with the post behind them, or neither. -/
theorem buffers_given_back (s t : OtaTask) (ls : List TaskStep) (h : exec taskStep s ls = some t) :
    (collect taskStep taskEvents s ls).filterMap TaskEvent.given = ls.filterMap (fun l => l.1.pointer) ∧
      Along taskStep (fun s l => OfMessage l.1 (taskEvents s l)) s ls := by
  refine ⟨?_, along_of_forall fun l _ s => taskIteration_ofMessage s l.2 l.1⟩
  induction ls generalizing s with
  | nil => rfl
  | cons l ls ih =>
    obtain ⟨u, hu, h⟩ := exec_cons_eq_some.mp h
    have hone : (taskEvents s l).filterMap TaskEvent.given = l.1.pointer.toList :=
      (taskIteration_ofMessage s l.2 l.1).given
    rw [collect, hu, List.filterMap_append, hone, ih u h, List.filterMap_cons]
    cases l.1.pointer <;> rfl

/-- A packet that is written, one whose write fails, and one that comes when the update is over. -/
def threePackets : List TaskStep :=
  [(.dataArrivalStarting, allOk), (.dataPacketArrived ⟨1000, leastImage 50⟩, allOk),
    (.dataPacketArrived ⟨2000, [1, 2]⟩, { allOk with otaWrite := .espFail }),
    (.dataPacketArrived ⟨1000, [3]⟩, allOk)]

theorem buffers_given_back_three :
    (collect taskStep taskEvents {} threePackets).filterMap TaskEvent.reads = [1000, 1000, 2000] ∧
      (collect taskStep taskEvents {} threePackets).filterMap TaskEvent.given =
        threePackets.filterMap (fun l => l.1.pointer) ∧
      Along taskStep (fun s l => OfMessage l.1 (taskEvents s l)) {} threePackets := by
  have hrun : ∃ t, exec taskStep {} threePackets = some t := by
    rw [← Option.isSome_iff_exists]
    decide +kernel
  obtain ⟨t, ht⟩ := hrun
  exact ⟨by decide +kernel, buffers_given_back {} t threePackets ht⟩

end GateNode.Ota
