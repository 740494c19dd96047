/-
An upload's way to the flash: `file_upload_handler` takes a buffer from the
pool, fills it and posts it; the event loop passes it on to `ota_queue`;
`ota_task` writes it and posts it back; the event loop returns it to the
pool. Every order of their steps is a run. Posts to the event loop wait, so
that none is lost; the send to `ota_queue` does not.
-/
import GateNode.Lib.Lts
import GateNode.Lib.Fifo
import GateNode.Ota.Calls

namespace GateNode.Ota

open GateNode.Http (RecvResult HttpServerEvent uploadChunkSize)

/-- `TOTAL_CHUNK_BUFFERS`. -/
abbrev totalChunkBuffers : Nat := 3

/-- A pointer to a row of `recv_buf`. -/
abbrev Buffer := Fin totalChunkBuffers

/-- `http_chunk_event_data_t`. -/
structure Chunk where
  ptr : Buffer
  length : Nat
deriving DecidableEq

/-- The event loop carries what the HTTP server posts, and the buffers given back. -/
inductive LoopEvent
  | httpServer (e : HttpServerEvent Chunk)
  | dataBufferUsed (buffer : Buffer)
deriving DecidableEq

inductive UploadHandler
  | idle
  /-- In `get_chunk_buffer_from_pool`. -/
  | wantsBuffer
  /-- In `httpd_req_recv`. -/
  | receiving (buffer : Buffer)
deriving DecidableEq

/-- The length of `ota_queue`. -/
def otaQueueSize : Nat := 3

structure Pipeline where
  bufferQueue : Fifo Buffer totalChunkBuffers
  recvBuf : Buffer → List UInt8 := fun _ => List.replicate uploadChunkSize 0
  handler : UploadHandler := .idle
  loop : List LoopEvent := []
  otaQueue : Fifo (OtaMsg Chunk) otaQueueSize := .empty
  /-- The message of the iteration under way. -/
  msg : Option (OtaMsg Chunk) := none
  /-- `none` once the device restarts, from when on nothing moves. -/
  ota : Option OtaTask := some {}

def Pipeline.boot : Pipeline where
  bufferQueue := ⟨List.finRange totalChunkBuffers, by decide⟩

inductive PipelineEvent
  /-- A request for `/ota/upload` is taken up. -/
  | upload
  | getBuffer
  /-- `httpd_req_recv` returns. -/
  | recv (r : RecvResult)
  /-- The event loop handles its oldest event. -/
  | deliver
  | otaReceive
  /-- The iteration, to its end. -/
  | otaIterate (idf : Idf)

/-- The message with the bytes its pointer stands for. -/
def OtaMsg.read (recvBuf : Buffer → List UInt8) : OtaMsg Chunk → OtaMsg (List UInt8)
  | .dataArrivalStarting => .dataArrivalStarting
  | .dataPacketArrived c => .dataPacketArrived ((recvBuf c.ptr).take c.length)
  | .dataCompletion => .dataCompletion

/-- `HTTP_SERVER_post_event`. -/
def Pipeline.post (s : Pipeline) (e : HttpServerEvent Chunk) : Pipeline :=
  { s with loop := s.loop ++ [.httpServer e] }

/-- What `file_upload_handler` does with the answer of `httpd_req_recv`. The
buffer of an answer that ends the upload stays with no one. -/
def Pipeline.received (s : Pipeline) (buffer : Buffer) : RecvResult → Pipeline
  | .error _ => { s.post .fileTransferFailed with handler := .idle }
  | .ok [] => { s.post .fileTransferComplete with handler := .idle }
  | .ok (b :: bs) =>
    { s.post (.fileChunkArrived ⟨buffer, (b :: bs).length⟩) with
      handler := .wantsBuffer
      recvBuf := Function.update s.recvBuf buffer (b :: bs ++ (s.recvBuf buffer).drop (b :: bs).length) }

@[simp] theorem received_msg (s : Pipeline) (b : Buffer) (r : RecvResult) : (s.received b r).msg = s.msg := by
  match r with
  | .error _ | .ok [] | .ok (_ :: _) => rfl

@[simp] theorem received_ota (s : Pipeline) (b : Buffer) (r : RecvResult) : (s.received b r).ota = s.ota := by
  match r with
  | .error _ | .ok [] | .ok (_ :: _) => rfl

/-- The handlers of the event loop, by the event. -/
def Pipeline.handle (s : Pipeline) : LoopEvent → Option Pipeline
  | .httpServer e =>
    match routineHttpServerEventsHandler e with
    | none => some s
    | some msg =>
      match s.otaQueue.send msg with
      -- `ota_service_data_event` fails, and no one asks.
      | none => some s
      | some q => some { s with otaQueue := q }
  | .dataBufferUsed buffer =>
    -- `http_server_return_chunk_buffer` waits for room.
    (s.bufferQueue.send buffer).map fun q => { s with bufferQueue := q }

def Pipeline.move (s : Pipeline) (task : OtaTask) : PipelineEvent → Option Pipeline
  | .upload =>
    match s.handler with
    | .idle => some { s.post .fileTransferStarted with handler := .wantsBuffer }
    | _ => none
  | .getBuffer =>
    match s.handler with
    | .wantsBuffer =>
      s.bufferQueue.receive.map fun (b, q) => { s with bufferQueue := q, handler := .receiving b }
    | _ => none
  | .recv r =>
    match s.handler with
    | .receiving b => some (s.received b r)
    | _ => none
  | .deliver =>
    match s.loop with
    | [] => none
    | e :: rest => { s with loop := rest }.handle e
  | .otaReceive =>
    match s.msg with
    | none => s.otaQueue.receive.map fun (m, q) => { s with otaQueue := q, msg := some m }
    | some _ => none
  | .otaIterate idf =>
    s.msg.map fun m =>
      match (otaIteration task idf (m.read s.recvBuf)).2 with
      | none => { s with ota := none }
      | some t =>
        { s with
          ota := some t
          msg := none
          loop := s.loop ++ (bufferUsed m).toList.map fun c => .dataBufferUsed c.ptr }

def Pipeline.step (s : Pipeline) (e : PipelineEvent) : Option Pipeline := s.ota.bind fun task => s.move task e

/-- What a step can do. -/
inductive Pipeline.Step (s : Pipeline) : PipelineEvent → Pipeline → Prop
  | upload (hh : s.handler = .idle) :
      Step s .upload { s with loop := s.loop ++ [.httpServer .fileTransferStarted], handler := .wantsBuffer }
  | getBuffer (hh : s.handler = .wantsBuffer) (b : Buffer) (q : Fifo Buffer totalChunkBuffers)
      (hq : s.bufferQueue.items = b :: q.items) :
      Step s .getBuffer { s with bufferQueue := q, handler := .receiving b }
  | recv (b : Buffer) (hh : s.handler = .receiving b) (r : RecvResult) : Step s (.recv r) (s.received b r)
  | kept (e : HttpServerEvent Chunk) (rest : List LoopEvent) (hl : s.loop = .httpServer e :: rest)
      (he : routineHttpServerEventsHandler e = none) : Step s .deliver { s with loop := rest }
  | sent (e : HttpServerEvent Chunk) (rest : List LoopEvent) (hl : s.loop = .httpServer e :: rest)
      (m : OtaMsg Chunk) (he : routineHttpServerEventsHandler e = some m)
      (q : Fifo (OtaMsg Chunk) otaQueueSize) (hq : s.otaQueue.send m = some q) :
      Step s .deliver { s with loop := rest, otaQueue := q }
  | dropped (e : HttpServerEvent Chunk) (rest : List LoopEvent) (hl : s.loop = .httpServer e :: rest)
      (m : OtaMsg Chunk) (he : routineHttpServerEventsHandler e = some m) (hq : s.otaQueue.send m = none) :
      Step s .deliver { s with loop := rest }
  | returned (b : Buffer) (rest : List LoopEvent) (hl : s.loop = .dataBufferUsed b :: rest)
      (q : Fifo Buffer totalChunkBuffers) (hq : s.bufferQueue.send b = some q) :
      Step s .deliver { s with loop := rest, bufferQueue := q }
  | otaReceive (hm : s.msg = none) (m : OtaMsg Chunk) (q : Fifo (OtaMsg Chunk) otaQueueSize)
      (hq : s.otaQueue.items = m :: q.items) : Step s .otaReceive { s with otaQueue := q, msg := some m }
  | iterated (m : OtaMsg Chunk) (hm : s.msg = some m) (idf : Idf) (task t : OtaTask) (htask : s.ota = some task)
      (ht : (otaIteration task idf (m.read s.recvBuf)).2 = some t) :
      Step s (.otaIterate idf)
        { s with
          ota := some t
          msg := none
          loop := s.loop ++ (bufferUsed m).toList.map fun c => .dataBufferUsed c.ptr }
  | restarted (m : OtaMsg Chunk) (hm : s.msg = some m) (idf : Idf) (task : OtaTask) (htask : s.ota = some task)
      (ht : (otaIteration task idf (m.read s.recvBuf)).2 = none) :
      Step s (.otaIterate idf) { s with ota := none }

theorem Pipeline.step_cases {s t : Pipeline} {e : PipelineEvent} (h : s.step e = some t) : Step s e t := by
  obtain ⟨task, htask, h⟩ := Option.bind_eq_some_iff.mp h
  cases e with
  | upload =>
    simp only [move] at h
    split at h
    · next hh =>
      cases h
      exact .upload hh
    · cases h
  | getBuffer =>
    simp only [move] at h
    split at h
    · next hh =>
      obtain ⟨⟨b, q⟩, hq, rfl⟩ := Option.map_eq_some_iff.mp h
      exact .getBuffer hh b q (Fifo.receive_eq_some.mp hq)
    · cases h
  | recv r =>
    simp only [move] at h
    split at h
    · next b hh =>
      cases h
      exact .recv b hh r
    · cases h
  | deliver =>
    simp only [move] at h
    split at h
    · cases h
    · next e rest hl =>
      cases e with
      | httpServer e =>
        simp only [handle] at h
        split at h
        · next he =>
          cases h
          exact .kept e rest hl he
        · next m he =>
          split at h
          · next hq =>
            cases h
            exact .dropped e rest hl m he hq
          · next q hq =>
            cases h
            exact .sent e rest hl m he q hq
      | dataBufferUsed b =>
        obtain ⟨q, hq, rfl⟩ := Option.map_eq_some_iff.mp h
        exact .returned b rest hl q hq
  | otaReceive =>
    simp only [move] at h
    split at h
    · next hm =>
      obtain ⟨⟨m, q⟩, hq, rfl⟩ := Option.map_eq_some_iff.mp h
      exact .otaReceive hm m q (Fifo.receive_eq_some.mp hq)
    · cases h
  | otaIterate idf =>
    obtain ⟨m, hm, h⟩ := Option.map_eq_some_iff.mp h
    split at h
    · next ht =>
      cases h
      exact .restarted m hm idf task htask ht
    · next t ht =>
      cases h
      exact .iterated m hm idf task t htask ht

/-- The message an event becomes. -/
def LoopEvent.message : LoopEvent → Option (OtaMsg Chunk)
  | .httpServer e => routineHttpServerEventsHandler e
  | .dataBufferUsed _ => none

@[simp] theorem message_httpServer (e : HttpServerEvent Chunk) :
    (LoopEvent.httpServer e).message = routineHttpServerEventsHandler e := rfl

@[simp] theorem message_dataBufferUsed (b : Buffer) : (LoopEvent.dataBufferUsed b).message = none := rfl

/-- The messages on their way to `ota_task`, in order. -/
def Pipeline.inFlight (s : Pipeline) : List (OtaMsg Chunk) :=
  s.otaQueue.items ++ s.loop.filterMap LoopEvent.message

/-- The message `ota_service_data_event` is to send, where there is no room for it. -/
def Pipeline.dropped (s : Pipeline) : PipelineEvent → List (OtaMsg Chunk)
  | .deliver =>
    match s.loop.head?.bind LoopEvent.message with
    | some m => if s.otaQueue.send m = none then [m] else []
    | none => []
  | _ => []

/-- No upload is under way and nothing is left to do for one. -/
def Pipeline.Drained (s : Pipeline) : Prop :=
  s.handler = .idle ∧ s.loop = [] ∧ s.otaQueue.items = [] ∧ s.msg = none

instance (s : Pipeline) : Decidable s.Drained := by unfold Pipeline.Drained; infer_instance

theorem Pipeline.dropped_deliver {s : Pipeline} {e : LoopEvent} {rest : List LoopEvent} (hl : s.loop = e :: rest) :
    s.dropped .deliver = match e.message with
      | some m => if s.otaQueue.send m = none then [m] else []
      | none => [] := by
  simp only [dropped, hl, List.head?_cons, Option.bind_some]

/-- The steps of a run from boot. -/
abbrev Pipeline.run (es : List PipelineEvent) : Option Pipeline := Lts.exec step boot es

end GateNode.Ota
