/-
Who has the buffers. A step hands a buffer on, or leaves it with no one; no
step copies one. So no buffer is ever in two places, and all three stay in
circulation exactly as long as no upload ends and no chunk meets a full
`ota_queue`.
-/
import Mathlib.Data.Fintype.Card
import GateNode.Ota.Pipeline

namespace GateNode.Ota

open GateNode.Http (HttpServerEvent)
open Lts

/-! ## Places -/

def OtaMsg.buffers (m : OtaMsg Chunk) : List Buffer := (bufferUsed m).toList.map Chunk.ptr

def LoopEvent.buffers : LoopEvent → List Buffer
  | .httpServer (.fileChunkArrived c) => [c.ptr]
  | .httpServer _ => []
  | .dataBufferUsed b => [b]

def UploadHandler.buffers : UploadHandler → List Buffer
  | .receiving b => [b]
  | _ => []

/-- Each buffer, once for each place it is in. -/
def Pipeline.owned (s : Pipeline) : List Buffer :=
  s.bufferQueue.items ++ s.handler.buffers ++ s.loop.flatMap LoopEvent.buffers ++
    s.otaQueue.items.flatMap OtaMsg.buffers ++ s.msg.toList.flatMap OtaMsg.buffers

/-- The buffer a step leaves with no one: that of a receive that ends the
upload, and that of a chunk for which `ota_queue` has no room. -/
def Pipeline.lost (s : Pipeline) : PipelineEvent → List Buffer
  | .recv (.ok (_ :: _)) => []
  | .recv _ => s.handler.buffers
  | .deliver => (s.dropped .deliver).flatMap OtaMsg.buffers
  | _ => []

/-- No receive ends an upload, and no chunk meets a full `ota_queue`. -/
def Pipeline.Keeps (s : Pipeline) : PipelineEvent → Prop
  | .recv r => (∃ b, s.handler = .receiving b) → ∃ b bs, r = .ok (b :: bs)
  | .deliver =>
    ∀ c rest, s.loop = .httpServer (.fileChunkArrived c) :: rest → s.otaQueue.items.length < otaQueueSize
  | _ => True

theorem buffers_of_message {e : HttpServerEvent Chunk} {m : OtaMsg Chunk}
    (h : routineHttpServerEventsHandler e = some m) : m.buffers = (LoopEvent.httpServer e).buffers := by
  cases e <;> cases h <;> rfl

theorem buffers_of_kept {e : HttpServerEvent Chunk} (h : routineHttpServerEventsHandler e = none) :
    (LoopEvent.httpServer e).buffers = [] := by
  cases e <;> first | rfl | cases h

/-- A message has a buffer when it is a chunk's. -/
theorem lost_deliver_eq_nil {s : Pipeline} : s.lost .deliver = [] ↔ s.Keeps .deliver := by
  simp only [Pipeline.lost, Pipeline.Keeps]
  cases hl : s.loop with
  | nil => simp [Pipeline.dropped, hl]
  | cons e rest =>
    rw [Pipeline.dropped_deliver hl]
    cases e with
    | httpServer e =>
      cases e with
      | fileTransferStarted | fileChunkArrived | fileTransferComplete =>
        by_cases hroom : s.otaQueue.items.length < otaQueueSize <;>
          simp [routineHttpServerEventsHandler, hroom, OtaMsg.buffers, bufferUsed]
      | fileTransferFailed => simp [routineHttpServerEventsHandler]
    | dataBufferUsed buffer => simp

theorem lost_eq_nil {s : Pipeline} {e : PipelineEvent} : s.lost e = [] ↔ s.Keeps e := by
  cases e with
  | recv r =>
    match r with
    | .error _ | .ok [] =>
      simp only [Pipeline.lost, Pipeline.Keeps]
      cases s.handler <;> simp [UploadHandler.buffers]
    | .ok (b :: bs) => exact iff_of_true rfl fun _ => ⟨b, bs, rfl⟩
  | deliver => exact lost_deliver_eq_nil
  | _ => exact iff_of_true rfl trivial

theorem Pipeline.count_owned (s : Pipeline) (b : Buffer) :
    s.owned.count b = s.bufferQueue.items.count b + s.handler.buffers.count b +
      (s.loop.flatMap LoopEvent.buffers).count b + (s.otaQueue.items.flatMap OtaMsg.buffers).count b +
      (s.msg.toList.flatMap OtaMsg.buffers).count b := by
  simp only [owned, List.count_append]

/-- What `file_upload_handler` does with the buffer it holds. -/
theorem Pipeline.count_received {s : Pipeline} {b : Buffer} (hh : s.handler = .receiving b) (r : Http.RecvResult)
    (c : Buffer) : (s.received b r).owned.count c + (s.lost (.recv r)).count c = s.owned.count c := by
  rw [count_owned, count_owned, hh]
  match r with
  | .error _ | .ok [] =>
    simp only [received, post, lost, hh, UploadHandler.buffers, List.flatMap_append, List.count_append]
    simp [LoopEvent.buffers]
    omega
  | .ok (_ :: _) =>
    simp only [received, post, lost, UploadHandler.buffers, List.flatMap_append, List.count_append]
    simp [LoopEvent.buffers]
    omega

/-- **A step hands each buffer on, or loses it.** -/
theorem Pipeline.Step.count {s t : Pipeline} {e : PipelineEvent} (h : Step s e t) (c : Buffer) :
    t.owned.count c + (s.lost e).count c = s.owned.count c := by
  cases h with
  | upload hh =>
    rw [count_owned, count_owned, hh]
    simp [lost, UploadHandler.buffers, LoopEvent.buffers]
  | getBuffer hh b q hq =>
    rw [count_owned, count_owned, hh, hq]
    simp only [lost, UploadHandler.buffers, List.count_cons, List.count_nil]
    omega
  | recv b hh r => exact count_received hh r c
  | kept e rest hl he =>
    have hnone : s.lost .deliver = [] := by
      simp only [lost, dropped_deliver hl, LoopEvent.message, he, List.flatMap_nil]
    rw [count_owned, count_owned, hl, List.flatMap_cons, buffers_of_kept he, hnone]
    rfl
  | sent e rest hl m he q hq =>
    have hsent := (Fifo.send_eq_some.mp hq).2
    have hnone : s.lost .deliver = [] := by
      simp only [lost, dropped_deliver hl, LoopEvent.message, he, hq, reduceCtorEq, if_false, List.flatMap_nil]
    rw [count_owned, count_owned, hl, List.flatMap_cons, hnone, hsent, ← buffers_of_message he]
    simp only [List.flatMap_append, List.flatMap_cons, List.flatMap_nil, List.count_append, List.count_nil]
    omega
  | dropped e rest hl m he hq =>
    have hm : s.lost .deliver = m.buffers := by
      simp only [lost, dropped_deliver hl, LoopEvent.message, he, hq, if_true, List.flatMap_cons, List.flatMap_nil,
        List.append_nil]
    rw [count_owned, count_owned, hl, List.flatMap_cons, hm, ← buffers_of_message he]
    simp only [List.count_append]
    omega
  | returned b rest hl q hq =>
    have hsent := (Fifo.send_eq_some.mp hq).2
    have hnone : s.lost .deliver = [] := by
      simp only [lost, dropped_deliver hl, LoopEvent.message, List.flatMap_nil]
    rw [count_owned, count_owned, hl, List.flatMap_cons, hsent, hnone]
    simp only [LoopEvent.buffers, List.count_append, List.count_nil]
    omega
  | otaReceive hm m q hq =>
    rw [count_owned, count_owned, hm, hq]
    simp only [lost, List.flatMap_cons, List.count_append, Option.toList_some, Option.toList_none,
      List.flatMap_nil, List.count_nil]
    omega
  | iterated m hm =>
    rw [count_owned, count_owned, hm]
    have hback : ((bufferUsed m).toList.map fun c => LoopEvent.dataBufferUsed c.ptr).flatMap LoopEvent.buffers =
        m.buffers := by
      unfold OtaMsg.buffers
      cases bufferUsed m <;> rfl
    simp only [lost, List.flatMap_append, hback, List.count_append, Option.toList_some, Option.toList_none,
      List.flatMap_cons, List.flatMap_nil, List.count_nil]
    omega
  | restarted => rfl

/-! ## Runs -/

variable {s : Pipeline} {es : List PipelineEvent}

/-- Each buffer is in one place, or was lost once. -/
theorem count_owned_run (h : Pipeline.run es = some s) (b : Buffer) :
    s.owned.count b + (collect Pipeline.step Pipeline.lost .boot es).count b = 1 := by
  refine exec_history
    (I := fun es s => s.owned.count b + (collect Pipeline.step Pipeline.lost .boot es).count b = 1) h ?_ ?_
  · revert b
    decide
  · intro es s e t hs ih hstep
    have hcount := (Pipeline.step_cases hstep).count b
    rw [collect_snoc hs, List.count_append]
    omega

/-- What no one else has is in the pool. -/
theorem mem_bufferQueue_of_drained (hd : s.Drained) {b : Buffer} (hb : b ∈ s.owned) : b ∈ s.bufferQueue.items := by
  obtain ⟨hhandler, hloop, hqueue, hmsg⟩ := hd
  simpa [Pipeline.owned, hhandler, hloop, hqueue, hmsg, UploadHandler.buffers] using hb

/-- **All three buffers stay with someone, and are back in the pool once all is done, exactly in the
runs where no receive ends an upload and no chunk meets a full `ota_queue`.** -/
theorem buffers_owned_iff (es : List PipelineEvent) (s : Pipeline) (hrun : Pipeline.run es = some s) :
    ((∀ b, b ∈ s.owned) ∧ (s.Drained → ∀ b, b ∈ s.bufferQueue.items)) ↔
      Along Pipeline.step Pipeline.Keeps .boot es := by
  rw [← along_congr fun _ _ => lost_eq_nil, ← collect_eq_nil, List.eq_nil_iff_forall_not_mem]
  have hcount (b : Buffer) : b ∈ s.owned ↔ b ∉ collect Pipeline.step Pipeline.lost .boot es := by
    have := count_owned_run hrun b
    rw [← List.count_pos_iff, ← List.count_eq_zero]
    omega
  constructor
  · intro h b
    exact (hcount b).mp (h.1 b)
  · intro h
    have howned (b : Buffer) : b ∈ s.owned := (hcount b).mpr (h b)
    exact ⟨howned, fun hd b => mem_bufferQueue_of_drained hd (howned b)⟩

/-- An upload with no body, all of it done with; the task finds no partition for it. -/
def emptyUploadEvents : List PipelineEvent :=
  [.upload, .deliver, .otaReceive, .otaIterate {}, .getBuffer, .recv (.ok []), .deliver, .otaReceive,
    .otaIterate {}]

/-- A chunk that `ota_task` has handled, its buffer back in the pool. -/
def chunkEvents : List PipelineEvent :=
  [.upload, .deliver, .otaReceive, .otaIterate {}, .getBuffer, .recv (.ok [1]), .deliver, .otaReceive,
    .otaIterate {}, .deliver]

/-- The end of an upload, handled. -/
def endEvents : List PipelineEvent := [.getBuffer, .recv (.ok []), .deliver, .otaReceive, .otaIterate {}]

theorem buffers_owned_by_chunk :
    ∃ s, Pipeline.run chunkEvents = some s ∧ s.bufferQueue.items = [1, 2, 0] ∧
      Along Pipeline.step Pipeline.Keeps .boot chunkEvents :=
  ⟨_, rfl, rfl, (buffers_owned_iff chunkEvents _ rfl).mp (by decide)⟩

/-- With every buffer lost, an upload that wants one waits for good. -/
theorem step_eq_none (hh : s.handler = .wantsBuffer) (hb : s.bufferQueue.items = []) (hl : s.loop = [])
    (hq : s.otaQueue.items = []) (hm : s.msg = none) (e : PipelineEvent) : s.step e = none := by
  refine Option.bind_eq_none_iff.mpr fun task _ => ?_
  cases e with
  | getBuffer =>
    simp only [Pipeline.move, hh, Fifo.receive_eq_none.mpr hb, Option.map_none]
  | otaReceive =>
    simp only [Pipeline.move, hm, Fifo.receive_eq_none.mpr hq, Option.map_none]
  | _ => simp only [Pipeline.move, hh, hl, hm, Option.map_none]

/-- Each of three completed uploads keeps a buffer; the fourth never gets one. -/
theorem fourth_upload_hangs :
    (∃ s, Pipeline.run emptyUploadEvents = some s ∧ s.Drained ∧ 0 ∉ s.owned) ∧
      ∃ s, Pipeline.run (emptyUploadEvents ++ emptyUploadEvents ++ emptyUploadEvents ++
          [.upload, .deliver, .otaReceive, .otaIterate {}]) = some s ∧
        s.handler = .wantsBuffer ∧ (∀ b, b ∉ s.owned) ∧ ∀ e, s.step e = none :=
  ⟨⟨_, rfl, by decide, by decide⟩, _, rfl, rfl, by decide, step_eq_none rfl rfl rfl rfl rfl⟩

theorem owned_nodup (h : Pipeline.run es = some s) : s.owned.Nodup := by
  rw [List.nodup_iff_count_le_one]
  intro b
  have := count_owned_run h b
  omega

/-- A buffer being received into is in no message. -/
theorem not_mem_buffers {b : Buffer} (hh : s.handler = .receiving b) (hs : s.owned.Nodup) {m : OtaMsg Chunk}
    (hm : m ∈ s.msg.toList ++ s.inFlight) : b ∉ m.buffers := by
  intro hb
  have hle := List.nodup_iff_count_le_one.mp hs b
  have hheld : s.handler.buffers.count b = 1 := by
    rw [hh]
    exact List.count_singleton_self
  rw [Pipeline.count_owned, hheld] at hle
  have absent {l : List Buffer} (hl : l.count b = 0) : b ∉ l := List.count_eq_zero.mp hl
  rw [Pipeline.inFlight, List.mem_append, List.mem_append, List.mem_filterMap] at hm
  rcases hm with hm | hm | ⟨e, he, hmsg⟩
  · exact absent (by omega) (List.mem_flatMap.mpr ⟨m, hm, hb⟩)
  · exact absent (l := s.otaQueue.items.flatMap OtaMsg.buffers) (by omega) (List.mem_flatMap.mpr ⟨m, hm, hb⟩)
  · cases e with
    | httpServer e =>
      rw [buffers_of_message hmsg] at hb
      exact absent (l := s.loop.flatMap LoopEvent.buffers) (by omega) (List.mem_flatMap.mpr ⟨_, he, hb⟩)
    | dataBufferUsed _ => cases hmsg

/-- What a receive writes over is no message's. -/
theorem read_received {b : Buffer} (hh : s.handler = .receiving b) (hs : s.owned.Nodup) (r : Http.RecvResult)
    {m : OtaMsg Chunk} (hm : m ∈ s.msg.toList ++ s.inFlight) :
    m.read (s.received b r).recvBuf = m.read s.recvBuf := by
  match r, m with
  | .error _, _ | .ok [], _ => rfl
  | .ok (_ :: _), .dataArrivalStarting | .ok (_ :: _), .dataCompletion => rfl
  | .ok (_ :: _), .dataPacketArrived c =>
    have hne : c.ptr ≠ b := fun heq => not_mem_buffers hh hs hm (by rw [← heq]; exact List.mem_singleton_self _)
    simp only [OtaMsg.read, Pipeline.received, Pipeline.post, Function.update_of_ne hne]

/-- The bytes of a message stay until `ota_task` is done with them. -/
theorem Pipeline.Step.read {t : Pipeline} {e : PipelineEvent} (h : Step s e t) (hs : s.owned.Nodup)
    {m : OtaMsg Chunk} (hm : m ∈ s.msg.toList ++ s.inFlight) : m.read t.recvBuf = m.read s.recvBuf := by
  cases h with
  | recv b hh r => exact read_received hh hs r hm
  | _ => rfl

/-- There is room in the pool for a buffer on its way back. -/
theorem length_bufferQueue_lt {b : Buffer} {rest : List LoopEvent} (hs : s.owned.Nodup)
    (hl : s.loop = .dataBufferUsed b :: rest) : s.bufferQueue.items.length < totalChunkBuffers := by
  have hnodup : (b :: s.bufferQueue.items).Nodup := by
    rw [List.nodup_iff_count_le_one] at hs ⊢
    intro c
    have := hs c
    rw [Pipeline.count_owned, hl, List.flatMap_cons, List.count_append] at this
    simp only [LoopEvent.buffers, List.count_cons, List.count_nil] at this ⊢
    omega
  have hlen := hnodup.length_le_card
  rw [List.length_cons, Fintype.card_fin] at hlen
  exact hlen

/-- **No buffer is ever in two places**: so no step touches the bytes of a message that `ota_task` has
still to write, and a buffer given back finds room in the pool. -/
theorem buffers_single_owner (es : List PipelineEvent) (s : Pipeline) (hrun : Pipeline.run es = some s) :
    s.owned.Nodup ∧
      (∀ e t, s.step e = some t → ∀ m ∈ s.msg.toList ++ s.inFlight, m.read t.recvBuf = m.read s.recvBuf) ∧
      ∀ b rest, s.loop = .dataBufferUsed b :: rest → s.bufferQueue.items.length < totalChunkBuffers := by
  have hs := owned_nodup hrun
  refine ⟨hs, fun e t hstep m hm => ?_, fun b rest hl => ?_⟩
  · exact (Pipeline.step_cases hstep).read hs hm
  · exact length_bufferQueue_lt hs hl

theorem buffers_single_owner_chunk :
    ∃ s, Pipeline.run chunkEvents = some s ∧ s.owned.Nodup ∧
      (∀ e t, s.step e = some t → ∀ m ∈ s.msg.toList ++ s.inFlight, m.read t.recvBuf = m.read s.recvBuf) ∧
      ∀ b rest, s.loop = .dataBufferUsed b :: rest → s.bufferQueue.items.length < totalChunkBuffers :=
  ⟨_, rfl, buffers_single_owner chunkEvents _ rfl⟩

end GateNode.Ota
