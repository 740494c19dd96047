/-
What reaches `ota_task`. The event loop keeps the order of what is posted and
so does `ota_queue`; all that can go missing is what meets a full queue. The
queue is as long as there are buffers, and a completion keeps one: so it is
full only with a START in it.
-/
import GateNode.Ota.Lifetime

namespace GateNode.Ota

open GateNode.Http (HttpServerEvent)
open Lts

/-- What `file_upload_handler` posts in a step. -/
def Pipeline.posted (s : Pipeline) : PipelineEvent → List (HttpServerEvent Chunk)
  | .upload => [.fileTransferStarted]
  | .recv (.error _) => [.fileTransferFailed]
  | .recv (.ok []) => [.fileTransferComplete]
  | .recv (.ok (b :: bs)) =>
    match s.handler with
    | .receiving buffer => [.fileChunkArrived ⟨buffer, (b :: bs).length⟩]
    | _ => []
  | _ => []

/-- The messages for what is posted in a step: start, chunk and completion. -/
def Pipeline.postedMsgs (s : Pipeline) (e : PipelineEvent) : List (OtaMsg Chunk) :=
  (s.posted e).filterMap routineHttpServerEventsHandler

/-- What `ota_task` receives in a step. -/
def Pipeline.receivedMsgs (s : Pipeline) : PipelineEvent → List (OtaMsg Chunk)
  | .otaReceive => s.otaQueue.items.head?.toList
  | _ => []

/-- An event that becomes a message finds `ota_queue` with room for it. -/
def Pipeline.Room (s : Pipeline) (e : PipelineEvent) : Prop :=
  e = .deliver → (s.loop.head?.bind LoopEvent.message).isSome = true → s.otaQueue.items.length < otaQueueSize

theorem dropped_eq_nil {s : Pipeline} {e : PipelineEvent} : s.dropped e = [] ↔ s.Room e := by
  cases e with
  | deliver =>
    simp only [Pipeline.dropped, Pipeline.Room, true_imp_iff]
    cases s.loop.head?.bind LoopEvent.message with
    | none => simp
    | some m =>
      by_cases hroom : s.otaQueue.items.length < otaQueueSize <;> simp [hroom]
  | _ => simp [Pipeline.dropped, Pipeline.Room]

/-- What a receive posts comes last. -/
theorem inFlight_received {s : Pipeline} {b : Buffer} (hh : s.handler = .receiving b) (r : Http.RecvResult) :
    (s.received b r).inFlight = s.inFlight ++ s.postedMsgs (.recv r) := by
  match r with
  | .error _ | .ok [] =>
    simp [Pipeline.received, Pipeline.post, Pipeline.inFlight, Pipeline.postedMsgs, Pipeline.posted,
      List.filterMap_cons, routineHttpServerEventsHandler]
  | .ok (_ :: _) =>
    simp [Pipeline.received, Pipeline.post, Pipeline.inFlight, Pipeline.postedMsgs, Pipeline.posted, hh,
      routineHttpServerEventsHandler]

/-- **A step that drops nothing keeps what is posted in its order.** -/
theorem Pipeline.Step.order {s t : Pipeline} {e : PipelineEvent} (h : Step s e t) (hd : s.dropped e = []) :
    s.receivedMsgs e ++ t.inFlight = s.inFlight ++ s.postedMsgs e := by
  cases h with
  | upload hh => simp [receivedMsgs, inFlight, postedMsgs, posted, routineHttpServerEventsHandler]
  | getBuffer hh b q hq => simp [receivedMsgs, inFlight, postedMsgs, posted]
  | recv b hh r =>
    rw [inFlight_received hh r]
    rfl
  | kept e rest hl he => simp [receivedMsgs, inFlight, postedMsgs, posted, hl, he]
  | sent e rest hl m he q hq =>
    have hsent := (Fifo.send_eq_some.mp hq).2
    simp [receivedMsgs, inFlight, postedMsgs, posted, hl, he, hsent]
  | dropped e rest hl m he hq =>
    rw [dropped_deliver hl] at hd
    simp [he, hq] at hd
  | returned b rest hl q hq => simp [receivedMsgs, inFlight, postedMsgs, posted, hl, List.filterMap_cons]
  | otaReceive hm m q hq => simp [receivedMsgs, inFlight, postedMsgs, posted, hq]
  | iterated m hm =>
    have hnone : ((bufferUsed m).toList.map fun c => LoopEvent.dataBufferUsed c.ptr).filterMap LoopEvent.message =
        [] := by
      cases bufferUsed m <;> rfl
    simp [receivedMsgs, inFlight, postedMsgs, posted, hnone]
  | restarted => simp [receivedMsgs, inFlight, postedMsgs, posted]

/-- A step hands each message on, takes it or drops it. -/
theorem Pipeline.Step.messages {s t : Pipeline} {e : PipelineEvent} (h : Step s e t) :
    (s.receivedMsgs e ++ t.inFlight ++ s.dropped e).Perm (s.inFlight ++ s.postedMsgs e) := by
  by_cases hd : s.dropped e = []
  · rw [hd, List.append_nil, h.order hd]
  · cases h with
    | dropped e rest hl m he hq =>
      have hm : s.dropped .deliver = [m] := by
        simp only [dropped_deliver hl, message_httpServer, he, hq, if_true]
      rw [hm]
      simp only [receivedMsgs, inFlight, postedMsgs, posted, hl, List.filterMap_cons, message_httpServer, he,
        List.nil_append, List.filterMap_nil, List.append_nil, List.append_assoc]
      exact (List.perm_append_singleton m _).append_left _
    | sent e rest hl m he q hq => simp [dropped_deliver hl, he, hq] at hd
    | kept e rest hl he => simp [dropped_deliver hl, he] at hd
    | returned b rest hl q hq => simp [dropped_deliver hl] at hd
    | upload | getBuffer | recv | otaReceive | iterated | restarted => exact absurd rfl hd

/-! ## Runs -/

/-- All that was posted in a run, as messages. -/
def postedAlong (es : List PipelineEvent) : List (OtaMsg Chunk) :=
  collect Pipeline.step Pipeline.postedMsgs .boot es

/-- All that `ota_task` received in a run. -/
def receivedAlong (es : List PipelineEvent) : List (OtaMsg Chunk) :=
  collect Pipeline.step Pipeline.receivedMsgs .boot es

def droppedAlong (es : List PipelineEvent) : List (OtaMsg Chunk) :=
  collect Pipeline.step Pipeline.dropped .boot es

variable {s : Pipeline} {es : List PipelineEvent}

theorem droppedAlong_eq_nil : droppedAlong es = [] ↔ Along Pipeline.step Pipeline.Room .boot es := by
  rw [droppedAlong, collect_eq_nil]
  exact along_congr fun _ _ => dropped_eq_nil

theorem received_inFlight (h : Pipeline.run es = some s) (hd : droppedAlong es = []) :
    receivedAlong es ++ s.inFlight = postedAlong es :=
  in_order Pipeline.inFlight h (collect_eq_nil.mp hd) fun _ _ _ hd hstep => (Pipeline.step_cases hstep).order hd

/-- Every message posted was received, is on its way or was dropped, once. -/
theorem messages_perm (h : Pipeline.run es = some s) :
    (receivedAlong es ++ s.inFlight ++ droppedAlong es).Perm (postedAlong es) := by
  refine exec_history (I := fun es s => (receivedAlong es ++ s.inFlight ++ droppedAlong es).Perm (postedAlong es))
    h .nil ?_
  intro es s e t hs ih hstep
  have hstep := (Pipeline.step_cases hstep).messages
  rw [List.perm_iff_count] at ih hstep ⊢
  intro m
  have ih := ih m
  have hstep := hstep m
  rw [receivedAlong, postedAlong, droppedAlong, collect_snoc hs, collect_snoc hs, collect_snoc hs,
    ← receivedAlong, ← postedAlong, ← droppedAlong]
  simp only [List.count_append] at ih hstep ⊢
  omega

/-- What was dropped is missing in the end. -/
theorem received_eq_posted_iff (h : Pipeline.run es = some s) (hl : s.loop = []) (hq : s.otaQueue.items = []) :
    receivedAlong es = postedAlong es ↔ droppedAlong es = [] := by
  have hflight : s.inFlight = [] := by rw [Pipeline.inFlight, hl, hq, List.filterMap_nil, List.append_nil]
  constructor
  · intro heq
    have hlength := (messages_perm h).length_eq
    rw [heq, hflight, List.append_nil, List.length_append] at hlength
    rw [← List.length_eq_zero_iff]
    omega
  · intro hd
    rw [← received_inFlight h hd, hflight, List.append_nil]

/-! ## A full queue -/

/-- A START is in `ota_queue`, or the next to be sent there. -/
def Pipeline.StartWaits (s : Pipeline) : Prop :=
  .dataArrivalStarting ∈ s.otaQueue.items ∨ s.loop.head?.bind LoopEvent.message = some .dataArrivalStarting

/-- A message is a START, a completion or a buffer's. -/
theorem length_msgs (ms : List (OtaMsg Chunk)) :
    ms.length = ms.count .dataArrivalStarting + ms.count .dataCompletion + (ms.flatMap OtaMsg.buffers).length := by
  induction ms with
  | nil => rfl
  | cons m ms ih =>
    rw [List.length_cons, List.count_cons, List.count_cons, List.flatMap_cons, List.length_append, ih]
    cases m <;> simp [OtaMsg.buffers, bufferUsed] <;> omega

theorem count_completions_le (h : Pipeline.run es = some s) :
    s.inFlight.count .dataCompletion ≤ (es.filter PipelineEvent.endsUpload).length := by
  have hposted : (postedAlong es).count .dataCompletion ≤ (es.filter PipelineEvent.endsUpload).length := by
    refine exec_history
      (I := fun es _ => (postedAlong es).count .dataCompletion ≤ (es.filter PipelineEvent.endsUpload).length)
      h le_rfl ?_
    intro es s e t hs ih _
    rw [postedAlong, collect_snoc hs, ← postedAlong, List.count_append, List.filter_append, List.length_append]
    refine Nat.add_le_add ih ?_
    match e with
    | .recv (.ok []) => exact le_rfl
    | .recv (.ok (b :: bs)) =>
      simp only [Pipeline.postedMsgs, Pipeline.posted]
      split <;> simp [routineHttpServerEventsHandler]
    | .recv (.error _) | .upload | .getBuffer | .deliver | .otaReceive | .otaIterate _ => exact Nat.zero_le _
  have hcount := (messages_perm h).count_eq .dataCompletion
  rw [List.count_append, List.count_append] at hcount
  omega

/-- Of the messages other than a START each has a buffer, or has kept one at a completion; there are three
buffers, so there is no fourth of them. -/
theorem startWaits_of_not_room (h : Pipeline.run es = some s) {e : PipelineEvent} (hroom : ¬ s.Room e) :
    s.StartWaits := by
  by_contra hwaits
  simp only [Pipeline.StartWaits, not_or] at hwaits
  simp only [Pipeline.Room, Classical.not_imp, Option.isSome_iff_exists] at hroom
  obtain ⟨-, ⟨m, hm⟩, hfull⟩ := hroom
  rw [hm] at hwaits
  obtain ⟨next, hnext, hmsg⟩ := Option.bind_eq_some_iff.mp hm
  obtain ⟨rest, hl⟩ := List.head?_eq_some_iff.mp hnext
  have hlength := length_msgs (s.otaQueue.items ++ [m])
  have hstart : (s.otaQueue.items ++ [m]).count .dataArrivalStarting = 0 := by
    rw [List.count_eq_zero, List.mem_append, List.mem_singleton]
    rintro (hmem | hmem)
    · exact hwaits.1 hmem
    · exact hwaits.2 (congrArg some hmem.symm)
  have hcompletions : (s.otaQueue.items ++ [m]).count .dataCompletion ≤ (lostAlong es).length := by
    refine le_trans ?_ ((count_completions_le h).trans (ended_le_lost h))
    refine List.Sublist.count_le _ ?_
    rw [Pipeline.inFlight, hl, List.filterMap_cons, hmsg]
    exact List.Sublist.append_left (List.Sublist.cons_cons m (List.nil_sublist _)) _
  have hbuffers : ((s.otaQueue.items ++ [m]).flatMap OtaMsg.buffers).length ≤ s.owned.length := by
    have hnextBuffers : m.buffers = next.buffers := by
      cases next with
      | httpServer e => exact buffers_of_message hmsg
      | dataBufferUsed _ => cases hmsg
    simp only [Pipeline.owned, hl, List.flatMap_append, List.flatMap_cons, List.flatMap_nil, List.length_append,
      List.append_nil, hnextBuffers]
    omega
  have hthree := length_owned_lost h
  rw [List.length_append, List.length_singleton] at hlength
  simp only [otaQueueSize, totalChunkBuffers] at hfull hthree
  omega

/-- **`ota_task` receives what was posted, in order, and all of it in the end, nothing being dropped,
exactly in the runs where each message finds room in `ota_queue`.** One that does not is missing from what
`ota_task` has received in the end, and the queue it meets holds a START, unless it is a START itself: three
buffers fill the queue, and a completion comes in the place of one. -/
theorem transfer_events_reach_iff (es : List PipelineEvent) (s : Pipeline) (hrun : Pipeline.run es = some s) :
    ((receivedAlong es <+: postedAlong es ∧
        (s.loop = [] → s.otaQueue.items = [] → receivedAlong es = postedAlong es) ∧ droppedAlong es = []) ↔
      Along Pipeline.step Pipeline.Room .boot es) ∧
    (s.loop = [] → s.otaQueue.items = [] →
      (receivedAlong es = postedAlong es ↔ Along Pipeline.step Pipeline.Room .boot es)) ∧
    ∀ e, ¬ s.Room e → s.StartWaits := by
  rw [← droppedAlong_eq_nil]
  refine ⟨⟨fun h => h.2.2, fun hd => ?_⟩, received_eq_posted_iff hrun, fun e => startWaits_of_not_room hrun⟩
  exact ⟨⟨s.inFlight, received_inFlight hrun hd⟩, fun hl hq => (received_eq_posted_iff hrun hl hq).mpr hd, hd⟩

theorem transfer_events_reach_chunk :
    (∃ s, Pipeline.run (chunkEvents ++ endEvents) = some s ∧ s.loop = [] ∧ s.otaQueue.items = []) ∧
      receivedAlong (chunkEvents ++ endEvents) =
        [.dataArrivalStarting, .dataPacketArrived ⟨0, 1⟩, .dataCompletion] ∧
      receivedAlong (chunkEvents ++ endEvents) = postedAlong (chunkEvents ++ endEvents) := by
  refine ⟨⟨_, rfl, rfl, rfl⟩, by decide +kernel, ?_⟩
  have hroom := droppedAlong_eq_nil.mp (by decide +kernel : droppedAlong (chunkEvents ++ endEvents) = [])
  exact ((transfer_events_reach_iff _ _ rfl).2.1 rfl rfl).mpr hroom

/-- A start and two chunks fill the queue; the third chunk is gone, and the completion follows. -/
def holeEvents : List PipelineEvent :=
  [.upload, .getBuffer, .recv (.ok [1]), .getBuffer, .recv (.ok [2]), .getBuffer, .recv (.ok [3]),
    .deliver, .deliver, .deliver, .deliver, .otaReceive, .otaIterate {}, .otaReceive, .otaIterate {}, .otaReceive,
    .otaIterate {}, .deliver, .deliver, .getBuffer, .recv (.ok []), .deliver, .otaReceive, .otaIterate {}]

theorem chunk_dropped :
    (∃ s, Pipeline.run holeEvents = some s ∧ s.loop = [] ∧ s.otaQueue.items = []) ∧
      postedAlong holeEvents =
        [.dataArrivalStarting, .dataPacketArrived ⟨0, 1⟩, .dataPacketArrived ⟨1, 1⟩, .dataPacketArrived ⟨2, 1⟩,
          .dataCompletion] ∧
      receivedAlong holeEvents =
        [.dataArrivalStarting, .dataPacketArrived ⟨0, 1⟩, .dataPacketArrived ⟨1, 1⟩, .dataCompletion] := by
  exact ⟨⟨_, rfl, rfl, rfl⟩, by decide +kernel, by decide +kernel⟩

end GateNode.Ota
