/-
The pipeline is the uploads one after another: where `ota_queue` has room for
each message, what `ota_task` handles in any order of the steps is what
`file_upload_handler` makes of the receives, with the bytes received.
-/
import GateNode.Ota.Buffers
import GateNode.Ota.Delivery
import GateNode.Ota.Uploads

namespace GateNode.Ota

open GateNode.Http (RecvResult HttpServerEvent uploadLoop fileUploadHandler)
open Lts

/-- The message `ota_task` handles in a step, as it reads it. -/
def Pipeline.handled (s : Pipeline) : PipelineEvent → List OtaStep
  | .otaIterate idf => s.msg.toList.map fun m => (m.read s.recvBuf, idf)
  | _ => []

def handledAlong (es : List PipelineEvent) : List OtaStep := collect Pipeline.step Pipeline.handled .boot es

/-- A request taken up, or one more receive of the last one. -/
def takeUp (us : List (List RecvResult)) : PipelineEvent → List (List RecvResult)
  | .upload => [] :: us
  | .recv r =>
    match us with
    | [] => []
    | recvs :: us => (recvs ++ [r]) :: us
  | _ => us

/-- The receives of each upload taken up, the last upload first. -/
def uploadsMade (es : List PipelineEvent) : List (List RecvResult) := es.foldl takeUp []

/-- What these uploads send to `ota_task`. -/
def messagesMade (es : List PipelineEvent) : List (OtaMsg (List UInt8)) :=
  (uploadsMade es).reverse.flatMap uploadMessages

/-- What a step adds to that. -/
def postedData : PipelineEvent → List (OtaMsg (List UInt8))
  | .upload => [.dataArrivalStarting]
  | .recv r => (uploadLoop [r]).1.filterMap routineHttpServerEventsHandler
  | _ => []

/-- The messages `ota_task` has still to handle, as it would read them. -/
def Pipeline.pending (s : Pipeline) : List (OtaMsg (List UInt8)) :=
  (s.msg.toList ++ s.inFlight).map (OtaMsg.read s.recvBuf)

variable {s t : Pipeline} {e : PipelineEvent} {es : List PipelineEvent}

/-! ## The task -/

theorem Pipeline.Step.task (h : Step s e t) {task : OtaTask} (htask : s.ota = some task) :
    exec otaStep task (s.handled e) = t.ota := by
  cases h with
  | recv b hh r =>
    rw [received_ota]
    exact htask.symm
  | iterated m hm idf task' u htask' ht | restarted m hm idf task' htask' ht =>
    rw [htask, Option.some.injEq] at htask'
    subst htask'
    simp only [handled, hm, Option.toList_some, List.map_cons, List.map_nil, exec, otaStep, ht]
    rfl
  | _ => exact htask.symm

/-- The task is where its messages bring it. -/
theorem exec_handledAlong (h : Pipeline.run es = some s) : exec otaStep {} (handledAlong es) = s.ota := by
  refine exec_history (I := fun es s => exec otaStep {} (handledAlong es) = s.ota) h rfl ?_
  intro es s e t hs ih hstep
  obtain ⟨task, htask, -⟩ := Option.bind_eq_some_iff.mp hstep
  rw [handledAlong, collect_snoc hs, exec_append, ← handledAlong, ih, htask, Option.bind_some]
  exact (Pipeline.step_cases hstep).task htask

/-! ## The messages -/

theorem uploadLoop_append {recvs : List RecvResult} (h : (uploadLoop recvs).2 = none) (r : RecvResult) :
    uploadLoop (recvs ++ [r]) = ((uploadLoop recvs).1 ++ (uploadLoop [r]).1, (uploadLoop [r]).2) := by
  induction recvs with
  | nil => rfl
  | cons q recvs ih =>
    match q with
    | .error _ | .ok [] => cases h
    | .ok (b :: bs) =>
      simp only [List.cons_append, uploadLoop]
      rw [ih h]

theorem uploadMessages_append {recvs : List RecvResult} (h : (uploadLoop recvs).2 = none) (r : RecvResult) :
    uploadMessages (recvs ++ [r]) =
      uploadMessages recvs ++ (uploadLoop [r]).1.filterMap routineHttpServerEventsHandler := by
  simp only [uploadMessages, fileUploadHandler, uploadLoop_append h, List.filterMap_cons, List.filterMap_append]
  rfl

/-- An upload under way is the last one taken up, and its receives have not ended it. -/
def Uploading (s : Pipeline) (us : List (List RecvResult)) : Prop :=
  s.handler ≠ .idle → ∃ recvs rest, us = recvs :: rest ∧ (uploadLoop recvs).2 = none

theorem Pipeline.Step.uploading (h : Step s e t) {us : List (List RecvResult)} (hu : Uploading s us) :
    Uploading t (takeUp us e) := by
  intro hidle
  cases h with
  | upload hh => exact ⟨[], us, rfl, rfl⟩
  | getBuffer hh b q hq => exact hu (by rw [hh]; nofun)
  | recv b hh r =>
    obtain ⟨recvs, rest, rfl, hnone⟩ := hu (by rw [hh]; nofun)
    refine ⟨recvs ++ [r], rest, rfl, ?_⟩
    rw [uploadLoop_append hnone]
    match r with
    | .error _ | .ok [] => exact absurd rfl hidle
    | .ok (_ :: _) => rfl
  | _ => exact hu hidle

theorem uploading_run (h : Pipeline.run es = some s) : Uploading s (uploadsMade es) := by
  refine exec_history (I := fun es s => Uploading s (uploadsMade es)) h (fun hidle => absurd rfl hidle) ?_
  intro es s e t hs ih hstep
  rw [uploadsMade, List.foldl_append]
  exact (Pipeline.step_cases hstep).uploading ih

theorem messagesMade_snoc (h : Pipeline.run es = some s) (hstep : s.step e = some t) :
    messagesMade (es ++ [e]) = messagesMade es ++ postedData e := by
  have hmade : uploadsMade (es ++ [e]) = takeUp (uploadsMade es) e := by
    rw [uploadsMade, List.foldl_append]
    rfl
  have hu := uploading_run h
  rw [messagesMade, messagesMade, hmade]
  generalize uploadsMade es = us at hu
  cases Pipeline.step_cases hstep with
  | upload hh => simp [takeUp, postedData, uploadMessages_eq, laterMessages, chunks, completes]
  | recv b hh r =>
    obtain ⟨recvs, rest, rfl, hnone⟩ := hu (by simp [hh])
    simp only [takeUp, postedData, List.reverse_cons, List.flatMap_append, List.flatMap_cons,
      List.flatMap_nil, List.append_nil, uploadMessages_append hnone, List.append_assoc]
  | _ => simp [takeUp, postedData]

/-- What a step posts can be read back. -/
theorem Pipeline.Step.read_posted (h : Step s e t) :
    (s.postedMsgs e).map (OtaMsg.read t.recvBuf) = postedData e := by
  cases h with
  | recv b hh r =>
    match r with
    | .error _ | .ok [] => rfl
    | .ok (_ :: _) =>
      simp [postedMsgs, posted, hh, postedData, uploadLoop, routineHttpServerEventsHandler, OtaMsg.read, received,
        post]
  | _ => rfl

/-- The message done with in a step. -/
def Pipeline.finished (s : Pipeline) : PipelineEvent → List (OtaMsg Chunk)
  | .otaIterate _ => s.msg.toList
  | _ => []

theorem Pipeline.Step.order_msg (h : Step s e t) (hd : s.dropped e = []) (hota : t.ota.isSome = true) :
    s.finished e ++ (t.msg.toList ++ t.inFlight) = s.msg.toList ++ s.inFlight ++ s.postedMsgs e := by
  have horder := h.order hd
  cases h with
  | otaReceive hm m q hq =>
    rw [hm, Option.toList_none, List.nil_append, ← horder]
    simp only [finished, receivedMsgs, hq, List.head?_cons, Option.toList_some, List.nil_append]
  | iterated m hm =>
    rw [List.append_assoc, ← horder]
    rfl
  | restarted => cases hota
  | recv b hh r =>
    rw [List.append_assoc, ← horder, received_msg]
    rfl
  | _ =>
    rw [List.append_assoc, ← horder]
    rfl

/-- **A step that drops nothing keeps what `ota_task` is to handle**, and as it was received. -/
theorem Pipeline.Step.pending (h : Step s e t) (hs : s.owned.Nodup) (hd : s.dropped e = [])
    (hota : t.ota.isSome = true) : (s.handled e).map Prod.fst ++ t.pending = s.pending ++ postedData e := by
  have hread : (s.msg.toList ++ s.inFlight).map (OtaMsg.read t.recvBuf) = s.pending :=
    List.map_congr_left fun m hm => h.read hs hm
  have hhandled : (s.finished e).map (OtaMsg.read t.recvBuf) = (s.handled e).map Prod.fst := by
    cases e with
    | otaIterate idf =>
      rw [handled, finished, List.map_map]
      exact List.map_congr_left fun m hm => h.read hs (List.mem_append_left _ hm)
    | _ => rfl
  calc (s.handled e).map Prod.fst ++ t.pending
      = (s.finished e ++ (t.msg.toList ++ t.inFlight)).map (OtaMsg.read t.recvBuf) := by
        rw [List.map_append, hhandled]
        rfl
    _ = (s.msg.toList ++ s.inFlight ++ s.postedMsgs e).map (OtaMsg.read t.recvBuf) := by rw [h.order_msg hd hota]
    _ = s.pending ++ postedData e := by rw [List.map_append, hread, h.read_posted]

/-- What is handled next is what comes first. -/
theorem handled_prefix_pending (s : Pipeline) (e : PipelineEvent) : (s.handled e).map Prod.fst <+: s.pending := by
  cases e with
  | otaIterate idf =>
    refine ⟨s.inFlight.map (OtaMsg.read s.recvBuf), ?_⟩
    rw [Pipeline.handled, List.map_map, Pipeline.pending, List.map_append]
    rfl
  | _ => exact List.nil_prefix

theorem handled_pending (hrun : Pipeline.run es = some s) (hd : droppedAlong es = []) :
    (s.ota.isSome = true → (handledAlong es).map Prod.fst ++ s.pending = messagesMade es) ∧
      (handledAlong es).map Prod.fst <+: messagesMade es := by
  refine exec_history (I := fun es s => droppedAlong es = [] →
    (s.ota.isSome = true → (handledAlong es).map Prod.fst ++ s.pending = messagesMade es) ∧
      (handledAlong es).map Prod.fst <+: messagesMade es) hrun (fun _ => ⟨fun _ => rfl, List.nil_prefix⟩) ?_ hd
  intro es s e t hs ih hstep hd
  rw [droppedAlong, collect_snoc hs, List.append_eq_nil_iff] at hd
  -- The device has not restarted before the step.
  obtain ⟨task, htask, -⟩ := Option.bind_eq_some_iff.mp hstep
  have hbefore := (ih hd.1).1 (by rw [htask]; rfl)
  have hhandled : (handledAlong (es ++ [e])).map Prod.fst =
      (handledAlong es).map Prod.fst ++ (s.handled e).map Prod.fst := by
    rw [handledAlong, collect_snoc hs, List.map_append]
    rfl
  rw [hhandled, messagesMade_snoc hs hstep, ← hbefore]
  constructor
  · intro hota
    rw [List.append_assoc, (Pipeline.step_cases hstep).pending (owned_nodup hs) hd.2 hota, List.append_assoc]
  · have hnext : (handledAlong es).map Prod.fst ++ (s.handled e).map Prod.fst <+:
        (handledAlong es).map Prod.fst ++ s.pending :=
      (List.prefix_append_right_inj _).mpr (handled_prefix_pending s e)
    exact hnext.trans (List.prefix_append _ _)

/-- **What `ota_task` handles is what the uploads made send it**, from the first on and all of it once
the pipeline is drained, when each message finds room in `ota_queue`. -/
theorem pipeline_refines_uploads (es : List PipelineEvent) (s : Pipeline) (hrun : Pipeline.run es = some s)
    (hroom : Along Pipeline.step Pipeline.Room .boot es) :
    exec otaStep {} (handledAlong es) = s.ota ∧ (handledAlong es).map Prod.fst <+: messagesMade es ∧
      (s.Drained → s.ota.isSome = true → (handledAlong es).map Prod.fst = messagesMade es) := by
  have hd : droppedAlong es = [] := droppedAlong_eq_nil.mpr hroom
  obtain ⟨hall, hprefix⟩ := handled_pending hrun hd
  refine ⟨exec_handledAlong hrun, hprefix, fun ⟨_, hloop, hqueue, hmsg⟩ hota => ?_⟩
  rw [← hall hota, Pipeline.pending, Pipeline.inFlight, hloop, hqueue, hmsg]
  exact (List.append_nil _).symm

/-- A chunk, given back before the next receive. -/
def chunkUploadEvents : List PipelineEvent :=
  [.upload, .getBuffer, .deliver, .otaReceive, .otaIterate {}, .recv (.ok [1, 2]), .deliver, .otaReceive,
    .otaIterate {}, .deliver]

theorem pipeline_refines_uploads_chunk :
    ∃ s, Pipeline.run chunkUploadEvents = some s ∧ messagesMade chunkUploadEvents =
        [.dataArrivalStarting, .dataPacketArrived [1, 2]] ∧
      exec otaStep {} (handledAlong chunkUploadEvents) = s.ota ∧
      (handledAlong chunkUploadEvents).map Prod.fst <+: messagesMade chunkUploadEvents ∧
      (s.Drained → s.ota.isSome = true →
        (handledAlong chunkUploadEvents).map Prod.fst = messagesMade chunkUploadEvents) :=
  ⟨_, rfl, by decide +kernel, pipeline_refines_uploads _ _ rfl (droppedAlong_eq_nil.mp (by decide +kernel))⟩

end GateNode.Ota
