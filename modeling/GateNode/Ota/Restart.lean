/-
What the device restarts into, in whatever order the tasks take their steps:
a partition begun and written with just the bytes one upload received, which
came to its end and whose first chunk passed the checks. What it takes is
that no message is dropped, and that no upload starts on top of another.
-/
import GateNode.Ota.BootImage
import GateNode.Ota.Refinement

namespace GateNode.Ota

open GateNode.Http (RecvResult)
open Lts

/-- The partition `h` is for after a call. -/
def OtaCall.target (h : Handle) (before : Option Partition) : OtaCall → Option Partition
  | .otaBegin partition h' .espOk => if h' = h then partition else before
  | _ => before

/-- The partition `h` was last begun for. -/
def begunFor (h : Handle) (trace : List OtaCall) : Option Partition := trace.foldl (OtaCall.target h) none

/-- The calls `ota_task` makes in a run of the pipeline. -/
def otaCallsAlong (es : List PipelineEvent) : List OtaCall := collect otaStep otaCalls {} (handledAlong es)

variable {s t : OtaTask} {ls : List OtaStep} {trace calls : List OtaCall} {idf : Idf}
  {msg : OtaMsg (List UInt8)} {es : List PipelineEvent}

/-! ## The partition -/

theorem begunFor_append {h : Handle} {cs : List OtaCall} :
    begunFor h (trace ++ cs) = cs.foldl (OtaCall.target h) (begunFor h trace) := List.foldl_append

/-- An open handle is for the partition `ota_task` would set to boot. -/
def OtaTask.Targets (s : OtaTask) (trace : List OtaCall) : Prop :=
  ∀ h, isOpen h trace = true → begunFor h trace = s.updatePartition

theorem Iteration.targets (h : Iteration s idf msg calls (some t)) (hs : s.Ok trace) (ht : s.Targets trace) :
    t.Targets (trace ++ calls) := by
  have hok := h.ok hs
  intro H hopen
  -- Back in the idle state, no handle is open.
  have hidle (hstate : t.state = .idle) : begunFor H (trace ++ calls) = t.updatePartition := by
    rw [hok.closed (.inl hstate) H] at hopen
    cases hopen
  cases h with
  | rejected | beginFailed | firstFailed | writeFailed | endFailed | setBootFailed => exact hidle rfl
  | started hstate | noPartition hstate =>
    rw [List.append_nil, hs.closed (.inl hstate) H] at hopen
    cases hopen
  | ignored | again =>
    rw [List.append_nil] at hopen ⊢
    exact ht H hopen
  | firstWritten hstate hchecked =>
    have hown : H = idf.updateHandle := hok.own H hopen
    rw [begunFor_append]
    simp [OtaCall.target, hown, OtaTask.begun]
  | written =>
    rw [isOpen_append] at hopen
    rw [begunFor_append]
    exact ht H hopen

theorem targets_run (h : exec otaStep {} ls = some t) : t.Targets (collect otaStep otaCalls {} ls) := by
  refine exec_history (I := fun ls t => t.Targets (collect otaStep otaCalls {} ls)) h nofun ?_
  intro ls t l u ht ih hstep
  have hok : t.Ok (collect otaStep otaCalls {} ls) := run_ok ok_boot ht
  rw [collect_snoc ht]
  exact (otaStep_iteration hok.next hstep).targets hok ih

/-! ## The upload -/

theorem completes_of_completion {recvs : List RecvResult} (h : .dataCompletion ∈ laterMessages recvs) :
    completes recvs = true := by
  rw [laterMessages, List.mem_append, List.mem_map] at h
  rcases h with ⟨data, -, hdata⟩ | h
  · cases hdata
  · by_contra hnot
    rw [if_neg hnot] at h
    cases h

/-- What is sent before a completion ends with the upload that completes. -/
theorem messages_before_completion {us : List (List RecvResult)} {before after : List (OtaMsg (List UInt8))}
    (h : us.flatMap uploadMessages = before ++ .dataCompletion :: after) :
    ∃ earlier, ∃ recvs ∈ us, completes recvs = true ∧
      before = earlier ++ .dataArrivalStarting :: (chunks recvs).map .dataPacketArrived := by
  induction us generalizing before with
  | nil => simp at h
  | cons recvs us ih =>
    rw [List.flatMap_cons, uploadMessages_eq] at h
    rcases List.append_eq_append_iff.mp h with ⟨c, rfl, hc⟩ | ⟨c, hmsgs, hc⟩
    · obtain ⟨earlier, recvs', hmem, hcompletes, rfl⟩ := ih hc
      refine ⟨.dataArrivalStarting :: laterMessages recvs ++ earlier, recvs', List.mem_cons_of_mem _ hmem, hcompletes, ?_⟩
      rw [List.append_assoc]
    · cases c with
      | nil =>
        obtain ⟨earlier, recvs', hmem, hcompletes, hnil⟩ := @ih [] hc.symm
        simp at hnil
      | cons m c =>
        obtain ⟨rfl, -⟩ := List.cons.inj hc
        cases before with
        | nil => simp at hmsgs
        | cons first before =>
          obtain ⟨rfl, hlater⟩ := List.cons.inj hmsgs
          refine ⟨[], recvs, List.mem_cons_self, completes_of_completion (by rw [hlater]; simp), ?_⟩
          rw [List.nil_append, chunks_of_completion hlater]

/-- What the task has written once an upload's messages are handled, up to its completion. -/
theorem image_of_upload {earlier done : List OtaStep} {start : Idf} {cs : List (List UInt8)}
    (hrun : exec otaStep {} (earlier ++ (.dataArrivalStarting, start) :: done) = some t) (hactive : t.state = .active)
    (hclean : Along otaStep CleanStart {} (earlier ++ (.dataArrivalStarting, start) :: done))
    (hdoc : Documented (collect otaStep otaCalls {} (earlier ++ (.dataArrivalStarting, start) :: done)))
    (hopen : isOpen t.updateHandle (collect otaStep otaCalls {} (earlier ++ (.dataArrivalStarting, start) :: done)) = true)
    (hdone : done.map Prod.fst = cs.map .dataPacketArrived) :
    writtenSinceBegin t.updateHandle (collect otaStep otaCalls {} (earlier ++ (.dataArrivalStarting, start) :: done)) =
        cs.flatten ∧
      ∃ first rest idf, cs = first :: rest ∧ (.dataPacketArrived first, idf) ∈ done ∧ headerAccepted idf first = true := by
  obtain ⟨u, hu, hrun⟩ := exec_append_eq_some.mp hrun
  obtain ⟨v, hv, hrun⟩ := exec_cons_eq_some.mp hrun
  have hu' : exec otaStep {} (earlier ++ [(.dataArrivalStarting, start)]) = some v := exec_snoc.mpr ⟨u, hu, hv⟩
  have hok : u.Ok (collect otaStep otaCalls {} earlier) := run_ok ok_boot hu
  rw [List.append_cons] at hclean hdoc hopen ⊢
  rw [collect_append hu', collect_snoc hu] at hdoc hopen ⊢
  have hiter := otaStep_iteration hok.next hv
  have hnotStarting : ∀ l ∈ done, l.1 ≠ .dataArrivalStarting := by
    intro l hl
    have hmem : l.1 ∈ done.map Prod.fst := List.mem_map_of_mem hl
    rw [hdone] at hmem
    obtain ⟨data, -, hdata⟩ := List.mem_map.mp hmem
    rw [← hdata]
    nofun
  have hcleanStart : CleanStart u (.dataArrivalStarting, start) := ((along_snoc hu).mp hclean.of_append).2
  have hphase := Phase.run (hiter.ok hok) (phase_start hok hcleanStart hiter) hrun hdoc hnotStarting
  cases hphase with
  | ignored hidle =>
    rw [hactive] at hidle
    cases hidle
  | fresh _ hclosed =>
    rw [hclosed] at hopen
    cases hopen
  | @writing first idf later _ hlater haccepted hwritten =>
    have hpackets : packets done = cs := packets_of_map_fst hdone
    refine ⟨by rw [hwritten, hpackets], first, packets later, idf, ?_, ?_, haccepted⟩
    · rw [← hpackets, hlater]
      rfl
    · rw [hlater]
      exact List.mem_cons_self

/-- **The device restarts only into one upload, whole and checked**, in whatever order the upload handler, the event
loop and `ota_task` take their steps, where each message finds room in `ota_queue` and no upload starts on an image half
written: the last calls end a handle and set the partition it was begun for to boot, and what was written through it is
just what one upload received up to its end, whose first chunk passed the checks. -/
theorem restart_into_one_upload (es : List PipelineEvent) (s : Pipeline) (hrun : Pipeline.run es = some s)
    (hroom : Along Pipeline.step Pipeline.Room .boot es) (hclean : Along otaStep CleanStart {} (handledAlong es))
    (hdoc : Documented (otaCallsAlong es)) (hrestart : s.ota = none) :
    ∃ recvs ∈ uploadsMade es, completes recvs = true ∧
      ∃ pre h partition, otaCallsAlong es = pre ++ [.otaEnd h .espOk, .otaSetBootPartition partition .espOk] ∧
        begunFor h pre = partition ∧ writtenSinceBegin h pre = (chunks recvs).flatten ∧
        ∃ first rest idf, chunks recvs = first :: rest ∧ (.dataPacketArrived first, idf) ∈ handledAlong es ∧
          headerAccepted idf first = true := by
  obtain ⟨-, hprefix⟩ := handled_pending hrun (droppedAlong_eq_nil.mpr hroom)
  have hnone := exec_handledAlong hrun
  rw [hrestart] at hnone
  obtain ⟨before, l, after, t, hsplit, ht, hstep⟩ := exec_eq_none hnone
  have hok : t.Ok (collect otaStep otaCalls {} before) := run_ok ok_boot ht
  -- The step is a completion that goes all the way.
  have hcalls : otaCallsAlong es = collect otaStep otaCalls {} before ++ otaCalls t l := by
    rw [otaCallsAlong, hsplit, collect_append ht, collect, hstep, List.append_nil]
  have hiter : Iteration t l.2 l.1 (otaCalls t l) none := hstep ▸ otaIteration_spec hok.next l.2 l.1
  obtain ⟨msg, idf⟩ := l
  generalize otaCalls t (msg, idf) = calls at hcalls hiter
  cases hiter with
  | restarted hactive =>
    rw [hcalls] at hdoc
    have hopen : isOpen t.updateHandle (collect otaStep otaCalls {} before) = true := hdoc.split
    -- Its upload is the one before it in what the uploads sent.
    rw [hsplit] at hclean hprefix
    obtain ⟨tail, htail⟩ := hprefix
    rw [List.map_append, List.map_cons, List.append_assoc, List.cons_append, messagesMade] at htail
    obtain ⟨sent, recvs, hmem, hcompletes, hbefore⟩ := messages_before_completion htail.symm
    obtain ⟨earlier, later, rfl, -, hlater⟩ := List.map_eq_append_iff.mp hbefore
    obtain ⟨⟨first, start⟩, done, rfl, hfirst, hdone⟩ := List.map_eq_cons_iff.mp hlater
    cases hfirst
    obtain ⟨hwritten, first, rest, idf', hchunks, hin, haccepted⟩ :=
      image_of_upload ht hactive hclean.of_append hdoc.of_append hopen hdone
    refine ⟨recvs, List.mem_reverse.mp hmem, hcompletes, _, t.updateHandle, t.updatePartition, hcalls,
      targets_run ht _ hopen, hwritten, first, rest, idf', hchunks, ?_, haccepted⟩
    rw [hsplit]
    exact List.mem_append_left _ (List.mem_append_right _ (List.mem_cons_of_mem _ hin))

/-- An upload of version 2 and its end, each message handled before the next comes. -/
def restartEvents : List PipelineEvent :=
  [.upload, .deliver, .otaReceive, .otaIterate allOk, .getBuffer, .recv (.ok (leastImage 50)), .deliver, .otaReceive,
    .otaIterate allOk, .deliver, .getBuffer, .recv (.ok []), .deliver, .otaReceive, .otaIterate allOk]

theorem restart_into_one_upload_completed :
    ∃ recvs ∈ uploadsMade restartEvents, completes recvs = true ∧
      ∃ pre h partition,
        otaCallsAlong restartEvents = pre ++ [.otaEnd h .espOk, .otaSetBootPartition partition .espOk] ∧
        begunFor h pre = partition ∧ writtenSinceBegin h pre = (chunks recvs).flatten ∧
        ∃ first rest idf, chunks recvs = first :: rest ∧ (.dataPacketArrived first, idf) ∈ handledAlong restartEvents ∧
          headerAccepted idf first = true := by
  have hrestart : (Pipeline.run restartEvents).map (·.ota) = some none := by decide +kernel
  obtain ⟨s, hs, hota⟩ := Option.map_eq_some_iff.mp hrestart
  exact restart_into_one_upload restartEvents s hs (droppedAlong_eq_nil.mp (by decide +kernel)) (by decide +kernel)
    (by decide +kernel) hota

end GateNode.Ota
