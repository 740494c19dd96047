/-
What is booted. Between its start and its completion an upload is ignored,
or still to be checked with no handle open, or written whole since a begin
of its own, unless it starts while the one before is still being written.
-/
import GateNode.Ota.Uploads

namespace GateNode.Ota

open GateNode.Http (EspErr RecvResult)
open Lts

/-- No upload starts while the image of another is being written. -/
def CleanStart (s : OtaTask) (l : OtaStep) : Prop :=
  l.1 = .dataArrivalStarting → s.state = .active → s.imageHeaderWasChecked = false

instance (s : OtaTask) (l : OtaStep) : Decidable (CleanStart s l) := by unfold CleanStart; infer_instance

variable {s t : OtaTask} {ls : List OtaStep} {trace calls : List OtaCall} {idf : Idf}
  {msg : OtaMsg (List UInt8)}

/-- Where the steps `ls` since its start have brought an upload. -/
inductive Phase (s : OtaTask) (trace : List OtaCall) (ls : List OtaStep) : Prop
  /-- Ignored from here on. -/
  | ignored : s.state = .idle → Phase s trace ls
  /-- Nothing done yet, with no handle to do it. -/
  | fresh : ls = [] → Closed trace → Phase s trace ls
  /-- Checked, begun, and written so far. -/
  | writing {first : List UInt8} {idf : Idf} {rest : List OtaStep} : s.imageHeaderWasChecked = true →
      ls = (.dataPacketArrived first, idf) :: rest → headerAccepted idf first = true →
      writtenSinceBegin s.updateHandle trace = (packets ls).flatten → Phase s trace ls

/-- A start brings an upload into its first phase, or has it ignored. -/
theorem phase_start (hs : s.Ok trace) (hclean : CleanStart s (.dataArrivalStarting, idf))
    (h : Iteration s idf .dataArrivalStarting calls (some t)) : Phase t (trace ++ calls) [] := by
  cases h with
  | started hstate _ =>
    rw [List.append_nil]
    exact .fresh rfl (hs.closed (.inl hstate))
  | noPartition hstate _ => exact .ignored hstate
  | ignored hstate _ => exact .ignored hstate
  | again hstate =>
    rw [List.append_nil]
    exact .fresh rfl (hs.closed (.inr (hclean rfl hstate)))

/-- What one message behind the start makes of the phase. -/
theorem Phase.step (hp : Phase s trace ls) (hdoc : Documented (trace ++ calls)) (hmsg : msg ≠ .dataArrivalStarting)
    (h : Iteration s idf msg calls (some t)) : Phase t (trace ++ calls) (ls ++ [(msg, idf)]) := by
  cases h with
  | started _ _ | noPartition _ _ | again _ => exact absurd rfl hmsg
  | ignored hstate _ => exact .ignored hstate
  | rejected | beginFailed | firstFailed | writeFailed | endFailed | setBootFailed => exact .ignored rfl
  | @firstWritten data hstate hchecked haccepted =>
    cases hp with
    | ignored hidle => rw [hstate] at hidle; cases hidle
    | fresh hnil hclosed =>
      subst hnil
      refine .writing rfl rfl haccepted ?_
      rw [writtenSinceBegin_append]
      simp [OtaCall.image, packets]
    | writing hflag _ _ _ => rw [hchecked] at hflag; cases hflag
  | @written data hstate hchecked =>
    cases hp with
    | ignored hidle => rw [hstate] at hidle; cases hidle
    | fresh hnil hclosed =>
      have hopen : isOpen s.updateHandle trace = true := hdoc.split
      rw [hclosed s.updateHandle] at hopen
      cases hopen
    | writing hflag hls haccepted hwritten =>
      refine .writing hflag (by rw [hls, List.cons_append]) haccepted ?_
      rw [writtenSinceBegin_append, hwritten, packets_snoc]
      simp [OtaCall.image]

/-- The phase of an upload under way, however far its steps have come. -/
theorem Phase.run (hs : s.Ok trace) (hp : Phase s trace []) (h : exec otaStep s ls = some t)
    (hdoc : Documented (trace ++ collect otaStep otaCalls s ls)) (hls : ∀ l ∈ ls, l.1 ≠ .dataArrivalStarting) :
    Phase t (trace ++ collect otaStep otaCalls s ls) ls := by
  refine exec_history (I := fun ls t => Documented (trace ++ collect otaStep otaCalls s ls) →
    (∀ l ∈ ls, l.1 ≠ .dataArrivalStarting) → Phase t (trace ++ collect otaStep otaCalls s ls) ls) h ?_ ?_ hdoc hls
  · intro _ _
    rw [collect_nil, List.append_nil]
    exact hp
  · intro ls t l u ht ih hstep hdoc hls
    rw [collect_snoc ht, ← List.append_assoc] at hdoc ⊢
    have hphase := ih hdoc.of_append fun m hm => hls m (List.mem_append_left _ hm)
    have hiter := otaStep_iteration (run_ok hs ht).next hstep
    exact hphase.step hdoc (hls l (List.mem_append_right _ List.mem_cons_self)) hiter

/-- Only a completion sets the boot partition, right after it has ended its handle. -/
theorem Iteration.setBoot {left : Option OtaTask} {pre post : List OtaCall} {partition : Option Partition}
    {err : EspErr} (h : Iteration s idf msg calls left)
    (hcalls : calls = pre ++ .otaSetBootPartition partition err :: post) :
    msg = .dataCompletion ∧ s.state = .active ∧ pre = [.otaEnd s.updateHandle .espOk] := by
  have hmem : .otaSetBootPartition partition err ∈ calls := by
    rw [hcalls]
    exact List.mem_append_right _ List.mem_cons_self
  cases h with
  | setBootFailed hstate | restarted hstate =>
    match pre, hcalls with
    | [_], hcalls =>
      rw [List.cons_append, List.cons.injEq] at hcalls
      exact ⟨rfl, hstate, by rw [hcalls.1]⟩
    | _ :: _ :: _, hcalls => simp at hcalls
  | _ => simp at hmem

/-- Where an upload sets the boot partition it has come to its completion with the task active, and
has just ended the task's handle. -/
theorem Upload.setBoot (u : Upload) (hok : t.Ok trace) {pre post : List OtaCall} {partition : Option Partition}
    {err : EspErr} (hboot : collect otaStep otaCalls t u.steps = pre ++ .otaSetBootPartition partition err :: post) :
    ∃ done l after t' v, u.rest = done ++ l :: after ∧ l.1 = .dataCompletion ∧
      otaStep t (.dataArrivalStarting, u.idf 0) = some t' ∧ exec otaStep t' done = some v ∧ v.state = .active ∧
      pre = otaCalls t (.dataArrivalStarting, u.idf 0) ++ collect otaStep otaCalls t' done ++
        [.otaEnd v.updateHandle .espOk] := by
  obtain ⟨done, l, after, v, p, q, hsteps, hv, hl, rfl⟩ := collect_split hboot
  obtain ⟨hmsg, hactive, rfl⟩ := (otaIteration_spec (run_ok hok hv).next l.2 l.1).setBoot hl
  rw [u.steps_eq] at hsteps
  -- A completion is not the first step, which is the start.
  cases done with
  | nil =>
    rw [List.nil_append, List.cons.injEq] at hsteps
    rw [← hsteps.1] at hmsg
    cases hmsg
  | cons d done =>
    rw [List.cons_append, List.cons.injEq] at hsteps
    obtain ⟨rfl, hrest⟩ := hsteps
    obtain ⟨t', hstart, hv⟩ := Option.bind_eq_some_iff.mp hv
    exact ⟨done, l, after, t', v, hrest, hmsg, hstart, hv, hactive, by rw [collect, hstart]⟩

/-- **What is booted is one checked upload.** After any uploads, when each of them started with no
image half written: where an upload's messages bring the task to set the boot partition, it has just
ended a handle through which exactly that upload's chunks were written since its begin, and the
first of them passed the checks. -/
theorem boot_image_of_one_upload (us : List Upload) (u : Upload) (t : OtaTask)
    (hrun : exec otaStep {} (uploadSteps us) = some t)
    (hclean : Along otaStep CleanStart {} (uploadSteps (us ++ [u]))) (hdoc : Documented (otaTrace (us ++ [u])))
    (pre post : List OtaCall) (partition : Option Partition) (err : EspErr)
    (hboot : collect otaStep otaCalls t u.steps = pre ++ .otaSetBootPartition partition err :: post) :
    ∃ pre' h, pre = pre' ++ [.otaEnd h .espOk] ∧
      writtenSinceBegin h (otaTrace us ++ pre') = (chunks u.recvs).flatten ∧
      ∃ first rest, chunks u.recvs = first :: rest ∧ headerAccepted (u.idf 1) first = true := by
  have hok : t.Ok (otaTrace us) := uploads_ok hrun
  obtain ⟨done, l, after, t', v, hrest, hmsg, hstart, hv, hactive, rfl⟩ := u.setBoot hok hboot
  have hcleanStart : CleanStart t (.dataArrivalStarting, u.idf 0) := by
    rw [uploadSteps_snoc, u.steps_eq, List.append_cons] at hclean
    exact ((along_snoc hrun).mp hclean.of_append).2
  have hended : Documented (otaTrace us ++ otaCalls t (.dataArrivalStarting, u.idf 0) ++
      collect otaStep otaCalls t' done ++
      .otaEnd v.updateHandle .espOk :: .otaSetBootPartition partition err :: post) := by
    rw [otaTrace_snoc hrun, hboot] at hdoc
    simpa using hdoc
  have hnotStarting : ∀ m ∈ done, m.1 ≠ .dataArrivalStarting := fun m hm =>
    u.rest_not_starting (by rw [hrest]; exact List.mem_append_left _ hm)
  have hiter := otaStep_iteration hok.next hstart
  have hphase := Phase.run (hiter.ok hok) (phase_start hok hcleanStart hiter) hv hended.of_append hnotStarting
  cases hphase with
  | ignored hidle =>
    rw [hactive] at hidle
    cases hidle
  | fresh _ hclosed =>
    have hopen : isOpen v.updateHandle _ = true := hended.split
    rw [hclosed v.updateHandle] at hopen
    cases hopen
  | @writing first idf later _ hlater haccepted hwritten =>
    have hpackets : packets done = chunks u.recvs := u.packets_before_completion hrest hmsg
    have hchunks : chunks u.recvs = first :: packets later := by
      rw [← hpackets, hlater]
      rfl
    refine ⟨_, v.updateHandle, rfl, ?_, first, packets later, hchunks, ?_⟩
    · rw [← List.append_assoc, hwritten, hpackets]
    · obtain ⟨tail, hsecond⟩ := u.rest_of_cons hchunks
      rw [hrest, hlater, List.cons_append, List.cons.injEq, Prod.mk.injEq] at hsecond
      rw [← hsecond.1.2]
      exact haccepted

/-! ## Runs to look at -/

/-- A least image that passes the length check, of the version whose one letter is `v`. -/
def leastImage (v : UInt8) : List UInt8 :=
  List.replicate (imageHeadersSize + versionOffset) 0 ++ v :: List.replicate (appDescSize - versionOffset) 0

/-- Version 1 runs, none is invalid, and no call fails. -/
def allOk : Idf where
  nextUpdatePartition := some 1
  runningAppInfo := List.replicate versionOffset 0 ++ [49, 0]
  updateHandle := 7

/-- Version 2, to its end. -/
def completedUpload : Upload := ⟨[.ok (leastImage 50), .ok []], rfl, fun _ => allOk⟩

/-- Version 2, until the connection fails. -/
def brokenUpload : Upload := ⟨[.ok (leastImage 50), .error (-1)], rfl, fun _ => allOk⟩

/-- A few bytes that are no image. -/
def strayUpload : Upload := ⟨[.ok [1, 2, 3], .ok []], rfl, fun _ => allOk⟩

/-- Version 2 in two chunks, to its end. -/
def twoChunks : Upload := ⟨[.ok (leastImage 50), .ok [1, 2, 3], .ok []], rfl, fun _ => allOk⟩

/-- What is no image is turned away, and the next upload is booted. -/
theorem boot_image_of_completed :
    collect otaStep otaCalls ⟨.idle, false, .idle, 0, some 1⟩ twoChunks.steps =
        [.otaBegin (some 1) 7 .espOk, .otaWrite 7 (leastImage 50) .espOk, .otaWrite 7 [1, 2, 3] .espOk,
          .otaEnd 7 .espOk, .otaSetBootPartition (some 1) .espOk] ∧
      ∃ pre' h, [.otaBegin (some 1) 7 .espOk, .otaWrite 7 (leastImage 50) .espOk, .otaWrite 7 [1, 2, 3] .espOk,
          .otaEnd 7 .espOk] = pre' ++ [.otaEnd h .espOk] ∧
        writtenSinceBegin h (otaTrace [strayUpload] ++ pre') = (chunks twoChunks.recvs).flatten ∧
        ∃ first rest, chunks twoChunks.recvs = first :: rest ∧ headerAccepted (twoChunks.idf 1) first = true :=
  ⟨by decide +kernel, boot_image_of_one_upload [strayUpload] twoChunks ⟨.idle, false, .idle, 0, some 1⟩
    (by decide +kernel) (by decide +kernel) (by decide +kernel) _ [] (some 1) .espOk (by decide +kernel)⟩

/-- An upload breaks off, and the next, which is no image, is booted behind it, its header unseen. -/
theorem stray_upload_booted :
    exec otaStep {} (uploadSteps [brokenUpload]) = some ⟨.active, true, .active, 7, some 1⟩ ∧
      collect otaStep otaCalls ⟨.active, true, .active, 7, some 1⟩ strayUpload.steps =
        [.otaWrite 7 [1, 2, 3] .espOk, .otaEnd 7 .espOk, .otaSetBootPartition (some 1) .espOk] ∧
      Documented (otaTrace [brokenUpload, strayUpload]) ∧
      writtenSinceBegin 7 (otaTrace [brokenUpload] ++ [.otaWrite 7 [1, 2, 3] .espOk]) =
        leastImage 50 ++ [1, 2, 3] ∧
      writtenSinceBegin 7 (otaTrace [brokenUpload] ++ [.otaWrite 7 [1, 2, 3] .espOk]) ≠
        (chunks strayUpload.recvs).flatten ∧
      headerAccepted (strayUpload.idf 1) [1, 2, 3] = false := by
  decide +kernel

end GateNode.Ota
