/-
What an upload leaves. `image_header_was_checked` is set when a first packet
passes its checks and nothing resets it, and no message says that a transfer
failed; so the task is as at boot only after uploads that were turned away
before their image began.
-/
import GateNode.Ota.BootImage

namespace GateNode.Ota

open GateNode.Http (EspErr)
open Lts

/-- The task is in its initial condition, and goes on as if the next upload were the first. -/
structure AsAtBoot (s : OtaTask) (trace : List OtaCall) : Prop where
  idle : s.state = .idle
  unchecked : s.imageHeaderWasChecked = false
  closed : Closed trace
  asFirst : ∀ u : Upload, exec otaStep s u.steps = exec otaStep {} u.steps ∧
    collect otaStep otaCalls s u.steps = collect otaStep otaCalls {} u.steps

/-- Turned away before its image began: no partition to write, a first chunk
that fails the checks, or no chunk at all and a proper end. -/
def Upload.LeavesBoot (u : Upload) : Prop :=
  match (u.idf 0).nextUpdatePartition, chunks u.recvs with
  | none, _ => True
  | some _, [] => completes u.recvs = true
  | some _, first :: _ => headerAccepted (u.idf 1) first = false

variable {s t : OtaTask} {ls : List OtaStep} {trace : List OtaCall} {u : Upload}

theorem otaStep_ignored (hn : s.nextState = s.state) (hidle : s.state = .idle) {l : OtaStep}
    (hl : l.1 ≠ .dataArrivalStarting) : otaStep s l = some s := by
  obtain ⟨msg, idf⟩ := l
  have h := otaIteration_spec hn idf msg
  unfold otaStep
  dsimp only at hl ⊢
  generalize (otaIteration s idf msg).1 = calls at h
  generalize (otaIteration s idf msg).2 = left at h ⊢
  cases h with
  | started _ _ | noPartition _ _ => exact absurd rfl hl
  | ignored _ _ | again _ | written _ _ => rfl
  | rejected hactive | beginFailed hactive | firstWritten hactive | firstFailed hactive | writeFailed hactive
  | endFailed hactive | setBootFailed hactive | restarted hactive =>
    rw [hidle] at hactive
    cases hactive

/-- Once idle, the task lets the rest of an upload pass. -/
theorem run_ignored (hn : s.nextState = s.state) (hidle : s.state = .idle)
    (hls : ∀ l ∈ ls, l.1 ≠ .dataArrivalStarting) : exec otaStep s ls = some s := by
  induction ls with
  | nil => rfl
  | cons l ls ih =>
    rw [exec, otaStep_ignored hn hidle (hls l List.mem_cons_self), Option.bind_some]
    exact ih fun m hm => hls m (List.mem_cons_of_mem _ hm)

theorem Iteration.checked {idf : Idf} {msg : OtaMsg (List UInt8)} {calls : List OtaCall}
    (h : Iteration s idf msg calls (some t)) (hs : s.imageHeaderWasChecked = true) :
    t.imageHeaderWasChecked = true := by
  cases h <;> first | exact hs | rfl

/-- Once an image has begun, the flag stays. -/
theorem run_checked (hok : s.Ok trace) (hs : s.imageHeaderWasChecked = true) (h : exec otaStep s ls = some t) :
    t.imageHeaderWasChecked = true := by
  refine exec_history (I := fun _ t => t.imageHeaderWasChecked = true) h hs ?_
  intro ls t l u ht hchecked hstep
  exact (otaStep_iteration (run_ok hok ht).next hstep).checked hchecked

/-- With no chunk, only a completion takes the task back to its idle state. -/
theorem idle_after_nil (hnext : s.nextState = s.state) (hactive : s.state = .active)
    (hunchecked : s.imageHeaderWasChecked = false) (hchunks : chunks u.recvs = [])
    (h : exec otaStep s u.rest = some t) :
    t.state = .idle ∧ t.imageHeaderWasChecked = false ↔ completes u.recvs = true := by
  rw [u.rest_of_nil hchunks] at h
  cases hcompletes : completes u.recvs with
  | false =>
    rw [hcompletes] at h
    cases h
    rw [hactive]
    simp
  | true =>
    rw [hcompletes] at h
    obtain ⟨t', hstep, h⟩ := Option.bind_eq_some_iff.mp h
    cases h
    have hend := otaStep_iteration hnext hstep
    generalize otaCalls _ _ = calls at hend
    cases hend with
    | ignored hidle _ =>
      rw [hactive] at hidle
      cases hidle
    | endFailed _ | setBootFailed _ => exact iff_of_true ⟨rfl, hunchecked⟩ rfl

/-- With a chunk, the checks of the first decide. -/
theorem idle_after_cons (hok : s.Ok trace) (hactive : s.state = .active)
    (hunchecked : s.imageHeaderWasChecked = false) {first : List UInt8} {later : List (List UInt8)} (hchunks : chunks u.recvs = first :: later)
    (h : exec otaStep s u.rest = some t) :
    t.state = .idle ∧ t.imageHeaderWasChecked = false ↔ headerAccepted (u.idf 1) first = false := by
  obtain ⟨tail, hrest⟩ := u.rest_of_cons hchunks
  have htail : ∀ l ∈ tail, l.1 ≠ .dataArrivalStarting := fun l hl =>
    u.rest_not_starting (by rw [hrest]; exact List.mem_cons_of_mem _ hl)
  rw [hrest] at h
  obtain ⟨t', hstep, h⟩ := Option.bind_eq_some_iff.mp h
  have hiter := otaStep_iteration hok.next hstep
  have hok' := hiter.ok hok
  have accepted (hchecked : t'.imageHeaderWasChecked = true) (haccepted : headerAccepted (u.idf 1) first = true) :
      t.state = .idle ∧ t.imageHeaderWasChecked = false ↔ headerAccepted (u.idf 1) first = false := by
    rw [run_checked hok' hchecked h, haccepted]
    simp
  generalize otaCalls _ _ = calls at hiter hok'
  cases hiter with
  | ignored hidle _ =>
    rw [hactive] at hidle
    cases hidle
  | rejected _ _ hrejected =>
    have ht := run_ignored hok'.next rfl htail
    rw [h, Option.some.injEq] at ht
    rw [ht]
    exact iff_of_true ⟨rfl, hunchecked⟩ hrejected
  | beginFailed _ _ haccepted | firstWritten _ _ haccepted | firstFailed _ _ haccepted =>
    exact accepted rfl haccepted
  | written _ hchecked | writeFailed _ hchecked =>
    rw [hchecked] at hunchecked
    cases hunchecked

/-- An upload that met the task as at boot leaves it so exactly when it was turned away. -/
theorem upload_leaves_iff (hok : s.Ok trace) (hidle : s.state = .idle)
    (hunchecked : s.imageHeaderWasChecked = false) (h : exec otaStep s u.steps = some t) :
    t.state = .idle ∧ t.imageHeaderWasChecked = false ↔ u.LeavesBoot := by
  rw [u.steps_eq] at h
  obtain ⟨t', hstart, h⟩ := Option.bind_eq_some_iff.mp h
  have hiter := otaStep_iteration hok.next hstart
  have hok' := hiter.ok hok
  unfold Upload.LeavesBoot
  generalize otaCalls s (.dataArrivalStarting, u.idf 0) = calls at hiter hok'
  cases hiter with
  | ignored _ hmsg => exact absurd rfl hmsg
  | again hactive =>
    rw [hidle] at hactive
    cases hactive
  | noPartition _ hpartition =>
    have ht := run_ignored hok'.next hidle fun l hl => u.rest_not_starting hl
    rw [h, Option.some.injEq] at ht
    rw [ht, show (u.idf 0).nextUpdatePartition = none from hpartition]
    exact iff_of_true ⟨hidle, hunchecked⟩ trivial
  | started _ hpartition =>
    rw [show (u.idf 0).nextUpdatePartition = some _ from hpartition]
    cases hchunks : chunks u.recvs with
    | nil => exact idle_after_nil hok'.next rfl hunchecked hchunks h
    | cons first later => exact idle_after_cons hok' rfl hunchecked hchunks h

/-- The partition left from before makes no difference. -/
theorem asAtBoot (hok : s.Ok trace) (hidle : s.state = .idle) (hunchecked : s.imageHeaderWasChecked = false) :
    AsAtBoot s trace := by
  refine ⟨hidle, hunchecked, hok.closed (.inl hidle), fun u => ?_⟩
  have hnext := hok.next
  have hhandle := hok.unbegun hunchecked
  obtain ⟨state, checked, nextState, handle, partition⟩ := s
  cases hidle
  cases hunchecked
  cases hnext
  subst hhandle
  have hstep (idf : Idf) : otaStep ⟨.idle, false, .idle, 0, partition⟩ (.dataArrivalStarting, idf) =
      otaStep {} (.dataArrivalStarting, idf) := by
    simp only [otaStep, otaIteration, idleCase]
  have hcalls (idf : Idf) : otaCalls ⟨.idle, false, .idle, 0, partition⟩ (.dataArrivalStarting, idf) =
      otaCalls {} (.dataArrivalStarting, idf) := rfl
  rw [u.steps_eq]
  constructor
  · rw [exec, exec, hstep]
  · rw [collect, collect, hstep, hcalls]

/-- **Finished uploads leave the task as at boot exactly when each was turned away before its image
began**, for any uploads, up to the one that restarts the device. -/
theorem uploads_leave_boot_iff (us : List Upload) :
    (∀ vs t, vs <+: us → exec otaStep {} (uploadSteps vs) = some t → AsAtBoot t (otaTrace vs)) ↔
      ∀ vs u, vs ++ [u] <+: us → (exec otaStep {} (uploadSteps (vs ++ [u]))).isSome = true → u.LeavesBoot := by
  have split (vs : List Upload) (u : Upload) (t : OtaTask)
      (h : exec otaStep {} (uploadSteps (vs ++ [u])) = some t) :
      ∃ s, exec otaStep {} (uploadSteps vs) = some s ∧ exec otaStep s u.steps = some t := by
    rw [uploadSteps_snoc] at h
    exact exec_append_eq_some.mp h
  constructor
  · intro hboot vs u hpre hsome
    obtain ⟨t, ht⟩ := Option.isSome_iff_exists.mp hsome
    obtain ⟨s, hs, hu⟩ := split vs u t ht
    have before := hboot vs s ((List.prefix_append _ _).trans hpre) hs
    have after := hboot (vs ++ [u]) t hpre ht
    exact (upload_leaves_iff (uploads_ok hs) before.idle before.unchecked hu).mp ⟨after.idle, after.unchecked⟩
  · intro hleaves vs
    induction vs using List.reverseRecOn with
    | nil =>
      intro t _ ht
      cases ht
      exact asAtBoot ok_boot rfl rfl
    | append_singleton vs u ih =>
      intro t hpre ht
      obtain ⟨s, hs, hu⟩ := split vs u t ht
      have before := ih s ((List.prefix_append _ _).trans hpre) hs
      have hleft := hleaves vs u hpre (Option.isSome_iff_exists.mpr ⟨t, ht⟩)
      have after := (upload_leaves_iff (uploads_ok hs) before.idle before.unchecked hu).mpr hleft
      exact asAtBoot (uploads_ok ht) after.1 after.2

/-! ## A run to look at -/

/-- Version 2, whose write fails. -/
def writeFailedUpload : Upload :=
  ⟨[.ok (leastImage 50), .ok []], completedUpload.ended, fun _ => { allOk with otaWrite := .espFail }⟩

/-- A few bytes that are no image, where a write could only fail. -/
def refusedUpload : Upload :=
  ⟨[.ok [1, 2, 3], .ok []], strayUpload.ended, fun _ => { allOk with otaWrite := .espFail }⟩

/-- A write fails; the bytes of the next upload go to the handle aborted, where at boot they are never written. -/
theorem flag_left_by_failed_write :
    exec otaStep {} (uploadSteps [writeFailedUpload]) = some ⟨.idle, true, .idle, 7, some 1⟩ ∧
      Documented (otaTrace [writeFailedUpload, refusedUpload]) ∧
      collect otaStep otaCalls ⟨.idle, true, .idle, 7, some 1⟩ refusedUpload.steps =
        [.otaWrite 7 [1, 2, 3] .espFail, .otaAbort 7] ∧
      collect otaStep otaCalls {} refusedUpload.steps = [] := by
  decide +kernel

end GateNode.Ota
