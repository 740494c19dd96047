/-
How long the update service lasts. Each upload that ends keeps the buffer it
received into, and so does each chunk that `ota_queue` has no room for. Until
the third buffer is lost nothing waits for good; from then on nothing is
received any more.
-/
import Mathlib.Algebra.GroupWithZero.Nat
import GateNode.Lib.Rank
import GateNode.Ota.Buffers

namespace GateNode.Ota

open GateNode.Http (HttpServerEvent)
open Lts

/-- The buffers lost along a run. -/
def lostAlong (es : List PipelineEvent) : List Buffer := collect Pipeline.step Pipeline.lost .boot es

/-- The answer ends the upload. -/
def PipelineEvent.endsUpload : PipelineEvent → Bool
  | .recv (.ok (_ :: _)) => false
  | .recv _ => true
  | _ => false

/-- A step of the device alone, which waits for no client. -/
def PipelineEvent.Alone : PipelineEvent → Prop
  | .upload | .recv _ => False
  | .getBuffer | .deliver | .otaReceive | .otaIterate _ => True

/-- The steps to come for an event. -/
def LoopEvent.work : LoopEvent → Nat
  | .httpServer _ => 4
  | .dataBufferUsed _ => 1

def UploadHandler.work : UploadHandler → Nat
  | .wantsBuffer => 1
  | _ => 0

/-- The steps to come while no client does anything: an event becomes a message, the message is received and handled,
and its buffer comes back. -/
def Pipeline.work (s : Pipeline) : Nat :=
  s.handler.work + (s.loop.map LoopEvent.work).sum + 3 * s.otaQueue.items.length + 2 * s.msg.toList.length +
    s.ota.toList.length

variable {s t : Pipeline} {e : PipelineEvent} {es later : List PipelineEvent}

/-! ## Losses -/

/-- Each buffer is with someone or lost, once. -/
theorem owned_lost_perm (h : Pipeline.run es = some s) :
    (s.owned ++ lostAlong es).Perm (List.finRange totalChunkBuffers) := by
  rw [List.perm_iff_count]
  intro b
  have hcount := count_owned_run h b
  rw [List.count_append, (List.nodup_finRange _).count, if_pos (List.mem_finRange b)]
  exact hcount

theorem length_owned_lost (h : Pipeline.run es = some s) :
    s.owned.length + (lostAlong es).length = totalChunkBuffers := by
  rw [← List.length_append, (owned_lost_perm h).length_eq, List.length_finRange]

/-- An upload that ends loses the buffer it was received into. -/
theorem Pipeline.Step.ends (h : Step s e t) (he : e.endsUpload = true) : (s.lost e).length = 1 := by
  cases h with
  | recv b hh r =>
    match r with
    | .ok (_ :: _) => simp [PipelineEvent.endsUpload] at he
    | .error _ | .ok [] => simp [Pipeline.lost, hh, UploadHandler.buffers]
  | upload | getBuffer | kept | sent | dropped | returned | otaReceive | iterated | restarted =>
    simp [PipelineEvent.endsUpload] at he

theorem ended_le_lost (h : Pipeline.run es = some s) :
    (es.filter PipelineEvent.endsUpload).length ≤ (lostAlong es).length := by
  refine exec_history (I := fun es _ => (es.filter PipelineEvent.endsUpload).length ≤ (lostAlong es).length) h le_rfl ?_
  intro es s e t hs ih hstep
  rw [lostAlong, collect_snoc hs, List.filter_append, List.length_append, List.length_append]
  unfold lostAlong at ih
  cases he : e.endsUpload with
  | false =>
    rw [List.filter_cons_of_neg (by simp [he]), List.filter_nil, List.length_nil]
    omega
  | true =>
    have hone := (Pipeline.step_cases hstep).ends he
    rw [List.filter_cons_of_pos he, List.filter_nil, List.length_singleton]
    omega

/-! ## Before the third -/

theorem Pipeline.Step.work_lt (h : Step s e t) (he : e.Alone) : t.work < s.work := by
  cases h with
  | upload => exact he.elim
  | recv => exact he.elim
  | getBuffer hh b q hq =>
    simp only [work, hh, UploadHandler.work]
    omega
  | kept e rest hl _ =>
    simp only [work, hl, List.map_cons, List.sum_cons, LoopEvent.work]
    omega
  | sent e rest hl m _ q hq =>
    simp only [work, hl, List.map_cons, List.sum_cons, LoopEvent.work, (Fifo.send_eq_some.mp hq).2, List.length_append,
      List.length_singleton]
    omega
  | dropped e rest hl m _ _ =>
    simp only [work, hl, List.map_cons, List.sum_cons, LoopEvent.work]
    omega
  | returned b rest hl q hq =>
    simp only [work, hl, List.map_cons, List.sum_cons, LoopEvent.work]
    omega
  | otaReceive hm m q hq =>
    simp only [work, hm, hq, List.length_cons, Option.toList_none, Option.toList_some, List.length_nil]
    omega
  | iterated m hm idf task t htask _ =>
    have hback : (((bufferUsed m).toList.map fun c => LoopEvent.dataBufferUsed c.ptr).map LoopEvent.work).sum ≤ 1 := by
      cases bufferUsed m <;> simp [LoopEvent.work]
    simp only [work, hm, htask, List.map_append, List.sum_append, Option.toList_some, Option.toList_none,
      List.length_cons, List.length_nil]
    omega
  | restarted m hm idf task htask _ =>
    simp only [work, htask, Option.toList_some, Option.toList_none, List.length_cons, List.length_nil]
    omega

theorem work_le (s : Pipeline) : s.work ≤ 4 * s.loop.length + 13 := by
  have hhandler : s.handler.work ≤ 1 := by
    cases s.handler <;> simp [UploadHandler.work]
  have hloop : (s.loop.map LoopEvent.work).sum ≤ 4 * s.loop.length := by
    induction s.loop with
    | nil => simp
    | cons e rest ih =>
      have he : e.work ≤ 4 := by cases e <;> simp [LoopEvent.work]
      rw [List.map_cons, List.sum_cons, List.length_cons]
      omega
  have hqueue := s.otaQueue.bound
  have hmsg : s.msg.toList.length ≤ 1 := by cases s.msg <;> simp
  have hota : s.ota.toList.length ≤ 1 := by cases s.ota <;> simp
  unfold Pipeline.work
  unfold otaQueueSize at hqueue
  omega

/-- While a buffer is left, whatever is under way can go on. -/
theorem Pipeline.progress (hnodup : s.owned.Nodup) (hs : s.ota.isSome = true) (hbuffer : s.owned ≠ [])
    (h : ¬ s.Drained) : ∃ e t, e ≠ .upload ∧ s.step e = some t := by
  obtain ⟨task, htask⟩ := Option.isSome_iff_exists.mp hs
  have enabled {e : PipelineEvent} (he : e ≠ .upload) (hmove : (s.move task e).isSome = true) :
      ∃ e t, e ≠ .upload ∧ s.step e = some t := by
    obtain ⟨t, ht⟩ := Option.isSome_iff_exists.mp hmove
    exact ⟨e, t, he, by rw [Pipeline.step, htask, Option.bind_some, ht]⟩
  cases hm : s.msg with
  | some m => exact enabled (e := .otaIterate {}) (by simp) (by simp [move, hm])
  | none =>
    cases hq : s.otaQueue.receive with
    | some p => exact enabled (e := .otaReceive) (by simp) (by simp [move, hm, hq])
    | none =>
      cases hl : s.loop with
      | cons e rest =>
        refine enabled (e := .deliver) (by simp) ?_
        cases e with
        | httpServer e =>
          simp only [move, hl, handle]
          split
          · rfl
          · split <;> rfl
        | dataBufferUsed b =>
          have hroom := length_bufferQueue_lt hnodup hl
          simp [move, hl, handle, Fifo.send, hroom]
      | nil =>
        cases hh : s.handler with
        | idle => exact absurd ⟨hh, hl, Fifo.receive_eq_none.mp hq, hm⟩ h
        | receiving b => exact enabled (e := .recv (.error (-1))) (by simp) (by simp [move, hh])
        | wantsBuffer =>
          have hpool : s.owned = s.bufferQueue.items := by
            simp [owned, hh, hl, hm, Fifo.receive_eq_none.mp hq, UploadHandler.buffers]
          cases hb : s.bufferQueue.receive with
          | none => exact absurd (hpool.trans (Fifo.receive_eq_none.mp hb)) hbuffer
          | some p => exact enabled (e := .getBuffer) (by simp) (by simp [move, hh, hb])

/-! ## After it -/

/-- With no buffer left none comes back, and none is taken or received into. -/
theorem Pipeline.Step.bufferless (h : Step s e t) (hs : s.owned = []) :
    t.owned = [] ∧ e ≠ .getBuffer ∧ ∀ r, e ≠ .recv r := by
  have howned : t.owned = [] := by
    rw [List.eq_nil_iff_forall_not_mem]
    intro b hb
    have hcount := h.count b
    rw [hs, List.count_nil] at hcount
    have := List.count_pos_iff.mpr hb
    omega
  refine ⟨howned, ?_, fun r => ?_⟩
  · rintro rfl
    cases h with
    | getBuffer hh b q hq =>
      have hmem : b ∈ s.owned := by simp [owned, hq]
      rw [hs] at hmem
      cases hmem
  · rintro rfl
    cases h with
    | recv b hh r =>
      have hmem : b ∈ s.owned := by simp [owned, hh, UploadHandler.buffers]
      rw [hs] at hmem
      cases hmem

theorem bufferless_run (h : exec Pipeline.step s later = some t) (hs : s.owned = []) :
    t.owned = [] ∧ .getBuffer ∉ later ∧ ∀ r, .recv r ∉ later := by
  refine exec_history (I := fun later t => t.owned = [] ∧ .getBuffer ∉ later ∧ ∀ r, .recv r ∉ later) h
    ⟨hs, by simp, by simp⟩ ?_
  intro later t e u _ ⟨howned, hget, hrecv⟩ hstep
  obtain ⟨howned', hget', hrecv'⟩ := (Pipeline.step_cases hstep).bufferless howned
  refine ⟨howned', ?_, fun r => ?_⟩
  · simpa [hget] using hget'.symm
  · simpa [hrecv r] using (hrecv' r).symm

/-- **The update service lasts for three losses.** In a boot no more than three uploads come to an end. Until three
buffers are lost, whatever is under way can go on, and comes to wait for a client after a number of steps fixed
beforehand; once three are, no upload receives another byte. -/
theorem uploads_until_third_loss (es : List PipelineEvent) (s : Pipeline) (hrun : Pipeline.run es = some s) :
    (es.filter PipelineEvent.endsUpload).length ≤ (lostAlong es).length ∧
      (lostAlong es).length ≤ totalChunkBuffers ∧
      ((lostAlong es).length < totalChunkBuffers → s.ota.isSome = true → ¬ s.Drained →
        ∃ e t, e ≠ .upload ∧ s.step e = some t) ∧
      (∀ later t, exec Pipeline.step s later = some t → (∀ e ∈ later, e.Alone) →
        later.length ≤ 4 * s.loop.length + 13) ∧
      ((lostAlong es).length = totalChunkBuffers → ∀ later t, exec Pipeline.step s later = some t →
        .getBuffer ∉ later ∧ ∀ r, .recv r ∉ later) := by
  have hlength := length_owned_lost hrun
  refine ⟨ended_le_lost hrun, by omega, fun hlost hs hdrained => ?_, fun later t ht halone => ?_,
    fun hlost later t ht => ?_⟩
  · have hbuffer : s.owned ≠ [] := by
      rw [← List.length_pos_iff]
      omega
    exact Pipeline.progress (owned_nodup hrun) hs hbuffer hdrained
  · have halong : Along Pipeline.step (fun _ e => e.Alone) s later := along_of_forall fun e he _ => halone e he
    have hlen := (length_add_rank_le (I := fun _ => True) Pipeline.work ht halong trivial fun v e w _ he hstep =>
      ⟨trivial, (Pipeline.step_cases hstep).work_lt he⟩).2
    have hle := work_le s
    omega
  · have howned : s.owned = [] := by
      rw [← List.length_eq_zero_iff]
      omega
    exact (bufferless_run ht howned).2

theorem uploads_until_third_loss_empty :
    ∃ s, Pipeline.run emptyUploadEvents = some s ∧ lostAlong emptyUploadEvents = [0] ∧
      (emptyUploadEvents.filter PipelineEvent.endsUpload).length ≤ (lostAlong emptyUploadEvents).length ∧
      (lostAlong emptyUploadEvents).length ≤ totalChunkBuffers ∧
      ((lostAlong emptyUploadEvents).length < totalChunkBuffers → s.ota.isSome = true → ¬ s.Drained →
        ∃ e t, e ≠ .upload ∧ s.step e = some t) ∧
      (∀ later t, exec Pipeline.step s later = some t → (∀ e ∈ later, e.Alone) →
        later.length ≤ 4 * s.loop.length + 13) ∧
      ((lostAlong emptyUploadEvents).length = totalChunkBuffers → ∀ later t, exec Pipeline.step s later = some t →
        .getBuffer ∉ later ∧ ∀ r, .recv r ∉ later) :=
  ⟨_, rfl, by decide +kernel, uploads_until_third_loss emptyUploadEvents _ rfl⟩

end GateNode.Ota
