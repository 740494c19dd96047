/-
What the labels show on the way. A label's text is stored by `gui_op_task` and
drawn by `ui_worker_task` from the same static, so a job may find the text of
a later call than its own; it never finds that of an earlier one.
-/
import GateNode.Lib.Register
import GateNode.Gui.Display

namespace GateNode.Gui

open CString
open Register

/-- The text a call stores for the label. -/
def UiCall.textFor (l : Label) : UiCall → Option (List UInt8)
  | .setLabel l' string => if l' = l then some (labelText string) else none
  | _ => none

/-- The texts asked for. -/
def asked (l : Label) (es : List Event) : List (List UInt8) := (acceptedCalls es).filterMap (UiCall.textFor l)

/-- What a step draws on the label. -/
def System.draws (l : Label) (s : System) : Event → List (List UInt8)
  | .workerRun => if s.job = some (.setLabel l) then [s.text l] else []
  | _ => []

/-- The texts drawn on the label. -/
def drawn (display : Display) (l : Label) (es : List Event) : List (List UInt8) :=
  Lts.collect System.step (System.draws l) (.boot display) es

/-- The call whose text is stored, and whose job is not yet put up. -/
def System.held (s : System) : List UiCall := if s.stored then s.calls.take 1 else []

/-- The texts stored. -/
def System.texts (display : Display) (l : Label) (es : List Event) (s : System) : List (List UInt8) :=
  (submitted display es ++ s.held).filterMap (UiCall.textFor l)

/-- The job a step puts on the queue of the worker. -/
def System.queues (s : System) (e : Event) : List Job :=
  ((s.submits e).map UiCall.job).filter fun j => (s.notifyQueue.send j).isSome

/-- The job a step runs. -/
def System.runs (s : System) : Event → List Job
  | .workerRun => s.job.toList
  | _ => []

def jobsQueued (display : Display) (es : List Event) : List Job :=
  Lts.collect System.step System.queues (.boot display) es

def jobsRun (display : Display) (es : List Event) : List Job :=
  Lts.collect System.step System.runs (.boot display) es

/-- Of a request for the label whose job is put up: it finds room in the queue. -/
def System.jobRoom (l : Label) (s : System) (e : Event) : List Bool :=
  ((s.submits e).filter fun c => (c.textFor l).isSome).map fun c => (s.notifyQueue.send c.job).isSome

def jobRooms (display : Display) (l : Label) (es : List Event) : List Bool :=
  Lts.collect System.step (System.jobRoom l) (.boot display) es

/-- The numbers of the requests for the label whose jobs were queued, in order. -/
def queuedRequests (display : Display) (l : Label) (es : List Event) : List Nat :=
  (jobRooms display l es).findIdxs id

variable {s t : System} {e : Event} {display : Display} {es : List Event} {l : Label}

/-! ## The jobs -/

theorem System.Step.jobs (h : s.Step e t) : s.runs e ++ t.pending = s.pending ++ s.queues e := by
  cases h with
  | queued c rest q hc hs hroom hq =>
    have hsend : (s.notifyQueue.send c.job).isSome = true := by simp [Fifo.send, hroom]
    simp [runs, queues, pending, submits, hc, hq, hsend]
  | dropped c rest hc hs hfull =>
    have hsend : s.notifyQueue.send c.job = none := Fifo.send_eq_none.mpr hfull
    simp [runs, queues, pending, submits, hc, hsend]
  | workerReceive j q hj hq => simp [runs, queues, pending, submits, hj, hq]
  | workerRun j hj => simp [runs, queues, pending, submits, hj]
  | inform | informFails | guiReceive | storeText => simp [runs, queues, pending, submits]

/-- The worker runs the jobs queued, in their order. -/
theorem jobs_in_order (h : run display es = some s) : jobsRun display es ++ s.pending = jobsQueued display es :=
  Lts.in_order (G := fun _ _ => True) System.pending h (Lts.along_of_forall fun _ _ _ => trivial)
    fun _ _ _ _ hstep => (System.step_cases hstep).jobs

theorem textFor_isSome (c : UiCall) : (c.textFor l).isSome = true ↔ c.job = .setLabel l := by
  cases c with
  | setLabel l' string => by_cases hl : l' = l <;> simp [UiCall.textFor, UiCall.job, hl]
  | loadScreen | setWifiState => simp [UiCall.textFor, UiCall.job]

theorem drawn_snoc (hrun : run display es = some s) : drawn display l (es ++ [e]) = drawn display l es ++ s.draws l e :=
  Lts.collect_snoc hrun

theorem submitted_snoc (hrun : run display es = some s) :
    submitted display (es ++ [e]) = submitted display es ++ s.submits e := Lts.collect_snoc hrun

/-- The draws on a label are the runs of its jobs. -/
theorem length_drawn (h : run display es = some s) :
    (drawn display l es).length = (jobsRun display es).count (.setLabel l) := by
  refine Lts.collect_measure List.length (List.count (Job.setLabel l)) (fun _ _ => List.length_append)
    (fun _ _ => List.count_append) h rfl fun s e => ?_
  cases e with
  | workerRun =>
    simp only [System.draws, System.runs]
    cases s.job with
    | none => rfl
    | some j => by_cases hj : j = .setLabel l <;> simp [hj]
  | _ => rfl

theorem length_jobRooms (h : run display es = some s) :
    (jobRooms display l es).length = ((submitted display es).filterMap (UiCall.textFor l)).length := by
  refine Lts.collect_measure List.length (fun cs => (cs.filterMap (UiCall.textFor l)).length)
    (fun _ _ => List.length_append) (fun _ _ => by rw [List.filterMap_append, List.length_append]) h rfl fun s e => ?_
  rw [System.jobRoom, List.length_map, List.length_filterMap_eq_countP, List.countP_eq_length_filter]

theorem queuedRequests_snoc (hrun : run display es = some s) :
    queuedRequests display l (es ++ [e]) =
      queuedRequests display l es ++ (s.jobRoom l e).findIdxs id (jobRooms display l es).length := by
  rw [queuedRequests, jobRooms, Lts.collect_snoc hrun, List.findIdxs_append, Nat.zero_add]
  rfl

theorem countP_jobRoom : (s.jobRoom l e).countP id = (s.queues e).count (.setLabel l) := by
  rw [System.jobRoom, System.queues, List.count, List.countP_map, List.countP_filter, List.countP_filter, List.countP_map]
  refine List.countP_congr fun c _ => ?_
  simp only [Function.comp_apply, id_eq, Bool.and_eq_true, textFor_isSome, beq_iff_eq]
  exact And.comm

theorem length_queuedRequests (h : run display es = some s) :
    (queuedRequests display l es).length = (jobsQueued display es).count (.setLabel l) := by
  rw [queuedRequests, List.length_findIdxs]
  exact Lts.collect_measure (List.countP id) (List.count (Job.setLabel l)) (fun _ _ => List.countP_append)
    (fun _ _ => List.count_append) h rfl fun _ _ => countP_jobRoom

/-- The draws on a label still to come are its jobs pending. -/
theorem length_drawn_add (h : run display es = some s) :
    (drawn display l es).length + s.pending.count (.setLabel l) = (queuedRequests display l es).length := by
  rw [length_drawn h, length_queuedRequests h, ← jobs_in_order h, List.count_append]

/-! ## The texts -/

/-- The static holds the last text stored; a job is queued behind the store of its own text, and draws what is there. -/
structure LabelOk (display : Display) (l : Label) (es : List Event) (s : System) : Prop where
  reads : Reads (s.texts display l es) (queuedRequests display l es) (drawn display l es)
  text : ∀ text ∈ (s.texts display l es).getLast?, s.text l = text

/-- A step that stores nothing for the label, queues no job of it and draws nothing on it. -/
theorem LabelOk.keep (h : LabelOk display l es s) (hrun : run display es = some s) (hdraws : s.draws l e = [])
    (hqueued : queuedRequests display l (es ++ [e]) = queuedRequests display l es)
    (htexts : t.texts display l (es ++ [e]) = s.texts display l es) (htext : t.text l = s.text l) :
    LabelOk display l (es ++ [e]) t := by
  refine ⟨?_, ?_⟩
  · rw [htexts, hqueued, drawn_snoc hrun, hdraws, List.append_nil]
    exact h.reads
  · rw [htexts, htext]
    exact h.text

theorem LabelOk.boot (display : Display) (l : Label) : LabelOk display l [] (.boot display) :=
  ⟨.nil, by simp [System.texts, submitted, System.held, System.boot]⟩

/-- No job put up: the requests whose jobs were queued are those before. -/
theorem queuedRequests_keep (hrun : run display es = some s) (hsub : s.submits e = []) :
    queuedRequests display l (es ++ [e]) = queuedRequests display l es := by
  rw [queuedRequests_snoc hrun, System.jobRoom, hsub]
  exact List.append_nil _

/-- With the same calls the texts are those before, too. -/
theorem texts_keep (hrun : run display es = some s) (hsub : s.submits e = []) (hheld : t.held = s.held) :
    t.texts display l (es ++ [e]) = s.texts display l es := by
  rw [System.texts, submitted_snoc hrun, hsub, List.append_nil, hheld]
  rfl

/-- The text of a call is stored before its job is put up. -/
theorem held_of_stored {c : UiCall} {rest : List UiCall} (hc : s.calls = c :: rest) (hs : c.Stored s.stored) :
    s.held.filterMap (UiCall.textFor l) = [c].filterMap (UiCall.textFor l) := by
  cases hstored : s.stored with
  | true => simp [System.held, hstored, hc]
  | false =>
    cases c with
    | setLabel l' string =>
      rw [UiCall.Stored, hstored] at hs
      cases hs
    | loadScreen | setWifiState => simp [System.held, hstored, UiCall.textFor]

/-- So it is there already when the job is. -/
theorem texts_submit {c : UiCall} {rest : List UiCall} (hrun : run display es = some s) (hc : s.calls = c :: rest)
    (hs : c.Stored s.stored) (hheld : t.held = []) :
    t.texts display l (es ++ [.processJob]) = s.texts display l es := by
  have hsub : s.submits .processJob = [c] := by simp [System.submits, hc]
  rw [System.texts, System.texts, submitted_snoc hrun, hsub, hheld, List.append_nil, List.filterMap_append,
    List.filterMap_append, held_of_stored hc hs]

theorem LabelOk.store {l' : Label} {string : List UInt8} {rest : List UiCall} (h : LabelOk display l es s)
    (hrun : run display es = some s) (hc : s.calls = .setLabel l' string :: rest) (hs : s.stored = false) :
    LabelOk display l (es ++ [.storeText])
      { s with text := Function.update s.text l' (labelText string), stored := true } := by
  have hbefore : s.held = [] := by simp [System.held, hs]
  have htexts (u : System) (hu : u.held = [.setLabel l' string]) : u.texts display l (es ++ [.storeText]) =
      s.texts display l es ++ [UiCall.setLabel l' string].filterMap (UiCall.textFor l) := by
    rw [System.texts, System.texts, submitted_snoc hrun, hu, hbefore, List.filterMap_append, List.append_nil]
    exact congrArg (fun cs => List.filterMap (UiCall.textFor l) cs ++ _) (List.append_nil _)
  have hheld : ({ s with text := Function.update s.text l' (labelText string), stored := true } : System).held =
      [.setLabel l' string] := by simp [System.held, hc]
  have hqueued : queuedRequests display l (es ++ [.storeText]) = queuedRequests display l es :=
    queuedRequests_keep hrun rfl
  by_cases hl : l' = l
  · subst hl
    refine ⟨?_, ?_⟩
    · rw [htexts _ hheld, hqueued, drawn_snoc hrun]
      simpa [UiCall.textFor, System.draws] using h.reads.write (labelText string)
    · rw [htexts _ hheld]
      simp [UiCall.textFor]
  · refine h.keep hrun rfl hqueued ?_ (Function.update_of_ne (Ne.symm hl) _ _)
    rw [htexts _ hheld]
    simp [UiCall.textFor, hl]

/-- The job of a call is put up: of one for the label, behind its own text, which is the last one stored. -/
theorem LabelOk.submit {c : UiCall} {rest : List UiCall} (h : LabelOk display l es s) (hrun : run display es = some s)
    (hc : s.calls = c :: rest) (hs : c.Stored s.stored) (hheld : t.held = []) (htext : t.text l = s.text l) :
    LabelOk display l (es ++ [.processJob]) t := by
  have htexts : t.texts display l (es ++ [.processJob]) = s.texts display l es := texts_submit hrun hc hs hheld
  have hsub : s.submits .processJob = [c] := by simp [System.submits, hc]
  have hqueued := queuedRequests_snoc (l := l) (e := .processJob) hrun
  rw [System.jobRoom, hsub] at hqueued
  cases hfor : c.textFor l with
  | none =>
    rw [List.filter_cons_of_neg (by simp [hfor]), List.filter_nil, List.map_nil, List.findIdxs_nil,
      List.append_nil] at hqueued
    exact h.keep hrun rfl hqueued htexts htext
  | some string =>
    rw [List.filter_cons_of_pos (by simp [hfor]), List.filter_nil, List.map_singleton,
      List.findIdxs_singleton] at hqueued
    cases hroom : (s.notifyQueue.send c.job).isSome with
    | false =>
      rw [hroom, if_neg (by simp), List.append_nil] at hqueued
      exact h.keep hrun rfl hqueued htexts htext
    | true =>
      rw [hroom, id_eq, if_pos rfl] at hqueued
      have hown : (jobRooms display l es).length < (s.texts display l es).length := by
        rw [length_jobRooms hrun, System.texts, List.filterMap_append, List.length_append, held_of_stored hc hs]
        simp [hfor]
      refine ⟨?_, ?_⟩
      · rw [htexts, hqueued, drawn_snoc hrun]
        simpa [System.draws] using h.reads.announce hown
      · rw [htexts, htext]
        exact h.text

theorem LabelOk.draw {j : Job} (h : LabelOk display l es s) (hrun : run display es = some s) (hj : s.job = some j) :
    LabelOk display l (es ++ [.workerRun]) { s with display := Writes.put s.display (j.effect s.text), job := none } := by
  have htexts : ({ s with display := Writes.put s.display (j.effect s.text), job := none } : System).texts display l
      (es ++ [.workerRun]) = s.texts display l es := texts_keep hrun rfl rfl
  have hqueued : queuedRequests display l (es ++ [.workerRun]) = queuedRequests display l es :=
    queuedRequests_keep hrun rfl
  by_cases hl : j = .setLabel l
  · subst hl
    have hdraws : s.draws l .workerRun = [s.text l] := if_pos hj
    have hlt : (drawn display l es).length < (queuedRequests display l es).length := by
      have hpending : s.pending.count (.setLabel l) ≠ 0 := by simp [System.pending, hj]
      have := length_drawn_add (l := l) hrun
      omega
    -- The job's own text is stored, so there is a last one.
    have hne : s.texts display l es ≠ [] := by
      have := h.reads.own_lt _ (List.getElem_mem hlt)
      exact List.ne_nil_of_length_pos (by omega)
    obtain ⟨ws, w, hws⟩ := (List.eq_nil_or_concat' (s.texts display l es)).resolve_left hne
    have hw : s.text l = w := h.text w (by rw [hws, List.getLast?_concat]; rfl)
    have hreads := h.reads
    rw [hws] at hreads
    refine ⟨?_, ?_⟩
    · rw [htexts, hws, hqueued, drawn_snoc hrun, hdraws, hw]
      exact hreads.read hlt
    · rw [htexts]
      exact h.text
  · refine h.keep hrun (if_neg ?_) hqueued htexts rfl
    rw [hj, Option.some.injEq]
    exact hl

theorem LabelOk.step (h : LabelOk display l es s) (hrun : run display es = some s) (htracks : Tracks display es s)
    (hs : s.Step e t) : LabelOk display l (es ++ [e]) t := by
  cases hs with
  | inform op q hq => exact h.keep hrun rfl (queuedRequests_keep hrun rfl) (texts_keep hrun rfl rfl) rfl
  | informFails op => exact h.keep hrun rfl (queuedRequests_keep hrun rfl) (texts_keep hrun rfl rfl) rfl
  | guiReceive op q hc hq =>
    have hstored : s.stored = false := by
      by_contra hn
      obtain ⟨l', string, rest, hc', -⟩ := htracks.stored (Bool.not_eq_false _ ▸ hn)
      rw [hc] at hc'
      cases hc'
    have hheld : ({ s with calls := guiOpTask op, guiOpQueue := q } : System).held = s.held := by
      simp [System.held, hstored]
    exact h.keep hrun rfl (queuedRequests_keep hrun rfl) (texts_keep hrun rfl hheld) rfl
  | storeText l' string rest hc hs => exact h.store hrun hc hs
  | queued c rest q hc hs hroom hq => exact h.submit hrun hc hs rfl rfl
  | dropped c rest hc hs hfull => exact h.submit hrun hc hs rfl rfl
  | workerReceive j q hj hq => exact h.keep hrun rfl (queuedRequests_keep hrun rfl) (texts_keep hrun rfl rfl) rfl
  | workerRun j hj => exact h.draw hrun hj

/-- Seven channels are searched before the worker runs, and one more behind it. -/
def lateDrawEvents : List Event :=
  let search (channel : Nat) := guiInform .systemSearchingHomeNode (some ⟨ofString "Searching Home", channel⟩)
  let ops := guiInform .systemBooting none :: [1, 2, 3, 4, 5, 6, 7].map search
  ops.map .inform ++ ops.flatMap takesUp ++ (List.replicate 16 workerJob).flatten ++
    .inform (search 8) :: takesUp (search 8) ++ (List.replicate 2 workerJob).flatten

end GateNode.Gui
