/-
The handles of `ota_task`. What one iteration opens it releases before it is
idle again, so none is leaked. But the flag that says a handle was opened
outlives the handle, and a completion does not ask for it, so calls are made
on handles that are not open.
-/
import GateNode.Lib.Since
import GateNode.Ota.BootImage

namespace GateNode.Ota

open GateNode.Http (EspErr)
open Lts

/-- The handles begun and not yet released, after a call. -/
def OtaCall.unreleased (before : List Handle) : OtaCall → List Handle
  | .otaBegin _ h .espOk => h :: before
  | .otaAbort h | .otaEnd h _ => before.erase h
  | _ => before

def unreleased (trace : List OtaCall) : List Handle := trace.foldl OtaCall.unreleased []

/-- The call is on an open handle; the boot partition is set right behind the end of one. -/
def OtaCall.Disciplined (pre : List OtaCall) : OtaCall → Prop
  | .otaBegin _ _ _ => True
  | .otaWrite h _ _ | .otaEnd h _ | .otaAbort h => isOpen h pre = true
  | .otaSetBootPartition _ _ => ∃ pre' h, pre = pre' ++ [.otaEnd h .espOk] ∧ isOpen h pre' = true

/-- Each of the calls is, in its turn, behind those of `trace`. -/
def DisciplinedAfter (trace calls : List OtaCall) : Prop :=
  ∀ pre c post, calls = pre ++ c :: post → c.Disciplined (trace ++ pre)

variable {s t : OtaTask} {l : OtaStep} {ls : List OtaStep} {trace calls : List OtaCall} {idf : Idf}
  {msg : OtaMsg (List UInt8)} {left : Option OtaTask}

/-! ## No handle is leaked -/

theorem unreleased_append {cs : List OtaCall} :
    unreleased (trace ++ cs) = cs.foldl OtaCall.unreleased (unreleased trace) := List.foldl_append

/-- Between iterations: nothing is unreleased, or the task is writing through its own handle. -/
def OtaTask.Holds (s : OtaTask) (trace : List OtaCall) : Prop :=
  unreleased trace = [] ∨
    s.state = .active ∧ s.imageHeaderWasChecked = true ∧ unreleased trace = [s.updateHandle]

theorem OtaTask.Holds.nil (h : s.Holds trace) (hs : s.state = .idle ∨ s.imageHeaderWasChecked = false) :
    unreleased trace = [] := by
  rcases h with h | ⟨hactive, hchecked, -⟩
  · exact h
  · rcases hs with hs | hs <;> simp_all

/-- Releasing the task's own handle leaves none. -/
theorem OtaTask.Holds.erase (h : s.Holds trace) : (unreleased trace).erase s.updateHandle = [] := by
  rcases h with h | ⟨-, -, h⟩ <;> simp [h]

theorem Iteration.holds (h : Iteration s idf msg calls (some t)) (hs : s.Holds trace) : t.Holds (trace ++ calls) := by
  unfold OtaTask.Holds
  rw [unreleased_append]
  cases h with
  | started hstate _ => exact .inl (hs.nil (.inl hstate))
  | noPartition _ _ | ignored _ _ | again _ => exact hs
  | rejected _ hchecked _ | beginFailed _ hchecked _ => exact .inl (hs.nil (.inr hchecked))
  | firstWritten hstate hchecked _ =>
    refine .inr ⟨hstate, rfl, ?_⟩
    simp [OtaCall.unreleased, hs.nil (.inr hchecked)]
  | firstFailed _ hchecked _ =>
    refine .inl ?_
    simp [OtaCall.unreleased, hs.nil (.inr hchecked)]
  | written _ _ => exact hs
  | writeFailed _ _ | endFailed _ | setBootFailed _ => exact .inl hs.erase

/-- **No handle is leaked**: between iterations at most one handle is unreleased, and none while the
task is idle, whatever messages it met and whatever the calls answered. -/
theorem one_handle_unreleased (ls : List OtaStep) (t : OtaTask) (h : exec otaStep {} ls = some t) :
    (unreleased (collect otaStep otaCalls {} ls)).length ≤ 1 ∧
      (t.state = .idle → unreleased (collect otaStep otaCalls {} ls) = []) := by
  have hholds : t.Holds (collect otaStep otaCalls {} ls) := by
    refine exec_history (I := fun ls t => t.Holds (collect otaStep otaCalls {} ls)) h (.inl rfl) ?_
    intro ls t l u ht hholds hstep
    rw [collect_snoc ht]
    exact (otaStep_iteration (run_ok ok_boot ht).next hstep).holds hholds
  refine ⟨?_, fun hidle => hholds.nil (.inl hidle)⟩
  rcases hholds with hnil | ⟨-, -, hone⟩
  · simp [hnil]
  · simp [hone]

/-- An upload breaks off with its handle open. -/
theorem one_handle_unreleased_broken :
    ∃ t, exec otaStep {} brokenUpload.steps = some t ∧
      (unreleased (collect otaStep otaCalls {} brokenUpload.steps)).length ≤ 1 ∧
      (t.state = .idle → unreleased (collect otaStep otaCalls {} brokenUpload.steps) = []) := by
  have hrun : exec otaStep {} brokenUpload.steps = some ⟨.active, true, .active, 7, some 1⟩ := by decide +kernel
  exact ⟨_, hrun, one_handle_unreleased brokenUpload.steps _ hrun⟩

/-! ## Calls on handles that are open -/

/-- No completion before the image has begun, and nothing but starts behind a start taken with the
flag still set. -/
structure OtaTask.Admits (s : OtaTask) (l : OtaStep) (rest : List OtaStep) : Prop where
  completion : l.1 = .dataCompletion → s.state = .active → s.imageHeaderWasChecked = true
  start : l.1 = .dataArrivalStarting → s.state = .idle → s.imageHeaderWasChecked = true →
    l.2.nextUpdatePartition.isSome = true → ∀ m ∈ rest, m.1 = .dataArrivalStarting

/-- Every step of a run from `s` is admitted. -/
def OtaTask.AdmitsAll (s : OtaTask) (ls : List OtaStep) : Prop :=
  ∀ done l rest t, ls = done ++ l :: rest → exec otaStep s done = some t → t.Admits l rest

/-- While the task writes, its handle is open. -/
def OtaTask.Live (s : OtaTask) (trace : List OtaCall) : Prop :=
  s.state = .active → s.imageHeaderWasChecked = true → isOpen s.updateHandle trace = true

theorem disciplinedAfter_nil : DisciplinedAfter trace [] := History.always_nil

theorem disciplinedAfter_cons {c : OtaCall} {cs : List OtaCall} :
    DisciplinedAfter trace (c :: cs) ↔ c.Disciplined trace ∧ DisciplinedAfter (trace ++ [c]) cs :=
  History.always_cons (P := fun pre (c : OtaCall) => c.Disciplined pre)

theorem disciplinedAfter_append {cs : List OtaCall} :
    DisciplinedAfter trace (calls ++ cs) ↔ DisciplinedAfter trace calls ∧ DisciplinedAfter (trace ++ calls) cs :=
  History.always_append (P := fun pre (c : OtaCall) => c.Disciplined pre)

theorem admitsAll_cons : s.AdmitsAll (l :: ls) ↔ s.Admits l ls ∧ ∀ t, otaStep s l = some t → t.AdmitsAll ls := by
  constructor
  · intro h
    refine ⟨h [] l ls s rfl rfl, fun t ht done m rest u hls hu => ?_⟩
    exact h (l :: done) m rest u (by rw [hls, List.cons_append]) (exec_cons_eq_some.mpr ⟨t, ht, hu⟩)
  · rintro ⟨hl, hls⟩ done m rest u hdone hu
    cases done with
    | nil =>
      rw [List.nil_append, List.cons.injEq] at hdone
      cases hu
      rw [← hdone.1, ← hdone.2]
      exact hl
    | cons d done =>
      rw [List.cons_append, List.cons.injEq] at hdone
      obtain ⟨rfl, hdone⟩ := hdone
      obtain ⟨t, ht, hu⟩ := exec_cons_eq_some.mp hu
      exact hls t ht done m rest u hdone hu

/-- An iteration is disciplined unless it is a completion with no image begun. -/
theorem Iteration.disciplined_iff (h : Iteration s idf msg calls left) (hs : s.Ok trace) (hlive : s.Live trace) :
    DisciplinedAfter trace calls ↔
      (msg = .dataCompletion → s.state = .active → s.imageHeaderWasChecked = true) := by
  have ended (hstate : s.state = .active) :
      isOpen s.updateHandle trace = true ↔ s.imageHeaderWasChecked = true := by
    cases hchecked : s.imageHeaderWasChecked with
    | true => simp [hlive hstate hchecked]
    | false => simp [hs.closed (.inr hchecked) s.updateHandle]
  cases h with
  | started _ _ | noPartition _ _ | again _ | rejected _ _ _ => simp [disciplinedAfter_nil]
  | ignored hstate _ => simp [disciplinedAfter_nil, hstate]
  | beginFailed _ _ _ => simp [disciplinedAfter_cons, disciplinedAfter_nil, OtaCall.Disciplined]
  | firstWritten _ _ _ | firstFailed _ _ _ =>
    simp [disciplinedAfter_cons, disciplinedAfter_nil, OtaCall.Disciplined, isOpen_append, OtaCall.opened]
  | written hstate hchecked | writeFailed hstate hchecked =>
    simp [disciplinedAfter_cons, disciplinedAfter_nil, OtaCall.Disciplined, isOpen_append, OtaCall.opened,
      hlive hstate hchecked]
  | endFailed hstate =>
    simp [disciplinedAfter_cons, disciplinedAfter_nil, OtaCall.Disciplined, ended hstate, hstate]
  | setBootFailed hstate | restarted hstate =>
    simp only [disciplinedAfter_cons, disciplinedAfter_nil, OtaCall.Disciplined, and_true, ended hstate, hstate,
      forall_const]
    refine ⟨And.left, fun hchecked => ⟨hchecked, trace, s.updateHandle, rfl, (ended hstate).mpr hchecked⟩⟩

/-- A start taken with the flag set. -/
def OtaTask.Reuses (s : OtaTask) (l : OtaStep) : Prop :=
  l.1 = .dataArrivalStarting ∧ s.state = .idle ∧ s.imageHeaderWasChecked = true ∧
    l.2.nextUpdatePartition.isSome = true

theorem Iteration.live (h : Iteration s idf msg calls (some t)) (hlive : s.Live trace)
    (hreuse : ¬ s.Reuses (msg, idf)) : t.Live (trace ++ calls) := by
  cases h with
  | started hstate hpartition =>
    intro _ hchecked
    exact absurd ⟨rfl, hstate, hchecked, by simp [hpartition]⟩ hreuse
  | noPartition hstate _ | ignored hstate _ =>
    intro hactive
    rw [show s.state = .active from hactive] at hstate
    cases hstate
  | again _ =>
    rw [List.append_nil]
    exact hlive
  | rejected | beginFailed | firstFailed | writeFailed | endFailed | setBootFailed => nofun
  | firstWritten _ _ _ =>
    intro _ _
    simp [isOpen_append, OtaCall.opened]
  | written hstate hchecked =>
    intro _ _
    rw [isOpen_append]
    exact hlive hstate hchecked

/-- Active, the task takes no notice of another start. -/
theorem otaStep_again (hn : s.nextState = s.state) (hactive : s.state = .active) (hl : l.1 = .dataArrivalStarting) :
    otaStep s l = some s ∧ otaCalls s l = [] := by
  obtain ⟨msg, idf⟩ := l
  cases hl
  obtain ⟨state, checked, nextState, handle, partition⟩ := s
  cases hactive
  cases hn
  exact ⟨rfl, rfl⟩

/-- With the flag left and no handle open, whatever is not a start makes a call out of turn. -/
theorem disciplined_closed_iff (hn : s.nextState = s.state) (hactive : s.state = .active)
    (hchecked : s.imageHeaderWasChecked = true) (hclosed : isOpen s.updateHandle trace = false) :
    DisciplinedAfter trace (collect otaStep otaCalls s ls) ↔ ∀ m ∈ ls, m.1 = .dataArrivalStarting := by
  induction ls with
  | nil => simp [disciplinedAfter_nil]
  | cons l ls ih =>
    rw [collect, disciplinedAfter_append, List.forall_mem_cons]
    by_cases hl : l.1 = .dataArrivalStarting
    · obtain ⟨hstep, hcalls⟩ := otaStep_again hn hactive hl
      simp [hstep, hcalls, hl, ih, disciplinedAfter_nil]
    · refine iff_of_false (fun h => ?_) fun h => hl h.1
      have hiter := otaIteration_spec hn l.2 l.1
      have hfirst := h.1
      rw [otaCalls] at hfirst
      generalize (otaIteration s l.2 l.1).1 = calls at hiter hfirst
      generalize (otaIteration s l.2 l.1).2 = left at hiter
      have hopen : isOpen s.updateHandle trace = true := by
        generalize l.1 = msg at hl hiter
        cases hiter with
        | started _ _ | noPartition _ _ | again _ => exact absurd rfl hl
        | ignored hstate _ =>
          rw [hactive] at hstate
          cases hstate
        | rejected _ hflag _ | beginFailed _ hflag _ | firstWritten _ hflag _ | firstFailed _ hflag _ =>
          rw [hchecked] at hflag
          cases hflag
        | written _ _ | writeFailed _ _ | endFailed _ | setBootFailed _ | restarted _ =>
          exact (disciplinedAfter_cons.mp hfirst).1
      rw [hclosed] at hopen
      cases hopen

theorem admitsAll_starts (hn : s.nextState = s.state) (hactive : s.state = .active)
    (hls : ∀ m ∈ ls, m.1 = .dataArrivalStarting) : s.AdmitsAll ls := by
  induction ls with
  | nil =>
    intro done l rest t h
    simp at h
  | cons l ls ih =>
    obtain ⟨hl, hls⟩ := List.forall_mem_cons.mp hls
    refine admitsAll_cons.mpr ⟨⟨fun h => ?_, fun _ h => ?_⟩, fun t ht => ?_⟩
    · rw [hl] at h
      cases h
    · rw [hactive] at h
      cases h
    · rw [(otaStep_again hn hactive hl).1, Option.some.injEq] at ht
      rw [← ht]
      exact ih hls

/-- What a start with the flag still set leads to. -/
theorem OtaTask.Reuses.admitsAll_iff (h : s.Reuses l) (hs : s.Ok trace) :
    DisciplinedAfter trace (collect otaStep otaCalls s (l :: ls)) ↔ s.AdmitsAll (l :: ls) := by
  obtain ⟨hl, hidle, hchecked, hpartition⟩ := h
  obtain ⟨msg, idf⟩ := l
  cases hl
  obtain ⟨partition, hp⟩ := Option.isSome_iff_exists.mp hpartition
  obtain ⟨hnext, -, -, hclosed⟩ := hs
  obtain ⟨state, checked, nextState, handle, old⟩ := s
  cases hidle
  cases hchecked
  cases hnext
  have hp : idf.nextUpdatePartition = some partition := hp
  have hstep : otaStep ⟨.idle, true, .idle, handle, old⟩ (.dataArrivalStarting, idf) =
      some ⟨.active, true, .active, handle, some partition⟩ := by
    simp [otaStep, otaIteration, idleCase, hp]
  have hcalls : otaCalls ⟨.idle, true, .idle, handle, old⟩ (.dataArrivalStarting, idf) = [] := rfl
  rw [collect, hstep, hcalls, List.nil_append, disciplined_closed_iff rfl rfl rfl (hclosed (.inl rfl) handle),
    admitsAll_cons]
  constructor
  · intro hls
    refine ⟨⟨by simp, fun _ _ _ _ => hls⟩, fun t ht => ?_⟩
    rw [hstep, Option.some.injEq] at ht
    rw [← ht]
    exact admitsAll_starts rfl rfl hls
  · exact fun hadmits => hadmits.1.start rfl rfl rfl (by simp [hp])

theorem disciplinedAfter_iff (hs : s.Ok trace) (hlive : s.Live trace) :
    DisciplinedAfter trace (collect otaStep otaCalls s ls) ↔ s.AdmitsAll ls := by
  induction ls generalizing s trace with
  | nil =>
    refine iff_of_true disciplinedAfter_nil fun done l rest t h => ?_
    simp at h
  | cons l ls ih =>
    by_cases hreuse : s.Reuses l
    · exact hreuse.admitsAll_iff hs
    · have hiter := otaIteration_spec hs.next l.2 l.1
      have hl : s.Admits l ls ↔ (l.1 = .dataCompletion → s.state = .active → s.imageHeaderWasChecked = true) :=
        ⟨fun h => h.completion, fun h => ⟨h, fun h1 h2 h3 h4 => absurd ⟨h1, h2, h3, h4⟩ hreuse⟩⟩
      rw [collect, disciplinedAfter_append, admitsAll_cons, hl]
      refine and_congr (hiter.disciplined_iff hs hlive) ?_
      cases hstep : otaStep s l with
      | none => simp [disciplinedAfter_nil]
      | some t =>
        have ht : Iteration s l.2 l.1 (otaCalls s l) (some t) := otaStep_iteration hs.next hstep
        simp only [Option.some.injEq, forall_eq']
        exact ih (ht.ok hs) (ht.live hlive hreuse)

/-- **Every call is on an open handle exactly when the flag tells the truth**: no completion is met
while active with no image begun, and behind a start that is taken with the flag left from an earlier
image comes neither a chunk nor a completion. -/
theorem handle_discipline_iff (ls : List OtaStep) :
    DisciplinedAfter [] (collect otaStep otaCalls {} ls) ↔ OtaTask.AdmitsAll {} ls :=
  disciplinedAfter_iff ok_boot nofun

/-- An upload with no body: its end is that of the handle 0, which no begin returned. -/
theorem empty_upload_ends_nothing :
    collect otaStep otaCalls {} [(.dataArrivalStarting, { nextUpdatePartition := some 1 }),
      (.dataCompletion, { otaEnd := .espFail })] = [.otaEnd 0 .espFail] ∧
      ¬ DisciplinedAfter [] [.otaEnd 0 .espFail] := by
  refine ⟨rfl, fun h => ?_⟩
  have hopen : isOpen 0 [] = true := h [] _ [] rfl
  cases hopen

end GateNode.Ota
