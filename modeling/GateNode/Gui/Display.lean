/-
When the display catches up. `drained` is the display as it will be once the
jobs pending have run: no step of the worker changes it, a job queued adds
its own place to it, a job dropped adds nothing. So a place ends as the events
have it exactly when the last job for it was not dropped, or was dropped
where what was pending, or shown, already came to the same.
-/
import Mathlib.Data.List.Basic
import GateNode.Gui.System

namespace GateNode.Gui

open CString
open Writes

/-- The jobs still to be run, the one in hand first. -/
def System.pending (s : System) : List Job := s.job.toList ++ s.notifyQueue.items

/-- The display once they have run. -/
def System.drained (s : System) : Display := putAll (Job.effect s.text) s.display s.pending

/-- The screen loaded behind a job. -/
def Job.loads (loaded : Option Screen) : Job → Option Screen
  | .loadScreen screen => some screen
  | .setLabel _ | .setWifiState _ => loaded

/-- The screen that is loaded once they have run. -/
def System.screenToBe (s : System) : Option Screen := s.pending.foldl Job.loads (s.display .screen)

/-- The place a call draws. -/
def UiCall.place : UiCall → Option Place
  | .loadScreen _ => some .screen
  | .setLabel l _ => some (.label l)
  | .setWifiState _ => none

/-- Without its job the call comes to the same: the screen will be the one, a job for the label is pending, or the
label shows the text. -/
def System.Covers (s : System) : UiCall → Prop
  | .loadScreen screen => s.screenToBe = some screen
  | .setLabel l string => .setLabel l ∈ s.pending ∨ s.display (.label l) = labelText string
  | .setWifiState _ => True

/-- The job of the call is queued, or not missed. -/
def System.Lands (s : System) (c : UiCall) : Prop :=
  s.notifyQueue.items.length < notifyQueueLength ∨ s.Covers c

/-- The call whose job a step puts up for the queue. -/
def System.submits (s : System) : Event → List UiCall
  | .processJob => s.calls.take 1
  | _ => []

/-- That call, if it is for `p`, with the state it meets. -/
def System.submitsFor (p : Place) (s : System) (e : Event) : List (System × UiCall) :=
  ((s.submits e).filter fun c => c.place = some p).map fun c => (s, c)

/-- The calls of a run whose jobs have been put up. -/
def submitted (display : Display) (es : List Event) : List UiCall :=
  Lts.collect System.step System.submits (.boot display) es

/-- The last job of a run for `p`, if there was one, landed. -/
def LastLands (display : Display) (p : Place) (es : List Event) : Prop :=
  ∀ c ∈ (Lts.collect System.step (System.submitsFor p) (.boot display) es).getLast?, c.1.Lands c.2

variable {s t : System} {e : Event} {p : Place} {display : Display} {es : List Event}

/-! ## Effects and places -/

theorem UiCall.misses_iff (c : UiCall) : Misses p c.effect ↔ c.place ≠ some p := by
  cases c with
  | loadScreen screen =>
    cases p with
    | screen => exact iff_of_false (fun h => h (some screen) rfl) (fun h => h rfl)
    | label l => exact iff_of_true (fun v h => by cases h) nofun
  | setLabel l string =>
    by_cases hp : p = .label l
    · subst hp
      exact iff_of_false (fun h => h (labelText string) rfl) (fun h => h rfl)
    · refine iff_of_true (fun v h => ?_) (fun h => hp (Option.some.inj h).symm)
      cases h
      exact hp rfl
  | setWifiState state => exact iff_of_true (fun v h => by cases h) nofun

/-- A job draws what its call would, where the text stored is the call's. -/
theorem UiCall.job_effect {text : Label → List UInt8} (c : UiCall)
    (h : ∀ l string, c = .setLabel l string → text l = labelText string) : c.job.effect text = c.effect := by
  cases c with
  | loadScreen screen => rfl
  | setLabel l string =>
    rw [UiCall.job, Job.effect, UiCall.effect, h l string rfl]
  | setWifiState state => rfl

theorem Job.misses_label {text : Label → List UInt8} {l : Label} (j : Job) :
    Misses (.label l) (j.effect text) ∨ j.effect text = some ⟨.label l, text l⟩ := by
  cases j with
  | loadScreen screen => exact .inl fun v h => by cases h
  | setLabel l' =>
    by_cases hl : l' = l
    · subst hl
      exact .inr rfl
    · refine .inl fun v h => ?_
      cases h
      exact hl rfl
  | setWifiState state => exact .inl fun v h => by cases h

theorem screenToBe_eq (s : System) : s.screenToBe = s.drained .screen := by
  unfold System.screenToBe System.drained
  generalize s.pending = js
  generalize s.display = d
  induction js generalizing d with
  | nil => rfl
  | cons j js ih =>
    have hj : Job.loads (d .screen) j = put d (j.effect s.text) .screen := by cases j <;> rfl
    rw [List.foldl_cons, hj, putAll_cons]
    exact ih (put d (j.effect s.text))

theorem drained_label (s : System) (l : Label) :
    s.drained (.label l) = if .setLabel l ∈ s.pending then s.text l else s.display (.label l) := by
  unfold System.drained
  split
  · next h => exact putAll_of_mem (fun j _ => j.misses_label) h rfl
  · next h =>
    refine putAll_miss fun j hj => j.misses_label.resolve_right fun he => ?_
    cases j with
    | loadScreen | setWifiState => cases he
    | setLabel l' =>
      cases he
      exact h hj

/-- The call is covered exactly when the display will be as it has it. -/
theorem covers_iff (c : UiCall) (htext : ∀ l string, c = .setLabel l string → s.text l = labelText string) :
    s.Covers c ↔ ∀ p v, c.effect = some ⟨p, v⟩ → s.drained p = v := by
  cases c with
  | loadScreen screen =>
    show s.screenToBe = some screen ↔ _
    rw [screenToBe_eq]
    constructor
    · intro h p v he
      cases he
      exact h
    · exact fun h => h .screen (some screen) rfl
  | setLabel l string =>
    have hiff : s.Covers (.setLabel l string) ↔ s.drained (.label l) = labelText string := by
      show _ ∨ _ ↔ _
      rw [drained_label]
      by_cases hp : .setLabel l ∈ s.pending
      · simp [hp, htext l string rfl]
      · simp [hp]
    rw [hiff]
    constructor
    · intro h p v he
      cases he
      exact h
    · exact fun h => h (.label l) (labelText string) rfl
  | setWifiState state => exact iff_of_true trivial nofun

/-! ## Runs -/

/-- The calls an event accepted adds. -/
def Event.calls : Event → List UiCall
  | .inform op => guiOpTask op
  | _ => []

theorem acceptedCalls_snoc : acceptedCalls (es ++ [e]) = acceptedCalls es ++ e.calls := by
  rw [acceptedCalls, accepted, List.filterMap_append, List.flatMap_append]
  cases e <;> simp [acceptedCalls, accepted, Event.calls]

theorem submitsFor_of_place {c : UiCall} (h : s.submits e = [c]) (hp : c.place = some p) :
    s.submitsFor p e = [(s, c)] := by
  rw [System.submitsFor, h, List.filter_cons_of_pos (by simpa using hp)]
  rfl

theorem submitsFor_of_ne {c : UiCall} (h : s.submits e = [c]) (hp : c.place ≠ some p) : s.submitsFor p e = [] := by
  rw [System.submitsFor, h, List.filter_cons_of_neg (by simpa using hp)]
  rfl

theorem lastLands_snoc_nil (hrun : run display es = some s) (h : s.submitsFor p e = []) :
    LastLands display p (es ++ [e]) ↔ LastLands display p es := by
  rw [LastLands, Lts.collect_snoc hrun, h, List.append_nil]
  rfl

theorem lastLands_snoc_one {c : UiCall} (hrun : run display es = some s) (h : s.submitsFor p e = [(s, c)]) :
    LastLands display p (es ++ [e]) ↔ s.Lands c := by
  rw [LastLands, Lts.collect_snoc hrun, h, List.getLast?_concat]
  simp

/-- The text of the call at hand is stored, and its job not yet put up, of no label at `p`. -/
def System.Settled (s : System) (p : Place) : Prop :=
  s.stored = true → ∀ c ∈ s.calls.head?, c.place ≠ some p

/-- Where the pipeline is: the calls behind it and before it are those of the accepted events, and each place will
be as the calls behind it have it exactly when the last job for it landed. -/
structure Tracks (display : Display) (es : List Event) (s : System) : Prop where
  order : submitted display es ++ s.calls ++ s.guiOpQueue.items.flatMap guiOpTask = acceptedCalls es
  stored : s.stored = true → ∃ l string rest, s.calls = .setLabel l string :: rest ∧ s.text l = labelText string
  places : ∀ p, s.Settled p →
    (s.drained p = synchronously display (submitted display es) p ↔ LastLands display p es)

theorem Tracks.boot (display : Display) : Tracks display [] (.boot display) where
  order := rfl
  stored := nofun
  places := fun _ _ => iff_of_true rfl nofun

/-- A step that puts no job up. -/
theorem Tracks.keep (h : Tracks display es s) (hrun : run display es = some s) (hsub : s.submits e = [])
    (horder : t.calls ++ t.guiOpQueue.items.flatMap guiOpTask =
      s.calls ++ s.guiOpQueue.items.flatMap guiOpTask ++ e.calls)
    (hstored : t.stored = true → ∃ l string rest, t.calls = .setLabel l string :: rest ∧ t.text l = labelText string)
    (hplaces : ∀ p, t.Settled p → s.Settled p ∧ t.drained p = s.drained p) : Tracks display (es ++ [e]) t := by
  have hsubmitted : submitted display (es ++ [e]) = submitted display es := by
    rw [submitted, Lts.collect_snoc hrun, hsub, List.append_nil]
    rfl
  refine ⟨?_, hstored, fun p hp => ?_⟩
  · rw [hsubmitted, acceptedCalls_snoc, ← h.order, List.append_assoc, horder]
    simp only [List.append_assoc]
  · obtain ⟨hs, hdrained⟩ := hplaces p hp
    have hfor : s.submitsFor p e = [] := by
      rw [System.submitsFor, hsub]
      rfl
    rw [hsubmitted, hdrained, lastLands_snoc_nil hrun hfor]
    exact h.places p hs

/-- The call at hand has its text stored when its job is put up. -/
theorem Tracks.text {c : UiCall} {rest : List UiCall} (h : Tracks display es s) (hc : s.calls = c :: rest)
    (hs : c.Stored s.stored) : ∀ l string, c = .setLabel l string → s.text l = labelText string := by
  intro l string he
  subst he
  obtain ⟨l', string', rest', hc', htext⟩ := h.stored hs
  rw [hc] at hc'
  cases hc'
  exact htext

/-- A job is put up: queued or dropped. -/
theorem Tracks.submit {c : UiCall} {rest : List UiCall} (h : Tracks display es s) (hrun : run display es = some s)
    (hc : s.calls = c :: rest) (hs : c.Stored s.stored) (hcalls : t.calls = rest) (hstored : t.stored = false)
    (hgui : t.guiOpQueue = s.guiOpQueue)
    (hdrained : s.notifyQueue.items.length < notifyQueueLength ∧ t.drained = put s.drained c.effect ∨
      ¬ s.notifyQueue.items.length < notifyQueueLength ∧ t.drained = s.drained) :
    Tracks display (es ++ [.processJob]) t := by
  have hone : s.submits .processJob = [c] := by
    show s.calls.take 1 = [c]
    rw [hc]
    rfl
  have hsubmitted : submitted display (es ++ [.processJob]) = submitted display es ++ [c] := by
    rw [submitted, Lts.collect_snoc hrun, hone]
    rfl
  refine ⟨?_, fun hn => ?_, fun p _ => ?_⟩
  · rw [hsubmitted, acceptedCalls_snoc, ← h.order, hcalls, hgui, hc]
    simp [Event.calls]
  · rw [hstored] at hn
    cases hn
  rw [hsubmitted, synchronously, putAll_snoc]
  by_cases hp : c.place = some p
  · rw [lastLands_snoc_one hrun (submitsFor_of_place hone hp)]
    have hhit : ¬ Misses p c.effect := fun hm => (c.misses_iff.mp hm) hp
    obtain ⟨v, hv⟩ := not_forall_not.mp hhit
    have hcovers : s.Covers c ↔ s.drained p = v := by
      rw [covers_iff c (h.text hc hs), hv]
      constructor
      · exact fun hall => hall p v rfl
      · intro hd p' v' he
        cases he
        exact hd
    rw [hv, put_hit]
    rcases hdrained with ⟨hroom, hd⟩ | ⟨hfull, hd⟩
    · rw [hd, hv, put_hit]
      exact iff_of_true rfl (.inl hroom)
    · rw [hd, ← hcovers]
      exact ⟨.inr, fun hl => hl.resolve_left hfull⟩
  · have hmiss : Misses p c.effect := c.misses_iff.mpr hp
    have hd : t.drained p = s.drained p := by
      rcases hdrained with ⟨-, hd⟩ | ⟨-, hd⟩
      · rw [hd, put_miss hmiss]
      · rw [hd]
    have hsettled : s.Settled p := by
      intro _ d hd
      rw [hc] at hd
      cases hd
      exact hp
    rw [put_miss hmiss, hd, lastLands_snoc_nil hrun (submitsFor_of_ne hone hp)]
    exact h.places p hsettled

theorem Tracks.step (h : Tracks display es s) (hrun : run display es = some s) (hs : s.Step e t) :
    Tracks display (es ++ [e]) t := by
  cases hs with
  | inform op q hq =>
    refine h.keep hrun rfl ?_ h.stored fun p hp => ⟨hp, rfl⟩
    show s.calls ++ q.items.flatMap guiOpTask = _
    rw [hq, List.flatMap_append, List.flatMap_singleton, ← List.append_assoc]
    rfl
  | informFails op => exact h.keep hrun rfl (List.append_nil _).symm h.stored fun p hp => ⟨hp, rfl⟩
  | guiReceive op q hc hq =>
    have hstored : s.stored = false := by
      by_contra hn
      obtain ⟨l, string, rest, hc', -⟩ := h.stored (Bool.not_eq_false _ ▸ hn)
      rw [hc] at hc'
      cases hc'
    refine h.keep hrun rfl ?_ ?_ fun p _ => ⟨?_, rfl⟩
    · show guiOpTask op ++ q.items.flatMap guiOpTask = _
      rw [hc, hq, List.flatMap_cons, List.nil_append]
      exact (List.append_nil _).symm
    · intro hn
      rw [show s.stored = true from hn] at hstored
      cases hstored
    · intro hn
      rw [hstored] at hn
      cases hn
  | storeText l string rest hc hs =>
    refine h.keep hrun rfl (List.append_nil _).symm ?_ fun p hp => ⟨?_, ?_⟩
    · exact fun _ => ⟨l, string, rest, hc, Function.update_self l _ s.text⟩
    · intro hn
      rw [hs] at hn
      cases hn
    · -- The text is drawn at its own label only, and that one is not settled.
      have hne : p ≠ .label l := by
        intro he
        have hhead : UiCall.setLabel l string ∈ s.calls.head? := by
          rw [hc]
          rfl
        exact hp rfl _ hhead (congrArg some he.symm)
      refine putAll_congr (fun j _ => ?_) rfl
      cases j with
      | loadScreen | setWifiState => exact .inl rfl
      | setLabel l' =>
        by_cases hl : l' = l
        · subst hl
          refine .inr ⟨fun v he => ?_, fun v he => ?_⟩
          · cases he
            exact hne rfl
          · cases he
            exact hne rfl
        · have htext : Function.update s.text l (labelText string) l' = s.text l' := Function.update_of_ne hl _ _
          exact .inl (congrArg (fun text : List UInt8 => some (⟨.label l', text⟩ : Sigma Place.Value)) htext)
  | queued c rest q hc hs hroom hq =>
    refine h.submit hrun hc hs rfl rfl rfl (.inl ⟨hroom, ?_⟩)
    show putAll (Job.effect s.text) s.display (s.job.toList ++ q.items) = _
    rw [hq, ← List.append_assoc, putAll_snoc, UiCall.job_effect c (h.text hc hs)]
    rfl
  | dropped c rest hc hs hfull =>
    exact h.submit hrun hc hs rfl rfl rfl (.inr ⟨Nat.not_lt.mpr hfull, rfl⟩)
  | workerReceive j q hj hq =>
    refine h.keep hrun rfl (List.append_nil _).symm h.stored fun p hp => ⟨hp, ?_⟩
    unfold System.drained System.pending
    rw [hj, hq]
    rfl
  | workerRun j hj =>
    refine h.keep hrun rfl (List.append_nil _).symm h.stored fun p hp => ⟨hp, ?_⟩
    unfold System.drained System.pending
    rw [hj]
    rfl

theorem tracks_run (h : run display es = some s) : Tracks display es s :=
  Lts.exec_history (I := Tracks display) h (.boot display) fun _ _ _ _ ht hes hstep =>
    hes.step ht (System.step_cases hstep)

theorem System.Quiet.drained (h : s.Quiet) : s.drained = s.display := by
  unfold System.drained System.pending
  rw [h.job, h.notifyQueue]
  rfl

/-- **The display catches up with the accepted events exactly when the last job for each place landed.** Whatever
the order of the steps, once both queues are empty and both tasks wait, the screen and all labels are as the
events, taken synchronously, have them, if and only if the last job put up for each of them was queued, or was
dropped where the same was pending or shown. -/
theorem display_catches_up_iff (display : Display) (es : List Event) (s : System) (h : run display es = some s)
    (hquiet : s.Quiet) :
    s.display = synchronously display (acceptedCalls es) ↔ ∀ p, LastLands display p es := by
  have ht := tracks_run h
  have hsubmitted : submitted display es = acceptedCalls es := by
    rw [← ht.order, hquiet.calls, hquiet.guiOpQueue]
    simp
  have hsettled (p : Place) : s.Settled p := by
    intro hn c hc
    rw [hquiet.calls] at hc
    cases hc
  have hplaces (p : Place) : s.display p = synchronously display (acceptedCalls es) p ↔ LastLands display p es := by
    rw [← hquiet.drained, ← hsubmitted]
    exact ht.places p (hsettled p)
  rw [funext_iff]
  exact forall_congr' hplaces

/-- Where no job is dropped it does. -/
theorem display_catches_up_of_room (h : run display es = some s) (hquiet : s.Quiet)
    (hroom : Lts.Along System.step (fun s e => e = .processJob → s.notifyQueue.items.length < notifyQueueLength)
      (.boot display) es) : s.display = synchronously display (acceptedCalls es) := by
  refine (display_catches_up_iff display es s h hquiet).mpr fun p c hc => .inl ?_
  have hmem := List.mem_of_getLast? hc
  refine Lts.forall_mem_collect (P := fun c => c.1.notifyQueue.items.length < notifyQueueLength) hroom
    (fun s e hs c hc => ?_) c hmem
  obtain ⟨d, hd, rfl⟩ := List.mem_map.mp hc
  refine hs ?_
  cases e with
  | processJob => rfl
  | _ => cases (List.mem_filter.mp hd).1

/-! ## Runs to look at -/

/-- Nothing loaded, nothing shown. -/
def blank : Display
  | .screen => none
  | .label _ => []

/-- `gui_op_task` takes up an event and goes through its calls. -/
def takesUp (op : GuiOpInfo) : List Event :=
  .guiReceive :: (guiOpTask op).flatMap fun
    | .setLabel _ _ => [.storeText, .processJob]
    | _ => [.processJob]

def workerJob : List Event := [.workerReceive, .workerRun]

instance (s : System) : Decidable s.Quiet :=
  decidable_of_iff (s.guiOpQueue.items = [] ∧ s.calls = [] ∧ s.notifyQueue.items = [] ∧ s.job = none)
    ⟨fun h => ⟨h.1, h.2.1, h.2.2.1, h.2.2.2⟩, fun h => ⟨h.guiOpQueue, h.calls, h.notifyQueue, h.job⟩⟩

/-- Whether all is done, and the screen loaded. -/
def System.outcome (s : System) : Bool × Option Screen := (s.Quiet, s.display .screen)

theorem outcome_eq {screen : Option Screen} (h : s.outcome = (true, screen)) :
    s.Quiet ∧ s.display .screen = screen := by
  obtain ⟨hquiet, hscreen⟩ := Prod.mk.inj h
  exact ⟨of_decide_eq_true hquiet, hscreen⟩

/-- The boot screen, drawn at once. -/
def bootingRun : List Event :=
  .inform (guiInform .systemBooting none) :: takesUp (guiInform .systemBooting none) ++
    (List.replicate 4 workerJob).flatten

theorem display_catches_up_booting :
    ∃ s, run blank bootingRun = some s ∧ s.Quiet ∧ s.display .screen = some .boot ∧
      (s.display = synchronously blank (acceptedCalls bootingRun) ↔ ∀ p, LastLands blank p bootingRun) := by
  have hrun : (run blank bootingRun).map System.outcome = some (true, some .boot) := by decide +kernel
  obtain ⟨s, hs, hout⟩ := Option.map_eq_some_iff.mp hrun
  obtain ⟨hquiet, hscreen⟩ := outcome_eq hout
  exact ⟨s, hs, hquiet, hscreen, display_catches_up_iff blank bootingRun s hs hquiet⟩

/-- Boot, a scan of six channels and the end of boot. -/
def bootEvents : List GuiOpInfo :=
  guiInform .systemBooting none ::
    ([1, 2, 3, 4, 5, 6].map fun channel =>
      guiInform .systemSearchingHomeNode (some ⟨ofString "Searching Home", channel⟩)) ++
    [guiInform .systemBootDone none]

/-- The worker gets to run behind the last of them only. -/
def lateWorkerRun : List Event :=
  bootEvents.map .inform ++ bootEvents.flatMap takesUp ++ (List.replicate 16 workerJob).flatten

/-- Every event is accepted, the queues empty again, and the home screen is never loaded: its job found the queue
full. -/
theorem home_screen_lost :
    ∃ s, run blank lateWorkerRun = some s ∧ s.Quiet ∧ s.display .screen = some .boot ∧
      synchronously blank (acceptedCalls lateWorkerRun) .screen = some .home := by
  have hrun : (run blank lateWorkerRun).map System.outcome = some (true, some .boot) := by decide +kernel
  obtain ⟨s, hs, hout⟩ := Option.map_eq_some_iff.mp hrun
  obtain ⟨hquiet, hscreen⟩ := outcome_eq hout
  exact ⟨s, hs, hquiet, hscreen, by decide +kernel⟩

end GateNode.Gui
